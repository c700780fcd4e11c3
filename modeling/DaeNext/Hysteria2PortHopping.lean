/-
The port union of a Hysteria2 server, `dae-outbound-core/src/hysteria2/port_hopping.rs`.

A port is a number up to 65535, and the sum in the adjacency test is one of `u32`, so that it
does not wrap at the last port.
-/
import DaeNext.LibRanges
import DaeNext.LibText
import DaeNext.Socks5Address

set_option autoImplicit false

namespace DaeNext.Hysteria2

open Fallible List Ranges

def parse_u16 (input : String) : Except Text.ParseIntError Nat := Text.from_str_radix 10 65535 input

def parse_port (input port_expr : String) : Except OutboundError Nat :=
  map_err (fun _ => .BadHysteria2 s!"{port_expr} is not a valid port number or range")
    (parse_u16 input)

/-- One turn of the first loop. -/
def parse_part (port_expr part : String) : Except OutboundError (Range Nat) :=
  if part.isEmpty then
    throw (.BadHysteria2 s!"invalid empty Hysteria2 port segment in {port_expr}")
  else
    match Text.split_once '-' part with
    | some (start, last) => do
      let start ← parse_port start port_expr
      let last ← parse_port last port_expr
      if start > last then .ok ⟨last, start⟩ else .ok ⟨start, last⟩
    | none => do
      let port ← parse_port part port_expr
      .ok ⟨port, port⟩

def range_order (a b : Range Nat) : Ordering :=
  (compare a.start b.start).then (compare a.last b.last)

/-- One turn of the second loop. -/
def normalize (normalized : List (Range Nat)) (range : Range Nat) : List (Range Nat) :=
  match normalized.getLast? with
  | none => normalized ++ [range]
  | some last =>
    if range.start ≤ last.last + 1 then
      normalized.dropLast ++
        [if range.last > last.last then { last with last := range.last } else last]
    else normalized ++ [range]

def parse_port_union (port_expr : String) : Except OutboundError (List Nat) := do
  let ranges ← (Text.split ',' port_expr).mapM (parse_part port_expr)
  if ranges.isEmpty then
    throw (.BadHysteria2 s!"invalid Hysteria2 port union: {port_expr}")
  let normalized := (Vec.sort_by range_order ranges).foldl normalize []
  .ok (normalized.flatMap fun range => range' range.start (range.last + 1 - range.start))

/-- What a part of the text lists: the ports between two of them in either order, or one port. -/
def Lists (part : String) (port : Nat) : Prop :=
  match Text.split_once '-' part with
  | some (start, last) => ∃ a, parse_u16 start = .ok a ∧ ∃ b, parse_u16 last = .ok b ∧
      min a b ≤ port ∧ port ≤ max a b
  | none => parse_u16 part = .ok port

theorem parse_part_covers {port_expr part : String} {range : Range Nat}
    (h : parse_part port_expr part = .ok range) (port : Nat) :
    range.covers port = true ↔ Lists part port := by
  rw [parse_part] at h
  split_ifs at h
  simp only [Lists, Range.covers, Bool.and_eq_true, decide_eq_true_eq]
  generalize Text.split_once '-' part = ends at h ⊢
  rcases ends with _ | ⟨start, last⟩
  · obtain ⟨value, hport, rfl⟩ := bind_pure_ok h
    simp only [map_err_ok hport, Except.ok.injEq, le_antisymm_iff]
  · obtain ⟨start, hstart, h⟩ := bind_ok h
    obtain ⟨last, hlast, h⟩ := bind_ok h
    simp only [map_err_ok hstart, map_err_ok hlast, Except.ok.injEq, exists_eq_left']
    split_ifs at h with hswap
    · cases h
      rw [min_eq_right hswap.le, max_eq_left hswap.le]
    · cases h
      rw [min_eq_left (not_lt.mp hswap), max_eq_right (not_lt.mp hswap)]

theorem foldl_normalize (current : Range Nat) (done rest : List (Range Nat)) :
    rest.foldl normalize (done ++ [current]) = done ++ mergeFrom (· + 1) current rest := by
  induction rest generalizing done current with
  | nil => rfl
  | cons range rest ih =>
    rw [foldl_cons, normalize, getLast?_concat, dropLast_concat, mergeFrom]
    dsimp only
    split_ifs with htouch hgrows
    · rw [ih, max_eq_right hgrows.le]
    · rw [ih, max_eq_left (not_lt.mp hgrows)]
    · rw [ih, append_assoc]
      rfl

theorem foldl_normalize_nil (ranges : List (Range Nat)) :
    ranges.foldl normalize [] = merge (· + 1) ranges := by
  cases ranges with
  | nil => rfl
  | cons range rest => exact foldl_normalize range [] rest

/-- **The union is strictly increasing and has the listed ports.** -/
theorem parse_port_union_exact {port_expr : String} {ports : List Nat}
    (h : parse_port_union port_expr = .ok ports) : ports.Pairwise (· < ·) ∧
      ∀ port, port ∈ ports ↔ ∃ part ∈ Text.split ',' port_expr, Lists part port := by
  obtain ⟨ranges, hranges, h⟩ := bind_ok h
  obtain ⟨-, h⟩ := guard_ok h
  cases h
  rw [foldl_normalize_nil]
  have hsorted : (Vec.sort_by range_order ranges).Pairwise (fun a b => a.start ≤ b.start) :=
    sort_by_start ranges
  constructor
  · rw [pairwise_flatMap]
    refine ⟨fun range _ => pairwise_lt_range' 1, ?_⟩
    refine (merge_apart _ Nat.le_succ _ hsorted).imp fun hapart port hport port' hport' => ?_
    simp only [mem_range'_1] at hport hport'
    omega
  · classical
    intro port
    have hany := merge_covers _ (fun _ _ => Nat.succ_le_of_lt) _ hsorted port
    rw [Vec.sort_by_any, mapM_any (q := fun part => decide (Lists part port)) ?_ hranges] at hany
    · rw [Bool.eq_iff_iff] at hany
      simp only [any_eq_true, decide_eq_true_eq] at hany
      rw [← hany, mem_flatMap]
      simp only [mem_range'_1, Range.covers, Bool.and_eq_true, decide_eq_true_eq]
      refine exists_congr fun range => and_congr_right fun _ => ?_
      omega
    · intro part _ range hpart
      rw [Bool.eq_iff_iff, parse_part_covers hpart, decide_eq_true_eq]

theorem parse_port_union_exact_reversed :
    parse_port_union "65535,3-1" = .ok [1, 2, 3, 65535] ∧ [1, 2, 3, 65535].Pairwise (· < ·) :=
  have h : parse_port_union "65535,3-1" = .ok [1, 2, 3, 65535] := by decide +kernel
  ⟨h, (parse_port_union_exact h).1⟩

end DaeNext.Hysteria2
