/-
The wildcard matcher of the include merger, `dae-config/src/merger.rs`.

The matcher keeps one row, with an entry for each number of bytes of the name, and rewrites it
for each byte of the pattern. What it decides is a relation on the splits of the name.
-/
import Mathlib.Data.List.Forall2

set_option autoImplicit false

namespace DaeNext.ConfigMerger

open List

/-- The loop of the `*` arm; `last` is `j > 0 && next[j - 1]`. -/
def star_row : Bool → List Bool → List Bool
  | _, [] => []
  | last, entry :: dp => (entry || last) :: star_row (entry || last) dp

/-- One turn of the loop over the pattern: `next`, which has an entry more than the name. -/
def next_row (name : List UInt8) (dp : List Bool) (pc : UInt8) : List Bool :=
  if pc = '*'.toUInt8 then star_row false dp
  else if pc = '?'.toUInt8 then false :: dp.take name.length
  else false :: zipWith (fun entry byte => entry && byte == pc) dp name

def wildcard_match_bytes (pattern name : List UInt8) : Bool :=
  (pattern.foldl (next_row name) (true :: replicate name.length false))[name.length]? == some true

/-- What a byte of the pattern takes: any piece, exactly one byte, or itself. -/
def Takes (pc : UInt8) (piece : List UInt8) : Prop :=
  pc = '*'.toUInt8 ∨ ∃ byte, piece = [byte] ∧ (pc = '?'.toUInt8 ∨ byte = pc)

/-- The name splits into consecutive pieces, one for each byte of the pattern. -/
def Glob (pattern name : List UInt8) : Prop :=
  ∃ pieces, Forall₂ Takes pattern pieces ∧ pieces.flatten = name

variable {pattern name before after : List UInt8} {pc : UInt8} {dp : List Bool}

/-! ## One row -/

theorem length_star_row (last : Bool) : (star_row last dp).length = dp.length := by
  induction dp generalizing last with
  | nil => rfl
  | cons entry dp ih => rw [star_row, length_cons, ih, length_cons]

/-- The entry before is passed on within the new row, so that an entry of the old row reaches
all later ones. -/
theorem star_row_true {last : Bool} {k : Nat} (hk : k < dp.length) :
    (star_row last dp)[k]? = some true ↔ last = true ∨ ∃ j < k + 1, dp[j]? = some true := by
  induction dp generalizing last k with
  | nil => cases hk
  | cons entry dp ih =>
    cases k with
    | zero => simp [star_row, or_comm]
    | succ k =>
      rw [star_row, getElem?_cons_succ, ih (Nat.lt_of_succ_lt_succ hk),
        Nat.exists_lt_succ_left (n := k + 1)]
      simp [or_left_comm, or_assoc]

theorem length_next_row (h : dp.length = name.length + 1) :
    (next_row name dp pc).length = name.length + 1 := by
  rw [next_row]
  split_ifs
  · rw [length_star_row, h]
  · simp [h]
  · simp [h]

theorem next_row_true (h : dp.length = (before ++ after).length + 1) :
    (next_row (before ++ after) dp pc)[before.length]? = some true ↔
      ∃ start piece, start ++ piece = before ∧ dp[start.length]? = some true ∧ Takes pc piece := by
  by_cases hstar : pc = '*'.toUInt8
  · rw [next_row, if_pos hstar, star_row_true (by rw [h, length_append]; omega)]
    constructor
    · rintro (hfalse | ⟨j, hj, hentry⟩)
      · cases hfalse
      · refine ⟨before.take j, before.drop j, take_append_drop j before, ?_, .inl hstar⟩
        rw [length_take_of_le (Nat.le_of_lt_succ hj)]
        exact hentry
    · rintro ⟨start, piece, rfl, hentry, -⟩
      exact .inr ⟨start.length, by rw [length_append]; omega, hentry⟩
  · -- one byte is taken, the last of `before`
    rcases eq_nil_or_concat before with rfl | ⟨start, byte, rfl⟩
    · rw [next_row, if_neg hstar]
      split_ifs <;> simp [Takes, hstar]
    · rw [concat_eq_append]
      have hrow : (next_row ((start ++ [byte]) ++ after) dp pc)[(start ++ [byte]).length]? = some true
          ↔ dp[start.length]? = some true ∧ (pc = '?'.toUInt8 ∨ byte = pc) := by
        rw [next_row, if_neg hstar]
        split_ifs with hany
        · simp [hany]
        · simp only [length_append, length_singleton, getElem?_cons_succ, getElem?_zipWith]
          cases dp[start.length]? <;> simp [hany]
      rw [hrow]
      constructor
      · rintro ⟨hentry, htakes⟩
        exact ⟨start, [byte], rfl, hentry, .inr ⟨byte, rfl, htakes⟩⟩
      · rintro ⟨_, _, heq, hentry, hstar' | ⟨_, rfl, htakes⟩⟩
        · exact absurd hstar' hstar
        · obtain ⟨rfl, ⟨⟩⟩ := append_inj' heq rfl
          exact ⟨hentry, htakes⟩

theorem glob_cons : Glob (pc :: pattern) name ↔
    ∃ piece rest, piece ++ rest = name ∧ Takes pc piece ∧ Glob pattern rest := by
  constructor
  · rintro ⟨pieces, hpieces, rfl⟩
    obtain ⟨piece, pieces, hpiece, hrest, rfl⟩ := forall₂_cons_left_iff.mp hpieces
    exact ⟨piece, pieces.flatten, flatten_cons.symm, hpiece, pieces, hrest, rfl⟩
  · rintro ⟨piece, _, rfl, hpiece, pieces, hrest, rfl⟩
    exact ⟨piece :: pieces, .cons hpiece hrest, flatten_cons⟩

theorem foldl_next_row (h : dp.length = name.length + 1) :
    (pattern.foldl (next_row name) dp)[name.length]? = some true ↔ ∃ start rest,
      start ++ rest = name ∧ dp[start.length]? = some true ∧ Glob pattern rest := by
  induction pattern generalizing dp with
  | nil =>
    constructor
    · intro hlast
      exact ⟨name, [], append_nil name, hlast, [], .nil, rfl⟩
    · rintro ⟨start, _, rfl, hstart, _, ⟨⟩, rfl⟩
      rw [flatten_nil, append_nil]
      exact hstart
  | cons pc pattern ih =>
    rw [foldl_cons, ih (length_next_row h)]
    constructor
    · rintro ⟨before, rest, rfl, hbefore, hrest⟩
      obtain ⟨start, piece, rfl, hstart, hpiece⟩ := (next_row_true h).mp hbefore
      exact ⟨start, piece ++ rest, (append_assoc ..).symm, hstart,
        glob_cons.mpr ⟨piece, rest, rfl, hpiece, hrest⟩⟩
    · rintro ⟨start, _, rfl, hstart, hglob⟩
      obtain ⟨piece, rest, rfl, hpiece, hrest⟩ := glob_cons.mp hglob
      rw [← append_assoc] at h ⊢
      exact ⟨start ++ piece, rest, rfl,
        (next_row_true h).mpr ⟨start, piece, rfl, hstart, hpiece⟩, hrest⟩

/-- **The matcher is the glob relation.** -/
theorem wildcard_match_bytes_iff (pattern name : List UInt8) :
    wildcard_match_bytes pattern name = true ↔ Glob pattern name := by
  rw [wildcard_match_bytes, beq_iff_eq, foldl_next_row (by simp)]
  constructor
  · rintro ⟨start, rest, rfl, hstart, hrest⟩
    cases start with
    | nil => exact hrest
    | cons byte start => simp [getElem?_replicate] at hstart
  · intro hglob
    exact ⟨[], name, rfl, rfl, hglob⟩

end DaeNext.ConfigMerger
