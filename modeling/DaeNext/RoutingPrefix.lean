/-
IP prefixes and prefix sets of the userspace matcher: `dae-routing/src/prefix.rs`
and `dae-routing/src/prefix/index.rs`.

A set of fewer than 64 prefixes is searched linearly. From 64 on it is turned
into two lists of merged, sorted ranges, one for each family, and searched by
start. `SharedIpPrefixSet.contains_eq` says that the second way answers as the
first: a prefix is a range of words (`LibPrefixBits`), merging keeps the union and
the lookup on merged ranges is exact (`LibRanges`).
-/
import DaeNext.LibNet
import DaeNext.LibPrefixBits
import DaeNext.LibRanges
import DaeNext.LibVec

set_option autoImplicit false

namespace DaeNext.RoutingPrefix

open Net PrefixBits Ranges List

/-! ## One prefix -/

/-- `RoutingError`, the variants a prefix or a domain set can give. -/
inductive RoutingError where
  | InvalidPrefixBits (input : String) (bits : Nat)
  | InvalidDomainKey (key : String)
  | InvalidRegex (pattern : String)
  | InvalidFixture (message : String)
  deriving DecidableEq

def RoutingError.to_string : RoutingError → String
  | .InvalidPrefixBits input bits => s!"invalid prefix bits {bits}: {input}"
  | .InvalidDomainKey key => s!"invalid domain key: {key}"
  | .InvalidRegex pattern => s!"invalid regex: {pattern}"
  | .InvalidFixture message => s!"invalid routing fixture: {message}"

/-- `IpPrefix`: an address, host bits and all, with a length its family allows. -/
structure IpPrefix where
  addr : IpAddr
  bits : Nat
  bits_le : bits ≤ addr.width
  deriving DecidableEq

def IpPrefix.new (addr : IpAddr) (bits : Nat) : Except RoutingError IpPrefix :=
  if h : bits ≤ addr.width then .ok ⟨addr, bits, h⟩
  else .error (.InvalidPrefixBits s!"{addr.to_string}/{bits}" bits)

def prefix_contains (pfx addr bits width : Nat) : Bool :=
  -- a shift by the whole width would overflow, so length zero is apart
  if bits = 0 then true
  else
    let shift := width - bits
    pfx >>> shift = addr >>> shift

/-- `IpPrefix::contains`: never across families. -/
def IpPrefix.contains (self : IpPrefix) (addr : IpAddr) : Bool :=
  match self.addr, addr with
  | .V4 pfx, .V4 addr => prefix_contains pfx.toNat addr.toNat self.bits 32
  | .V6 pfx, .V6 addr => prefix_contains pfx.toNat addr.toNat self.bits 128
  | _, _ => false

variable {w : Nat}

/-- The shortcut for length zero is what the shift gives anyway, so containment
is agreement on the first bits. -/
theorem prefix_contains_iff {bits : Nat} (hbits : bits ≤ w) (p a : BitVec w) :
    prefix_contains p.toNat a.toNat bits w = true ↔ PrefixBits.Agree bits p a := by
  unfold prefix_contains
  split
  · rename_i h0
    subst h0
    simp [PrefixBits.Agree]
  · rw [decide_eq_true_eq, toNat_shiftRight_eq_iff, agree_iff_ushiftRight hbits]

/-! ## The range index -/

abbrev PrefixRange (w : Nat) := Ranges.Range (Fin (2 ^ w))

def prefix_mask_u32 (bits : Nat) : BitVec 32 := PrefixBits.mask 32 bits

def prefix_mask_u128 (bits : Nat) : BitVec 128 := PrefixBits.mask 128 bits

/-- The range of one prefix, from its masked word to the word with all host bits
set. -/
def prefix_range {w : Nat} (addr mask : BitVec w) : PrefixRange w :=
  let start := addr &&& mask
  { start := start.toFin, last := (start ||| ~~~ mask).toFin }

def range_order {w : Nat} (left right : PrefixRange w) : Ordering :=
  (compare left.start right.start).then (compare left.last right.last)

/-- `merge_ranges`. The in-place compaction of the source reads each range once and
grows or closes the last one written, which is `Ranges.merge`. -/
def merge_ranges {w : Nat} (ranges : List (PrefixRange w)) : List (PrefixRange w) :=
  Ranges.merge PrefixBits.next_saturating (Vec.sort_by range_order ranges)

/-- One turn of the loop of `merge_ranges`, on the vector and its last slot written. -/
def merge_turn {w : Nat} (state : List (PrefixRange w) × Nat) (current : Nat) :
    List (PrefixRange w) × Nat :=
  let (ranges, merged_end) := state
  match ranges[current]?, ranges[merged_end]? with
  | some range, some previous =>
    if range.start ≤ PrefixBits.next_saturating previous.last then
      (ranges.set merged_end { previous with last := max previous.last range.last }, merged_end)
    else (ranges.set (merged_end + 1) range, merged_end + 1)
  | _, _ => state

/-- The loop and the `truncate` after it, on ranges that are sorted. -/
def merge_in_place {w : Nat} (ranges : List (PrefixRange w)) : List (PrefixRange w) :=
  if ranges.isEmpty then ranges
  else
    let (ranges, merged_end) := (List.range' 1 (ranges.length - 1)).foldl merge_turn (ranges, 0)
    ranges.take (merged_end + 1)

def range_contains {w : Nat} (ranges : List (PrefixRange w)) (value : BitVec w) : Bool :=
  Ranges.lookup ranges value.toFin

structure IpRangeIndex where
  ipv4 : List (PrefixRange 32)
  ipv6 : List (PrefixRange 128)

/-- The ranges of one family, in the order of the list: the two halves of the loop
in `IpRangeIndex::new`. `word` picks the addresses of the family. -/
def family_ranges {w : Nat} (word : IpAddr → Option (BitVec w)) (mask : Nat → BitVec w)
    (prefixes : List IpPrefix) : List (PrefixRange w) :=
  prefixes.filterMap fun pfx => (word pfx.addr).map fun addr => prefix_range addr (mask pfx.bits)

def ipv4_word : IpAddr → Option (BitVec 32)
  | .V4 addr => some addr
  | .V6 _ => none

def ipv6_word : IpAddr → Option (BitVec 128)
  | .V4 _ => none
  | .V6 addr => some addr

def IpRangeIndex.new (prefixes : List IpPrefix) : IpRangeIndex where
  ipv4 := merge_ranges (family_ranges ipv4_word prefix_mask_u32 prefixes)
  ipv6 := merge_ranges (family_ranges ipv6_word prefix_mask_u128 prefixes)

def IpRangeIndex.contains (self : IpRangeIndex) : IpAddr → Bool
  | .V4 addr => range_contains self.ipv4 addr
  | .V6 addr => range_contains self.ipv6 addr

/-! ## Prefix sets -/

def PREFIX_INDEX_MIN_PREFIXES : Nat := 64

inductive IpPrefixLookup where
  | Linear
  | Indexed (index : IpRangeIndex)

def IpPrefixLookup.for_prefixes (prefixes : List IpPrefix) : IpPrefixLookup :=
  if prefixes.length < PREFIX_INDEX_MIN_PREFIXES then .Linear
  else .Indexed (.new prefixes)

def IpPrefixLookup.contains (self : IpPrefixLookup) (prefixes : List IpPrefix) (addr : IpAddr) :
    Bool :=
  match self with
  | .Linear => prefixes.any (·.contains addr)
  | .Indexed index => index.contains addr

/-- `SharedIpPrefixSet`: the prefixes with the lookup chosen for them. -/
structure SharedIpPrefixSet where
  prefixes : List IpPrefix
  lookup : IpPrefixLookup

def SharedIpPrefixSet.new (prefixes : List IpPrefix) : SharedIpPrefixSet where
  prefixes := prefixes
  lookup := .for_prefixes prefixes

def SharedIpPrefixSet.contains (self : SharedIpPrefixSet) (addr : IpAddr) : Bool :=
  self.lookup.contains self.prefixes addr

/-! ## The index answers as the linear search -/

theorem prefix_range_covers {bits : Nat} (hbits : bits ≤ w) (p a : BitVec w) :
    (prefix_range p (mask w bits)).covers a.toFin = prefix_contains p.toNat a.toNat bits w := by
  rw [Bool.eq_iff_iff, prefix_contains_iff hbits, agree_iff_ushiftRight hbits, ← between_iff hbits]
  simp only [Ranges.Range.covers, Bool.and_eq_true, decide_eq_true_eq]
  rfl

theorem prefix_range_nonempty (bits : Nat) (p : BitVec w) :
    (prefix_range p (mask w bits)).start ≤ (prefix_range p (mask w bits)).last :=
  low_le_high bits p

theorem range_contains_merge (ranges : List (PrefixRange w))
    (hne : ∀ r ∈ ranges, r.start ≤ r.last) (a : BitVec w) :
    range_contains (merge_ranges ranges) a = ranges.any (·.covers a.toFin) := by
  have hsorted : (Vec.sort_by range_order ranges).Pairwise (fun a b => a.start ≤ b.start) :=
    sort_by_start ranges
  rw [range_contains, merge_ranges, lookup_merge next_saturating
    next_saturating_le le_next_saturating _ hsorted
    (fun r hr => hne r (Vec.mem_sort_by.mp hr)), Vec.sort_by_any]

/-- One family of the index. Prefix by prefix: one of the other family is
neither a range nor a hit. -/
theorem family_contains {word : IpAddr → Option (BitVec w)}
    (hword : ∀ addr p, word addr = some p → addr.width = w) (prefixes : List IpPrefix) (a : BitVec w) :
    range_contains (merge_ranges (family_ranges word (mask w) prefixes)) a
      = prefixes.any fun pfx => (word pfx.addr).any fun p =>
          prefix_contains p.toNat a.toNat pfx.bits w := by
  -- a range of a prefix holds at least its own address
  have hne : ∀ r ∈ family_ranges word (mask w) prefixes, r.start ≤ r.last := by
    intro r hr
    obtain ⟨pfx, -, hpfx⟩ := mem_filterMap.mp hr
    obtain ⟨p, -, rfl⟩ := Option.map_eq_some_iff.mp hpfx
    exact prefix_range_nonempty pfx.bits p
  rw [range_contains_merge _ hne, family_ranges, any_filterMap]
  congr 1
  funext pfx
  -- prefix by prefix; the one of the other family adds nothing on either side
  cases hp : word pfx.addr with
  | none => rfl
  | some p =>
    have hbits : pfx.bits ≤ w := by
      rw [← hword pfx.addr p hp]
      exact pfx.bits_le
    exact prefix_range_covers hbits p a

theorem index_contains (prefixes : List IpPrefix) (addr : IpAddr) :
    (IpRangeIndex.new prefixes).contains addr = prefixes.any (·.contains addr) := by
  cases addr with
  | V4 a =>
    have hword : ∀ addr p, ipv4_word addr = some p → addr.width = 32 := by
      rintro (_ | _) p h
      · rfl
      · cases h
    -- across families `contains` is false by its last arm
    refine (family_contains hword prefixes a).trans ?_
    congr 1
    funext pfx
    obtain ⟨p | p, bits, hbits⟩ := pfx <;> rfl
  | V6 a =>
    have hword : ∀ addr p, ipv6_word addr = some p → addr.width = 128 := by
      rintro (_ | _) p h
      · cases h
      · rfl
    refine (family_contains hword prefixes a).trans ?_
    congr 1
    funext pfx
    obtain ⟨p | p, bits, hbits⟩ := pfx <;> rfl

/-- **A prefix set contains what some prefix of it contains**, indexed or not. -/
theorem SharedIpPrefixSet.contains_eq (prefixes : List IpPrefix) (addr : IpAddr) :
    (SharedIpPrefixSet.new prefixes).contains addr = prefixes.any (·.contains addr) := by
  rw [SharedIpPrefixSet.contains, SharedIpPrefixSet.new, IpPrefixLookup.for_prefixes]
  split
  · rfl
  · exact index_contains prefixes addr

/-! ## The merge in place -/

/-- In the middle of the loop the vector has the ranges that are closed, the one that grows, slots
that are free again, and the ranges not yet read. A turn grows the open range, or closes it and
opens the next one in the first slot after it, its own where none is free. -/
theorem merge_turns (rest closed free : List (PrefixRange w)) (opened : PrefixRange w) :
    let after := (List.range' (closed.length + (free.length + 1)) rest.length).foldl merge_turn
      (closed ++ opened :: (free ++ rest), closed.length)
    after.1.take (after.2 + 1)
      = closed ++ mergeFrom next_saturating opened rest := by
  induction rest generalizing closed free opened with
  | nil => simp [mergeFrom, take_append, take_of_length_le]
  | cons range rest ih =>
    have hread : (closed ++ opened :: (free ++ range :: rest))[closed.length + (free.length + 1)]?
        = some range := by simp
    have hopen : (closed ++ opened :: (free ++ range :: rest))[closed.length]? = some opened := by simp
    rw [length_cons, range'_succ, foldl_cons, merge_turn, mergeFrom]
    simp only [hread, hopen]
    by_cases htouch : range.start ≤ next_saturating opened.last
    · have hgrown := ih closed (free ++ [range]) { opened with last := max opened.last range.last }
      simpa [htouch, Nat.add_assoc] using hgrown
    · obtain ⟨slot, free', hfree⟩ : ∃ slot free', free ++ [range] = slot :: free' :=
        exists_cons_of_ne_nil (by simp)
      have hslots : free ++ range :: rest = slot :: (free' ++ rest) := by
        rw [append_cons, hfree, cons_append]
      have hlen : free.length = free'.length := by simpa using congrArg List.length hfree
      have hclosed := ih (closed ++ [opened]) free' range
      simpa [htouch, hslots, hlen, Nat.add_assoc, Nat.add_comm 1] using hclosed

theorem merge_in_place_eq (ranges : List (PrefixRange w)) :
    merge_in_place ranges = merge next_saturating ranges := by
  cases ranges with
  | nil => rfl
  | cons range ranges => exact merge_turns ranges [] [] range

/-- **The index answers as the linear search**, built by the loop that merges in place. -/
theorem range_index_matches_linear_scan (prefixes : List IpPrefix) (addr : IpAddr) :
    IpRangeIndex.new prefixes
        = { ipv4 := merge_in_place (Vec.sort_by range_order
              (family_ranges ipv4_word prefix_mask_u32 prefixes))
            ipv6 := merge_in_place (Vec.sort_by range_order
              (family_ranges ipv6_word prefix_mask_u128 prefixes)) } ∧
      (IpRangeIndex.new prefixes).contains addr = prefixes.any (·.contains addr) := by
  refine ⟨?_, index_contains prefixes addr⟩
  rw [merge_in_place_eq, merge_in_place_eq]
  rfl

end DaeNext.RoutingPrefix
