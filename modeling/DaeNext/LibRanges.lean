/-
Closed ranges of a linear order: the one-pass merge of a sorted list and the
lookup that needs only one comparison of ends.

The merge is given a `next` function for the smallest step above a value, so
that ranges which merely touch are joined too. All it has to satisfy is that
nothing lies strictly between `b` and `next b`; a saturating successor does. The
merge then keeps the union of the ranges (`merge_covers`) and leaves ranges that
are apart (`merge_apart`), and on ranges that are apart the last one starting at
or below a value is the only candidate (`lookup_eq`).
-/
import DaeNext.LibVec
import Mathlib.Order.MinMax

set_option autoImplicit false

namespace Ranges

open List

variable {α : Type*} [LinearOrder α]

/-- A closed range. Nothing asks it to be nonempty. -/
structure Range (α : Type*) where
  start : α
  last : α
  deriving DecidableEq

def Range.covers (r : Range α) (v : α) : Bool := r.start ≤ v && v ≤ r.last

/-- The merge loop after its first range: `current` is the range being grown,
the list what is still to be read. -/
def mergeFrom (next : α → α) : Range α → List (Range α) → List (Range α)
  | current, [] => [current]
  | current, r :: rest =>
    if r.start ≤ next current.last then
      mergeFrom next { current with last := max current.last r.last } rest
    else current :: mergeFrom next r rest

def merge (next : α → α) : List (Range α) → List (Range α)
  | [] => []
  | r :: rest => mergeFrom next r rest

/-- The number of leading elements that satisfy `p`: on a list that `p`
partitions this is its partition point. -/
def partition_point {β : Type*} (p : β → Bool) (l : List β) : Nat := (l.takeWhile p).length

/-- The lookup: of the ranges that start at or below `v`, ask the last one. -/
def lookup (ranges : List (Range α)) (v : α) : Bool :=
  let insertion := partition_point (fun r => r.start ≤ v) ranges
  insertion > 0 && (ranges[insertion - 1]?).any (fun r => v ≤ r.last)

/-- Sorted by start and then by end. -/
theorem sort_by_start (ranges : List (Range α)) :
    (Vec.sort_by (fun a b => (compare a.start b.start).then (compare a.last b.last))
      ranges).Pairwise (fun a b => a.start ≤ b.start) := by
  have : Std.TransCmp fun a b : Range α => (compare a.start b.start).then (compare a.last b.last) :=
    inferInstanceAs (Std.TransCmp (compareLex (compareOn Range.start) (compareOn Range.last)))
  refine (Vec.sort_by_pairwise _ ranges).imp fun {a b} h => ?_
  have hstart : (compare a.start b.start).isLE := by
    cases hc : compare a.start b.start <;> simp_all
  exact compare_le_iff_le.mp (Ordering.isLE_iff_ne_gt.mp hstart)

/-! ## The union -/

variable (next : α → α)

/-- Growing the end leaves the start, so the list stays sorted. -/
theorem pairwise_grow {rest : List (Range α)} {c s : Range α} (last : α)
    (h : (c :: s :: rest).Pairwise (fun a b => a.start ≤ b.start)) :
    ({ c with last } :: rest).Pairwise (fun a b => a.start ≤ b.start) := by
  obtain ⟨hc, hrest⟩ := pairwise_cons.mp h
  exact pairwise_cons.mpr ⟨fun x hx => hc x (mem_cons_of_mem s hx), (pairwise_cons.mp hrest).2⟩

section

variable (hnext : ∀ a b : α, a < b → next a ≤ b)

include hnext

/-- Joining two ranges loses and adds nothing, provided the second starts no
later than one step behind the first. -/
theorem covers_join (c r : Range α) (hstart : c.start ≤ r.start) (htouch : r.start ≤ next c.last)
    (v : α) :
    ({ c with last := max c.last r.last } : Range α).covers v = (c.covers v || r.covers v) := by
  rw [Bool.eq_iff_iff]
  simp only [Range.covers, Bool.and_eq_true, Bool.or_eq_true, decide_eq_true_eq, le_max_iff]
  constructor
  · rintro ⟨hlow, hhigh⟩
    rcases le_or_gt v c.last with hv | hv
    · exact .inl ⟨hlow, hv⟩
    · -- past the first range, so at or past the step the second one starts by
      have hr : r.start ≤ v := htouch.trans (hnext c.last v hv)
      rcases hhigh with h | h
      · exact absurd h (not_le.mpr hv)
      · exact .inr ⟨hr, h⟩
  · rintro (⟨h1, h2⟩ | ⟨h1, h2⟩)
    · exact ⟨h1, .inl h2⟩
    · exact ⟨hstart.trans h1, .inr h2⟩

theorem mergeFrom_covers (rest : List (Range α)) (c : Range α)
    (hsorted : (c :: rest).Pairwise (fun a b => a.start ≤ b.start)) (v : α) :
    (mergeFrom next c rest).any (·.covers v) = (c :: rest).any (·.covers v) := by
  induction rest generalizing c with
  | nil => rfl
  | cons r rest ih =>
    obtain ⟨hc, hrest⟩ := pairwise_cons.mp hsorted
    rw [mergeFrom]
    split
    · rename_i htouch
      rw [ih _ (pairwise_grow _ hsorted), any_cons, any_cons, any_cons,
        covers_join next hnext c r (hc r mem_cons_self) htouch, Bool.or_assoc]
    · rw [any_cons, any_cons, ih r hrest]

/-- **The merge keeps the union.** -/
theorem merge_covers (ranges : List (Range α))
    (hsorted : ranges.Pairwise (fun a b => a.start ≤ b.start)) (v : α) :
    (merge next ranges).any (·.covers v) = ranges.any (·.covers v) := by
  cases ranges with
  | nil => rfl
  | cons r rest => exact mergeFrom_covers next hnext rest r hsorted v

end

/-! ## Ranges that are apart -/

theorem mergeFrom_start_le (rest : List (Range α)) (c : Range α)
    (hsorted : (c :: rest).Pairwise (fun a b => a.start ≤ b.start)) :
    ∀ r ∈ mergeFrom next c rest, c.start ≤ r.start := by
  induction rest generalizing c with
  | nil => simp [mergeFrom]
  | cons s rest ih =>
    obtain ⟨hc, hrest⟩ := pairwise_cons.mp hsorted
    rw [mergeFrom]
    split
    · exact ih _ (pairwise_grow _ hsorted)
    · intro r hr
      rcases mem_cons.mp hr with rfl | hr
      · exact le_rfl
      · exact (hc s mem_cons_self).trans (ih s hrest r hr)

/-- **After the merge, ranges are apart**: each ends before the next one starts. -/
theorem merge_apart (hle : ∀ a : α, a ≤ next a) (ranges : List (Range α))
    (hsorted : ranges.Pairwise (fun a b => a.start ≤ b.start)) :
    (merge next ranges).Pairwise (fun a b => a.last < b.start) := by
  have key : ∀ (rest : List (Range α)) (c : Range α),
      (c :: rest).Pairwise (fun a b => a.start ≤ b.start) →
      (mergeFrom next c rest).Pairwise (fun a b => a.last < b.start) := by
    intro rest
    induction rest with
    | nil => simp [mergeFrom]
    | cons s rest ih =>
      intro c h
      obtain ⟨hc, hrest⟩ := pairwise_cons.mp h
      rw [mergeFrom]
      split
      · exact ih _ (pairwise_grow _ h)
      -- a gap closes `c` for good, since later ranges start behind `s`
      · rename_i hgap
        refine pairwise_cons.mpr ⟨fun r hr => ?_, ih s hrest⟩
        exact ((hle c.last).trans_lt (not_le.mp hgap)).trans_le
          (mergeFrom_start_le next rest s hrest r hr)
  cases ranges with
  | nil => exact List.Pairwise.nil
  | cons r rest => exact key rest r hsorted

theorem lookup_cons (r : Range α) (rest : List (Range α)) (v : α) (hr : r.start ≤ v) :
    lookup (r :: rest) v
      = if partition_point (fun s => s.start ≤ v) rest = 0 then decide (v ≤ r.last)
        else lookup rest v := by
  have hpoint : partition_point (fun s => decide (s.start ≤ v)) (r :: rest)
      = partition_point (fun s => decide (s.start ≤ v)) rest + 1 := by
    simp [partition_point, hr]
  rw [lookup, hpoint]
  by_cases h0 : partition_point (fun s => decide (s.start ≤ v)) rest = 0
  · rw [if_pos h0, h0]
    simp
  · obtain ⟨n, hn⟩ := Nat.exists_eq_succ_of_ne_zero h0
    rw [if_neg h0, lookup, hn]
    simp

/-- **The lookup is exact on ranges that are apart.** -/
theorem lookup_eq (ranges : List (Range α)) (hne : ∀ r ∈ ranges, r.start ≤ r.last)
    (hapart : ranges.Pairwise (fun a b => a.last < b.start)) (v : α) :
    lookup ranges v = ranges.any (·.covers v) := by
  induction ranges with
  | nil => rfl
  | cons r rest ih =>
    obtain ⟨hr, hrest⟩ := pairwise_cons.mp hapart
    have hih := ih (fun s hs => hne s (mem_cons_of_mem r hs)) hrest
    -- a later range that starts at or below `v` leaves `r` behind
    have hpast : ∀ s ∈ rest, s.start ≤ v → r.last < v := fun s hs h => (hr s hs).trans_le h
    -- the induction peels the front range; the search counts it only if it starts by `v`
    by_cases hv : r.start ≤ v
    · rw [lookup_cons r rest v hv, hih, any_cons]
      split
      · rename_i h0
        -- nothing later starts by `v`, so `r` is the range the search lands on
        have hnone : rest.any (·.covers v) = false := by
          rw [← hih]
          simp [lookup, h0]
        rw [hnone, Bool.or_false, Range.covers, decide_eq_true hv, Bool.true_and]
      · rename_i h0
        -- a later range starts by `v`, so the answer of `rest` stands
        obtain ⟨s, hs, hsv⟩ : ∃ s ∈ rest, s.start ≤ v := by
          by_contra hall
          push Not at hall
          refine h0 ?_
          cases rest with
          | nil => rfl
          | cons s rest =>
            have := hall s mem_cons_self
            simp [partition_point, not_le.mpr this]
        have : r.covers v = false := by
          simp [Range.covers, hpast s hs hsv]
        rw [this, Bool.false_or]
    -- `v` is below everything
    · have hzero : lookup (r :: rest) v = false := by
        simp [lookup, partition_point, hv]
      have hnone : ∀ s ∈ rest, s.covers v = false := by
        intro s hs
        have h1 : v < s.start := by
          have := hne r mem_cons_self
          exact (lt_of_not_ge hv).trans_le (this.trans (hr s hs).le)
        simp [Range.covers, not_le.mpr h1]
      rw [hzero, any_cons]
      symm
      rw [Bool.or_eq_false_iff]
      refine ⟨by simp [Range.covers, hv], ?_⟩
      rw [any_eq_false]
      intro s hs
      simp [hnone s hs]

theorem mergeFrom_nonempty (rest : List (Range α)) (c : Range α)
    (h : ∀ r ∈ c :: rest, r.start ≤ r.last) : ∀ r ∈ mergeFrom next c rest, r.start ≤ r.last := by
  induction rest generalizing c with
  | nil => simpa [mergeFrom] using h
  | cons s rest ih =>
    rw [mergeFrom]
    split
    · refine ih _ (fun r hr => ?_)
      rcases mem_cons.mp hr with rfl | hr
      · exact (h c mem_cons_self).trans (le_max_left _ _)
      · exact h r (mem_cons_of_mem _ (mem_cons_of_mem _ hr))
    · intro r hr
      rcases mem_cons.mp hr with rfl | hr
      · exact h r mem_cons_self
      · exact ih s (fun x hx => h x (mem_cons_of_mem c hx)) r hr

/-- **Merge, then look up**: membership in the union of the ranges. -/
theorem lookup_merge (hnext : ∀ a b : α, a < b → next a ≤ b) (hle : ∀ a : α, a ≤ next a)
    (ranges : List (Range α)) (hsorted : ranges.Pairwise (fun a b => a.start ≤ b.start))
    (hne : ∀ r ∈ ranges, r.start ≤ r.last) (v : α) :
    lookup (merge next ranges) v = ranges.any (·.covers v) := by
  have hne' : ∀ r ∈ merge next ranges, r.start ≤ r.last := by
    cases ranges with
    | nil => simp [merge]
    | cons r rest => exact mergeFrom_nonempty next rest r hne
  rw [lookup_eq _ hne' (merge_apart next hle ranges hsorted),
    merge_covers next hnext ranges hsorted]

end Ranges
