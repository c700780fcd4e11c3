/-
Sums over the entries of a table.

An account of what a table holds is kept beside it: a counter that goes up by what is
put in and down by what is taken out. `total` is the sum the counter stands for, and
the lemmas say how it moves with `insert` and `erase`. A total depends on the lookups
alone, through the entry list up to order.
-/
import DaeNext.LibTable
import Mathlib.Algebra.BigOperators.Group.List.Basic
import Mathlib.Algebra.Ring.Nat
import Mathlib.Data.List.Perm.Subperm
import Mathlib.Data.List.Range

set_option autoImplicit false

namespace Table

open List Std.TreeMap

variable {α β : Type} [Ord α] [Std.TransOrd α] [Std.LawfulEqOrd α] [DecidableEq α]

/-! ## Entry lists up to order -/

omit [DecidableEq α] in
theorem toList_nodup (t : Table α β) : t.toList.Nodup :=
  (toList_keys_distinct t).imp fun h heq => h (congrArg Prod.fst heq)

variable {t : Table α β}

omit [DecidableEq α] in
theorem mem_values {k : α} {v : β} (h : t[k]? = some v) : v ∈ t.values := by
  change v ∈ t.foldr (fun _ w values => w :: values) []
  rw [foldr_eq_foldr_toList, ← map_eq_foldr]
  exact mem_map.mpr ⟨(k, v), mem_toList_iff_getElem?_eq_some.mpr h, rfl⟩

omit [DecidableEq α] in
theorem toList_perm_of_getElem? {s : Table α β} (h : ∀ a : α, s[a]? = t[a]?) :
    s.toList.Perm t.toList := by
  rw [perm_ext_iff_of_nodup (toList_nodup s) (toList_nodup t)]
  rintro ⟨a, v⟩
  rw [mem_toList_iff_getElem?_eq_some, mem_toList_iff_getElem?_eq_some, h a]

variable {k : α}

theorem toList_perm_erase {v : β} (h : t[k]? = some v) :
    t.toList.Perm ((k, v) :: (t.erase k).toList) := by
  have hnew : (k, v) ∉ (t.erase k).toList := by
    rw [mem_toList_iff_getElem?_eq_some, getElem?_erase, if_pos rfl]
    exact nofun
  rw [perm_ext_iff_of_nodup (toList_nodup t) (nodup_cons.mpr ⟨hnew, toList_nodup _⟩)]
  rintro ⟨a, w⟩
  rw [mem_cons, mem_toList_iff_getElem?_eq_some,
    mem_toList_iff_getElem?_eq_some, getElem?_erase, Prod.mk.injEq]
  by_cases hk : a = k
  · rw [if_pos hk, hk, h]
    simp [eq_comm]
  · simp [hk]

/-! ## Totals -/

/-- The sum of a measure over the entries. -/
def total (measure : β → Nat) (t : Table α β) : Nat :=
  (t.toList.map fun entry => measure entry.2).sum

variable (measure : β → Nat)

omit [DecidableEq α] in
theorem total_congr {s : Table α β} (h : ∀ a : α, s[a]? = t[a]?) : total measure s = total measure t :=
  ((toList_perm_of_getElem? h).map _).sum_eq

theorem total_eq_add_erase {v : β} (h : t[k]? = some v) :
    total measure t = measure v + total measure (t.erase k) := by
  rw [total, ((toList_perm_erase h).map _).sum_eq, map_cons, sum_cons]
  rfl

theorem total_insert (t : Table α β) (k : α) (v : β) :
    total measure (t.insert k v) = measure v + total measure (t.erase k) := by
  have hself : (t.insert k v)[k]? = some v := by
    rw [getElem?_insert, if_pos rfl]
  rw [total_eq_add_erase measure hself]
  congr 1
  apply total_congr
  intro a
  rw [getElem?_erase, getElem?_erase, getElem?_insert]
  split_ifs with h
  · rfl
  · rfl

theorem total_erase_of_none (h : t[k]? = none) : total measure (t.erase k) = total measure t := by
  apply total_congr
  intro a
  rw [getElem?_erase]
  split_ifs with hk
  · rw [hk, h]
  · rfl

theorem total_erase_le (t : Table α β) (k : α) : total measure (t.erase k) ≤ total measure t := by
  cases h : t[k]? with
  | none => exact Nat.le_of_eq (total_erase_of_none measure h)
  | some v =>
    rw [total_eq_add_erase measure h]
    exact Nat.le_add_left _ _

theorem total_insert_of_none (h : t[k]? = none) (v : β) :
    total measure (t.insert k v) = measure v + total measure t := by
  rw [total_insert, total_erase_of_none measure h]

omit [Std.TransOrd α] [Std.LawfulEqOrd α] [DecidableEq α] in
@[simp] theorem total_empty : total measure (∅ : Table α β) = 0 := rfl

omit [DecidableEq α] in
theorem total_eq_zero_iff : total measure t = 0 ↔ ∀ (k : α) (v : β), t[k]? = some v → measure v = 0 := by
  rw [total, List.sum_eq_zero_iff_forall_eq_nat]
  constructor
  · intro h k v hget
    exact h _ (mem_map.mpr ⟨(k, v), mem_toList_iff_getElem?_eq_some.mpr hget, rfl⟩)
  · intro h n hmem
    obtain ⟨⟨k, v⟩, hentry, rfl⟩ := mem_map.mp hmem
    exact h k v (mem_toList_iff_getElem?_eq_some.mp hentry)

theorem total_insert_of_eq {v w : β} (h : t[k]? = some v) (heq : measure w = measure v) :
    total measure (t.insert k w) = total measure t := by
  rw [total_insert, total_eq_add_erase measure h, heq]

/-! ## Sizes -/

omit [DecidableEq α] in
theorem size_congr {s : Table α β} (h : ∀ a : α, s[a]? = t[a]?) : s.size = t.size := by
  rw [← length_toList, ← length_toList]
  exact (toList_perm_of_getElem? h).length_eq

omit [Std.LawfulEqOrd α] [DecidableEq α] in
theorem size_insert_of_some {w : β} (h : t[k]? = some w) (v : β) : (t.insert k v).size = t.size := by
  rw [size_insert, contains_eq_isSome_getElem?, h]
  rfl

omit [Std.LawfulEqOrd α] [DecidableEq α] in
theorem size_insert_of_none (h : t[k]? = none) (v : β) : (t.insert k v).size = t.size + 1 := by
  rw [size_insert, contains_eq_isSome_getElem?, h]
  rfl

omit [DecidableEq α] in
/-- A table whose keys are numbered below `n` is full when every number is taken. -/
theorem size_eq_iff_forall_lt {n : Nat} (number : α → Nat) (hinj : Function.Injective number)
    (hlt : ∀ k v, t[k]? = some v → number k < n) :
    t.size = n ↔ ∀ i < n, ∃ k v, t[k]? = some v ∧ number k = i := by
  have hnodup : (t.toList.map fun entry => number entry.1).Nodup := by
    rw [List.Nodup, pairwise_map]
    exact (toList_keys_distinct t).imp fun h heq => h (hinj heq)
  have hsub : (t.toList.map fun entry => number entry.1) ⊆ List.range n := by
    intro i hi
    obtain ⟨⟨k, v⟩, hmem, rfl⟩ := mem_map.mp hi
    exact mem_range.mpr (hlt k v (mem_toList_iff_getElem?_eq_some.mp hmem))
  have hlength : (t.toList.map fun entry => number entry.1).length = t.size := by
    rw [length_map, length_toList]
  have hsubperm := subperm_of_subset hnodup hsub
  constructor
  · intro hsize i hi
    have hperm := hsubperm.perm_of_length_le (by rw [hlength, hsize, length_range])
    obtain ⟨⟨k, v⟩, hmem, heq⟩ := mem_map.mp (hperm.mem_iff.mpr (mem_range.mpr hi))
    exact ⟨k, v, mem_toList_iff_getElem?_eq_some.mp hmem, heq⟩
  · intro hall
    have hback : List.range n ⊆ t.toList.map fun entry => number entry.1 := by
      intro i hi
      obtain ⟨k, v, hget, heq⟩ := hall i (mem_range.mp hi)
      exact mem_map.mpr ⟨(k, v), mem_toList_iff_getElem?_eq_some.mpr hget, heq⟩
    have hle := hsubperm.length_le
    have hge := (subperm_of_subset nodup_range hback).length_le
    rw [hlength, length_range] at hle hge
    exact Nat.le_antisymm hle hge

end Table
