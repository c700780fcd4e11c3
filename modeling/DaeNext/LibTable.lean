/-
Finite maps by their lookups.

`Std.TreeMap` serves for the hash maps and B-tree maps of the sources. Proofs about
them go by lookups alone: what a loop of writes leaves under a key. `write` is that
loop for entries that either set their key or remove it; if all entries for a key
ask for the same, that is what the key has afterwards, whatever their order.
-/
import Mathlib.Data.List.Nodup
import Std.Data.TreeMap

set_option autoImplicit false

abbrev Table (α β : Type) [Ord α] := Std.TreeMap α β compare

namespace Table

open List Std.TreeMap

variable {α β γ : Type} [Ord α] [Std.TransOrd α] [Std.LawfulEqOrd α] [DecidableEq α]

omit [Std.LawfulEqOrd α] [DecidableEq α] in
theorem empty_ne_some {k : α} {v : β} : (∅ : Table α β)[k]? ≠ some v := by
  rw [getElem?_emptyc]
  exact nofun

/-- No key has been given out at or above `n`. -/
theorem getElem?_eq_none_of_lt {t : Table Nat β} {n : Nat} (h : ∀ (k : Nat) v, t[k]? = some v → k < n) :
    t[n]? = none := by
  cases hget : t[n]? with
  | none => rfl
  | some v => exact absurd (h n v hget) (Nat.lt_irrefl n)

variable (t : Table α β)

theorem getElem?_insert (k a : α) (v : β) : (t.insert k v)[a]? = if a = k then some v else t[a]? := by
  rw [Std.TreeMap.getElem?_insert]
  simp only [Std.LawfulEqOrd.compare_eq_iff_eq, @eq_comm _ a k]

theorem getElem?_insert_cases {t : Table α β} {k a : α} {v w : β} (h : (t.insert k v)[a]? = some w) :
    a = k ∧ v = w ∨ a ≠ k ∧ t[a]? = some w := by
  rw [getElem?_insert] at h
  split_ifs at h with hk
  · exact .inl ⟨hk, Option.some.inj h⟩
  · exact .inr ⟨hk, h⟩

variable {t} in
theorem forall_insert {k : α} {v : β} {P : α → β → Prop} (hnew : P k v)
    (hold : ∀ (a : α) (w : β), t[a]? = some w → P a w) (a : α) (w : β)
    (h : (t.insert k v)[a]? = some w) : P a w := by
  obtain ⟨rfl, rfl⟩ | ⟨_, h⟩ := getElem?_insert_cases h
  · exact hnew
  · exact hold a w h

theorem getElem?_erase (k a : α) : (t.erase k)[a]? = if a = k then none else t[a]? := by
  rw [Std.TreeMap.getElem?_erase]
  simp only [Std.LawfulEqOrd.compare_eq_iff_eq, @eq_comm _ a k]

variable {t} in
theorem getElem?_of_erase {k a : α} {w : β} (h : (t.erase k)[a]? = some w) : t[a]? = some w := by
  rw [getElem?_erase] at h
  split_ifs at h
  exact h

theorem getElem?_modify (k a : α) (f : β → β) :
    (t.modify k f)[a]? = if a = k then (t[a]?).map f else t[a]? := by
  rw [Std.TreeMap.getElem?_modify]
  simp only [Std.LawfulEqOrd.compare_eq_iff_eq]
  by_cases h : k = a
  · rw [if_pos h, if_pos h.symm, h]
  · rw [if_neg h, if_neg (fun heq => h heq.symm)]

omit [DecidableEq α] in
theorem getElem?_filter (f : α → β → Bool) (k : α) : (t.filter f)[k]? = (t[k]?).filter (f k) := by
  apply Option.ext
  intro v
  rw [← mem_toList_iff_getElem?_eq_some, toList_filter, mem_filter,
    mem_toList_iff_getElem?_eq_some, Option.filter_eq_some_iff]

omit [DecidableEq α] in
theorem toList_keys_distinct : t.toList.Pairwise fun a b => a.1 ≠ b.1 := by
  refine (distinct_keys_toList (t := t)).imp fun h heq => h ?_
  rw [heq]
  exact Std.ReflCmp.compare_self

omit [Std.LawfulEqOrd α] [DecidableEq α] in
theorem isEmpty_iff : t.isEmpty = true ↔ ∀ k : α, t[k]? = none := by
  rw [isEmpty_iff_forall_not_mem]
  refine forall_congr' fun k => ?_
  rw [mem_iff_isSome_getElem?, Bool.not_eq_true, Option.isSome_eq_false_iff,
    Option.isNone_iff_eq_none]

omit [Std.LawfulEqOrd α] [DecidableEq α] in
theorem size_erase_lt {t : Table α β} {k : α} (h : k ∈ t) : (t.erase k).size < t.size := by
  have hpos : t.size ≠ 0 := by
    intro hzero
    have hempty : t.isEmpty = true := by
      rw [isEmpty_eq_size_eq_zero, hzero]
      rfl
    exact isEmpty_iff_forall_not_mem.mp hempty k h
  rw [size_erase, if_pos (Std.TreeMap.mem_iff_contains.mp h)]
  omega

/-- Write entries one after the other; an entry without a value removes its key. -/
def write (t : Table α β) (entries : List (α × Option β)) : Table α β :=
  entries.foldl (fun t entry =>
    match entry.2 with
    | some v => t.insert entry.1 v
    | none => t.erase entry.1) t

omit [Std.TransOrd α] [Std.LawfulEqOrd α] [DecidableEq α] in
theorem getElem?_write_cons (k a : α) (v : Option β) (entries : List (α × Option β)) :
    (write t ((k, v) :: entries))[a]?
      = (write (match v with | some v => t.insert k v | none => t.erase k) entries)[a]? := rfl

theorem getElem?_write_of_not_mem {t : Table α β} {k : α} {entries : List (α × Option β)}
    (h : ∀ entry ∈ entries, entry.1 ≠ k) : (write t entries)[k]? = t[k]? := by
  induction entries generalizing t with
  | nil => rfl
  | cons entry entries ih =>
    have hne : k ≠ entry.1 := fun heq => h entry mem_cons_self heq.symm
    obtain ⟨a, _ | v⟩ := entry
    · rw [getElem?_write_cons, ih (fun e he => h e (mem_cons_of_mem _ he)), getElem?_erase,
        if_neg hne]
    · rw [getElem?_write_cons, ih (fun e he => h e (mem_cons_of_mem _ he)), getElem?_insert,
        if_neg hne]

/-- What all entries of a key ask for. -/
theorem getElem?_write_of_mem {t : Table α β} {k : α} {v : Option β}
    {entries : List (α × Option β)} (hmem : ∃ entry ∈ entries, entry.1 = k)
    (h : ∀ entry ∈ entries, entry.1 = k → entry.2 = v) : (write t entries)[k]? = v := by
  induction entries generalizing t with
  | nil => simp at hmem
  | cons entry entries ih =>
    by_cases hlater : ∃ e ∈ entries, e.1 = k
    · exact ih hlater (fun e he => h e (mem_cons_of_mem _ he))
    · -- this is the last entry of the key
      obtain ⟨e, he, heq⟩ := hmem
      obtain rfl : e = entry := by
        rcases mem_cons.mp he with rfl | he
        · rfl
        · exact absurd ⟨e, he, heq⟩ hlater
      have hv := h e mem_cons_self heq
      have hrest : ∀ x ∈ entries, x.1 ≠ k := fun x hx hk => hlater ⟨x, hx, hk⟩
      obtain ⟨a, _ | b⟩ := e
      · rw [getElem?_write_cons, getElem?_write_of_not_mem hrest, getElem?_erase, if_pos heq.symm]
        exact hv
      · rw [getElem?_write_cons, getElem?_write_of_not_mem hrest, getElem?_insert, if_pos heq.symm]
        exact hv

/-- The entries of a table as writes: under its keys what `f` makes of them. -/
theorem getElem?_write_toList (s : Table α γ) (f : γ → Option β) (k : α) :
    (write t (s.toList.map fun entry => (entry.1, f entry.2)))[k]?
      = match s[k]? with
        | some v => f v
        | none => t[k]? := by
  have hentry : ∀ entry ∈ s.toList.map (fun entry => (entry.1, f entry.2)), entry.1 = k →
      ∃ v, s[k]? = some v ∧ entry.2 = f v := by
    intro entry hmem heq
    obtain ⟨⟨a, v⟩, hav, rfl⟩ := mem_map.mp hmem
    exact ⟨v, heq ▸ mem_toList_iff_getElem?_eq_some.mp hav, rfl⟩
  cases hget : s[k]? with
  | some v =>
    refine getElem?_write_of_mem ⟨(k, f v), ?_, rfl⟩ fun entry hmem heq => ?_
    · exact mem_map.mpr ⟨(k, v), mem_toList_iff_getElem?_eq_some.mpr hget, rfl⟩
    · obtain ⟨w, hw, hval⟩ := hentry entry hmem heq
      rw [hval, Option.some.inj (hget.symm.trans hw)]
  | none =>
    refine getElem?_write_of_not_mem fun entry hmem heq => ?_
    obtain ⟨w, hw, -⟩ := hentry entry hmem heq
    rw [hget] at hw
    cases hw

/-- Writes under distinct keys all take. -/
theorem getElem?_write_map {δ : Type} {items : List δ} (key : δ → α) (value : δ → β)
    (hkeys : (items.map key).Nodup) {item : δ} (hitem : item ∈ items) :
    (write t (items.map fun item => (key item, some (value item))))[key item]? = some (value item) := by
  refine getElem?_write_of_mem ⟨_, mem_map.mpr ⟨item, hitem, rfl⟩, rfl⟩ fun entry hmem heq => ?_
  obtain ⟨other, hother, rfl⟩ := mem_map.mp hmem
  rw [inj_on_of_nodup_map hkeys hother hitem heq]

end Table
