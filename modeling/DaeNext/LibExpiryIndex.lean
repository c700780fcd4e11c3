/-
A map of entries that expire beside an ordered index of their deadlines.

The index is exact when it holds the deadline of every entry of the map and nothing else.
Every operation keeps it exact, and on an exact index the first deadline is that of an entry
that expires first; so a sweep can take deadlines from the front until one lies in the
future.
-/
import DaeNext.LibExpiry

set_option autoImplicit false

namespace Expiring

open Option Std.TreeMap

/-- An element of the index: when the entry under `key` expires. -/
structure Deadline (κ : Type) where
  deadline : Int
  key : κ
  deriving DecidableEq, Repr

section Order

variable {κ : Type} [Ord κ]

/-- By deadline, and by key among equal deadlines. -/
instance : Ord (Deadline κ) :=
  ⟨compareLex (compareOn Deadline.deadline) (compareOn Deadline.key)⟩

theorem compare_deadline (a b : Deadline κ) :
    compare a b = (compare a.deadline b.deadline).then (compare a.key b.key) := rfl

instance [Std.TransOrd κ] : Std.TransOrd (Deadline κ) :=
  inferInstanceAs (Std.TransCmp (compareLex (compareOn Deadline.deadline) (compareOn Deadline.key)))

instance [Std.LawfulEqOrd κ] : Std.LawfulEqOrd (Deadline κ) where
  compare_self {a} := by
    rw [compare_deadline, Std.ReflOrd.compare_self, Std.ReflOrd.compare_self]
    rfl
  eq_of_compare {a b} h := by
    rw [compare_deadline, Ordering.then_eq_eq] at h
    obtain ⟨d, k⟩ := a
    obtain ⟨d', k'⟩ := b
    obtain rfl : d = d' := Std.LawfulEqOrd.eq_of_compare h.1
    obtain rfl : k = k' := Std.LawfulEqOrd.eq_of_compare h.2
    rfl

theorem deadline_le_of_isLE {a b : Deadline κ} (h : (compare a b).isLE = true) :
    a.deadline ≤ b.deadline := by
  rw [compare_deadline] at h
  by_contra hgt
  rw [Int.not_le, ← compare_gt_iff_gt] at hgt
  rw [hgt] at h
  cases h

end Order

structure Index (κ ε : Type) [Ord κ] where
  entries : Table κ ε
  deadlines : Table (Deadline κ) Unit

namespace Index

variable {κ ε : Type} [Ord κ]

def get (index : Index κ ε) (k : κ) : Option ε := index.entries[k]?

def first (index : Index κ ε) : Option (Deadline κ) := index.deadlines.minKey?

/-- Each deadline is that of an entry, and each entry has its deadline. -/
def Exact (expiry : ε → Int) (index : Index κ ε) : Prop :=
  ∀ d : Deadline κ, d ∈ index.deadlines ↔ ∃ e, index.get d.key = some e ∧ expiry e = d.deadline

/-- Put an entry, with its deadline in place of the old one. -/
def insert (expiry : ε → Int) (index : Index κ ε) (k : κ) (e : ε) : Index κ ε :=
  let deadlines := match index.entries[k]? with
    | some old => index.deadlines.erase ⟨expiry old, k⟩
    | none => index.deadlines
  { entries := index.entries.insert k e, deadlines := deadlines.insert ⟨expiry e, k⟩ () }

/-- Remove the entry under a key together with its deadline. -/
def remove (expiry : ε → Int) (index : Index κ ε) (k : κ) : Option ε × Index κ ε :=
  match index.entries[k]? with
  | some e => (some e, { entries := index.entries.erase k,
                         deadlines := index.deadlines.erase ⟨expiry e, k⟩ })
  | none => (none, index)

/-- The index of the deadlines of all entries, built anew. -/
def rebuild (expiry : ε → Int) (index : Index κ ε) : Index κ ε :=
  { index with
    deadlines := Std.TreeMap.ofList (index.entries.toList.map fun p => (⟨expiry p.2, p.1⟩, ())) _ }

/-- The index is visibly out of date: of another size than the map, or its first deadline is
not that of the entry under its key. -/
def is_stale (expiry : ε → Int) (index : Index κ ε) : Bool :=
  index.deadlines.size != index.entries.size ||
    index.first.any fun d => !(index.entries[d.key]?.any fun e => expiry e == d.deadline)

/-- The key of an entry that expires first, by an index that is rebuilt when it is stale. -/
def oldest (expiry : ε → Int) (index : Index κ ε) : Option κ × Index κ ε :=
  let index := if index.is_stale expiry then index.rebuild expiry else index
  (index.first.map Deadline.key, index)

variable {index : Index κ ε} {k : κ}

theorem remove_eq (expiry : ε → Int) {e : ε} (hk : index.get k = some e) :
    index.remove expiry k = (some e, ⟨index.entries.erase k, index.deadlines.erase ⟨expiry e, k⟩⟩) := by
  rw [get] at hk
  rw [remove, hk]

theorem remove_none (expiry : ε → Int) (hk : index.get k = none) :
    index.remove expiry k = (none, index) := by
  rw [get] at hk
  rw [remove, hk]

/-! ### Exactness -/

variable [Std.TransOrd κ] {expiry : ε → Int}

theorem exact_empty : Exact expiry (⟨{}, {}⟩ : Index κ ε) := by
  intro d
  constructor
  · intro h
    exact absurd h not_mem_emptyc
  · rintro ⟨e, he, -⟩
    cases he

theorem Exact.first_none (h : index.Exact expiry) (hd : index.first = none) (k : κ) :
    index.get k = none := by
  rw [first, minKey?_eq_none_iff, isEmpty_iff_forall_not_mem] at hd
  cases hk : index.get k with
  | none => rfl
  | some e => exact absurd ((h ⟨expiry e, k⟩).mpr ⟨e, hk, rfl⟩) (hd _)

variable [Std.LawfulEqOrd κ]

theorem mem_insert_deadline (t : Table (Deadline κ) Unit) (d a : Deadline κ) :
    a ∈ t.insert d () ↔ a = d ∨ a ∈ t := by
  rw [mem_insert, Std.LawfulEqOrd.compare_eq_iff_eq, @eq_comm _ a d]

theorem mem_erase_deadline (t : Table (Deadline κ) Unit) (d a : Deadline κ) :
    a ∈ t.erase d ↔ a ≠ d ∧ a ∈ t := by
  rw [mem_erase, ne_eq, Std.LawfulEqOrd.compare_eq_iff_eq, ne_eq, @eq_comm _ a d]

/-- Without the deadline of `k`, an exact index holds the deadlines of the other keys. -/
theorem Exact.mem_without (h : index.Exact expiry) (k : κ) (d : Deadline κ) :
    (d ∈ match index.entries[k]? with
      | some old => index.deadlines.erase ⟨expiry old, k⟩
      | none => index.deadlines) ↔ d.key ≠ k ∧ d ∈ index.deadlines := by
  cases hk : index.entries[k]? with
  | none =>
    refine ⟨fun hd => ⟨?_, hd⟩, And.right⟩
    intro heq
    obtain ⟨e, he, -⟩ := (h d).mp hd
    rw [get, heq, hk] at he
    cases he
  | some old =>
    rw [mem_erase_deadline]
    refine and_congr_left fun hd => not_congr ?_
    constructor
    · intro heq
      rw [heq]
    · intro heq
      -- the deadline under `k` is that of the entry under `k`
      obtain ⟨e, he, hexp⟩ := (h d).mp hd
      rw [get, heq, hk] at he
      cases he
      obtain ⟨t, a⟩ := d
      obtain rfl : a = k := heq
      rw [hexp]

/-! ### The first deadline -/

/-- The first deadline of an exact index is that of an entry that expires first. -/
theorem Exact.first_some (h : index.Exact expiry) {d : Deadline κ} (hd : index.first = some d) :
    ∃ e, index.get d.key = some e ∧ expiry e = d.deadline ∧
      ∀ k' e', index.get k' = some e' → d.deadline ≤ expiry e' := by
  obtain ⟨hmem, hmin⟩ := Std.TreeMap.minKey?_eq_some_iff_mem_and_forall.mp hd
  obtain ⟨e, he, hexp⟩ := (h d).mp hmem
  refine ⟨e, he, hexp, ?_⟩
  intro k' e' hk'
  exact deadline_le_of_isLE (hmin ⟨expiry e', k'⟩ ((h _).mpr ⟨e', hk', rfl⟩))

/-! ### Insertion and removal -/

variable [DecidableEq κ]

theorem get_insert (index : Index κ ε) (k : κ) (e : ε) :
    (index.insert expiry k e).get = Function.update index.get k (some e) := by
  funext a
  rw [get, insert, Table.getElem?_insert, Function.update_apply]
  rfl

theorem Exact.insert (h : index.Exact expiry) (k : κ) (e : ε) :
    (index.insert expiry k e).Exact expiry := by
  intro d
  rw [get_insert, Function.update_apply, Index.insert, mem_insert_deadline, h.mem_without]
  by_cases hd : d.key = k
  · rw [if_pos hd]
    constructor
    · rintro (rfl | ⟨hne, -⟩)
      · exact ⟨e, rfl, rfl⟩
      · exact absurd hd hne
    · rintro ⟨e', he', hexp⟩
      obtain rfl := some.inj he'
      obtain ⟨t, a⟩ := d
      obtain rfl : a = k := hd
      left
      rw [hexp]
  · rw [if_neg hd, ← h d]
    constructor
    · rintro (rfl | ⟨-, hmem⟩)
      · exact absurd rfl hd
      · exact hmem
    · intro hmem
      exact Or.inr ⟨hd, hmem⟩

theorem Exact.remove (h : index.Exact expiry) {e : ε} (hk : index.get k = some e) :
    (index.remove expiry k).2.Exact expiry ∧
      (index.remove expiry k).2.get = Function.update index.get k none := by
  have hmem := h.mem_without k
  have hget : ∀ a, (index.remove expiry k).2.get a = Function.update index.get k none a := by
    intro a
    rw [remove_eq expiry hk, get, Table.getElem?_erase, Function.update_apply]
    rfl
  refine ⟨?_, funext hget⟩
  intro d
  rw [get] at hk
  rw [hk] at hmem
  rw [hget, remove_eq expiry hk, hmem d, h d, Function.update_apply]
  by_cases hd : d.key = k
  · rw [if_pos hd]
    constructor
    · rintro ⟨hne, -⟩
      exact absurd hd hne
    · rintro ⟨e', he', -⟩
      cases he'
  · rw [if_neg hd]
    exact ⟨And.right, fun hex => ⟨hd, hex⟩⟩

omit [Std.LawfulEqOrd κ] [DecidableEq κ] in
theorem size_remove_lt (expiry : ε → Int) {e : ε} (hk : index.get k = some e) :
    (index.remove expiry k).2.entries.size < index.entries.size := by
  rw [remove_eq expiry hk]
  apply Table.size_erase_lt
  rw [get] at hk
  rw [mem_iff_isSome_getElem?, hk]
  rfl

/-! ### The oldest entry -/

theorem exact_rebuild (index : Index κ ε) : (index.rebuild expiry).Exact expiry := by
  intro d
  rw [rebuild, mem_ofList, List.map_map, List.contains_iff_mem, List.mem_map]
  constructor
  · rintro ⟨p, hp, rfl⟩
    exact ⟨p.2, mem_toList_iff_getElem?_eq_some.mp hp, rfl⟩
  · rintro ⟨e, he, hexp⟩
    refine ⟨(d.key, e), mem_toList_iff_getElem?_eq_some.mpr he, ?_⟩
    rw [Function.comp_apply, hexp]

/-- The key found is that of an entry, whether or not the index was exact. -/
theorem oldest_stored (h : (index.oldest expiry).1 = some k) :
    ∃ e, (index.oldest expiry).2.get k = some e := by
  rw [oldest] at h ⊢
  obtain ⟨d, hd, rfl⟩ := map_eq_some_iff.mp h
  by_cases hstale : index.is_stale expiry = true
  · rw [if_pos hstale] at hd ⊢
    obtain ⟨e, he, -⟩ := (exact_rebuild index).first_some hd
    exact ⟨e, he⟩
  · rw [if_neg hstale] at hd ⊢
    rw [is_stale, hd, any_some, Bool.or_eq_true, not_or, Bool.not_eq_true', Bool.not_eq_false,
      any_eq_true] at hstale
    obtain ⟨e, he, -⟩ := hstale.2
    exact ⟨e, he⟩

/-- The key found is that of an entry that expires first, whether or not the index was exact
before. -/
theorem oldest_spec (h : index.Exact expiry) :
    (index.oldest expiry).2.Exact expiry ∧ (index.oldest expiry).2.get = index.get ∧
      ∀ k, (index.oldest expiry).1 = some k →
        ∃ e, index.get k = some e ∧ ∀ k' e', index.get k' = some e' → expiry e ≤ expiry e' := by
  have hexact : (if index.is_stale expiry then index.rebuild expiry else index).Exact expiry := by
    split_ifs
    · exact exact_rebuild index
    · exact h
  have hget : (if index.is_stale expiry then index.rebuild expiry else index).get = index.get := by
    split_ifs <;> rfl
  refine ⟨hexact, hget, ?_⟩
  intro k hk
  obtain ⟨d, hd, rfl⟩ := map_eq_some_iff.mp hk
  obtain ⟨e, he, hexp, hmin⟩ := hexact.first_some hd
  rw [hget] at he hmin
  exact ⟨e, he, fun k' e' hk' => hexp ▸ hmin k' e' hk'⟩

/-! ### Sweeping by the index -/

structure SweepState (κ ε : Type) [Ord κ] where
  index : Index κ ε
  examined : Nat
  removed : List (κ × ε)

/-- One turn: the first deadline goes, and the entry under its key if that is its deadline. -/
def sweep_step (expiry : ε → Int) (now : Int) (limit : Option Nat) (s : SweepState κ ε) :
    SweepState κ ε ⊕ (List (κ × ε) × Index κ ε) :=
  match s.index.first with
  | none => .inr (s.removed, s.index)
  | some d =>
    if limit.all (s.examined < ·) && d.deadline ≤ now then
      let deadlines := s.index.deadlines.erase d
      match s.index.entries[d.key]? with
      | some e =>
        if expiry e = d.deadline then
          .inl ⟨⟨s.index.entries.erase d.key, deadlines⟩, s.examined + 1, s.removed ++ [(d.key, e)]⟩
        else .inl ⟨⟨s.index.entries, deadlines⟩, s.examined + 1, s.removed⟩
      | none => .inl ⟨⟨s.index.entries, deadlines⟩, s.examined + 1, s.removed⟩
    else .inr (s.removed, s.index)

omit [Std.TransOrd κ] [Std.LawfulEqOrd κ] [DecidableEq κ] in
/-- What one turn can do: leave, remove an entry, or drop a deadline that is no entry's. -/
theorem sweep_step_cases (expiry : ε → Int) (now : Int) (limit : Option Nat) (s : SweepState κ ε) :
    ((∀ d, s.index.first = some d → (∀ n ∈ limit, s.examined < n) → now < d.deadline) ∧
        sweep_step expiry now limit s = .inr (s.removed, s.index)) ∨
      ∃ d, s.index.first = some d ∧ (∀ n ∈ limit, s.examined < n) ∧ d.deadline ≤ now ∧
        ((∃ e, s.index.get d.key = some e ∧ expiry e = d.deadline ∧
            sweep_step expiry now limit s
              = .inl ⟨(s.index.remove expiry d.key).2, s.examined + 1, s.removed ++ [(d.key, e)]⟩) ∨
          (¬∃ e, s.index.get d.key = some e ∧ expiry e = d.deadline) ∧
            sweep_step expiry now limit s
              = .inl ⟨⟨s.index.entries, s.index.deadlines.erase d⟩, s.examined + 1, s.removed⟩) := by
  rw [sweep_step]
  cases hd : s.index.first with
  | none => exact Or.inl ⟨nofun, rfl⟩
  | some d =>
    dsimp only
    by_cases hgo : (limit.all (s.examined < ·) && decide (d.deadline ≤ now)) = true
    · rw [if_pos hgo]
      rw [Bool.and_eq_true, all_eq_true, decide_eq_true_eq] at hgo
      refine Or.inr ⟨d, rfl, fun n hn => of_decide_eq_true (hgo.1 n hn), hgo.2, ?_⟩
      cases hk : s.index.entries[d.key]? with
      | none =>
        right
        refine ⟨?_, rfl⟩
        rintro ⟨e, he, -⟩
        rw [get, hk] at he
        cases he
      | some e =>
        dsimp only
        by_cases hexp : expiry e = d.deadline
        · left
          refine ⟨e, hk, hexp, ?_⟩
          rw [if_pos hexp, remove_eq expiry hk, hexp]
        · right
          refine ⟨?_, if_neg hexp⟩
          rintro ⟨e', he', hexp'⟩
          rw [get, hk] at he'
          exact hexp (some.inj he' ▸ hexp')
    · refine Or.inl ⟨?_, if_neg hgo⟩
      intro d' hd' hroom
      obtain rfl := some.inj hd'
      by_contra hle
      apply hgo
      rw [Bool.and_eq_true, all_eq_true, decide_eq_true_eq]
      exact ⟨fun n hn => decide_eq_true (hroom n hn), Int.not_lt.mp hle⟩

def sweep_loop (expiry : ε → Int) (now : Int) (limit : Option Nat) :
    Loop (SweepState κ ε) (List (κ × ε) × Index κ ε) where
  step := sweep_step expiry now limit
  measure s := s.index.deadlines.size
  decreases s s' h := by
    rcases sweep_step_cases expiry now limit s with ⟨-, hs⟩ | ⟨d, hd, -, -, hcase⟩
    · cases h.symm.trans hs
    · have hlt := Table.size_erase_lt (Std.TreeMap.minKey?_eq_some_iff_mem_and_forall.mp hd).1
      rcases hcase with ⟨e, he, hexp, hs⟩ | ⟨-, hs⟩
      · obtain rfl := Sum.inl.inj (h.symm.trans hs)
        rw [remove_eq expiry he, hexp]
        exact hlt
      · obtain rfl := Sum.inl.inj (h.symm.trans hs)
        exact hlt

/-- Remove expired entries by their deadlines, at most `limit` deadlines of them: the entries
removed and the index left. -/
def sweep (expiry : ε → Int) (now : Int) (limit : Option Nat) (index : Index κ ε) :
    List (κ × ε) × Index κ ε :=
  (sweep_loop expiry now limit).run { index := index, examined := 0, removed := [] }

/-- While an exact index is swept, each deadline examined was that of an entry removed. -/
structure SweepInv (expiry : ε → Int) (now : Int) (limit : Option Nat) (index : Index κ ε)
    (s : SweepState κ ε) : Prop where
  is_exact : s.index.Exact expiry
  sweeping : Sweeping expiry now limit index.get s.index.get s.removed
  examined : s.examined = s.removed.length

theorem sweep_spec (h : index.Exact expiry) (now : Int) (limit : Option Nat) :
    (sweep expiry now limit index).2.Exact expiry ∧
      Swept expiry now limit index.get (sweep expiry now limit index).2.get
        (sweep expiry now limit index).1 := by
  refine @Loop.run_invariant _ _ (sweep_loop expiry now limit) (SweepInv expiry now limit index)
    (fun r => r.2.Exact expiry ∧ Swept expiry now limit index.get r.2.get r.1) ?_ ?_ _ ?_
  · rintro s s' ⟨hexact, hsweep, hlen⟩ hstep
    rcases sweep_step_cases expiry now limit s with ⟨-, hs⟩ | ⟨d, hd, hroom, hnow, hcase⟩
    · cases hstep.symm.trans hs
    · rcases hcase with ⟨e, he, hexp, hs⟩ | ⟨hstale, -⟩
      · obtain rfl := Sum.inl.inj (hstep.symm.trans hs)
        obtain ⟨hexact', hget⟩ := hexact.remove he
        refine ⟨hexact', ?_, ?_⟩
        · rw [hget]
          exact hsweep.snoc he (by omega) (hlen ▸ hroom)
        · rw [List.length_append, List.length_singleton, hlen]
      · -- no deadline of an exact index is stale
        obtain ⟨e, he, hexp, -⟩ := hexact.first_some hd
        exact absurd ⟨e, he, hexp⟩ hstale
  · rintro s r ⟨hexact, hsweep, hlen⟩ hstep
    rcases sweep_step_cases expiry now limit s with ⟨hend, hs⟩ | ⟨d, -, -, -, ⟨e, -, -, hs⟩ | ⟨-, hs⟩⟩
    · obtain rfl := Sum.inr.inj (hstep.symm.trans hs)
      refine ⟨hexact, hsweep, ?_⟩
      intro hroom k e hk
      cases hd : s.index.first with
      | none =>
        rw [hexact.first_none hd k] at hk
        cases hk
      | some d =>
        obtain ⟨-, -, -, hmin⟩ := hexact.first_some hd
        exact Int.lt_of_lt_of_le (hend d hd (hlen ▸ hroom)) (hmin k e hk)
    · cases hstep.symm.trans hs
    · cases hstep.symm.trans hs
  · exact ⟨h, Sweeping.nil _ _ _ _, rfl⟩

end Index

end Expiring
