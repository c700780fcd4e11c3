/-
Stores of entries that expire, seen through their lookups.

A store keeps entries under distinct keys and every entry has an expiry time. There are two
representations: a vector of pairs that is searched from the front, and a map beside an
ordered index of the deadlines. What an operation does to a store is said by the lookups
before and after it, so both representations meet the same specifications: `Removed` for
any removal, `Swept` for a sweep of what has expired, `Evicted` for the removal of what
expires first.
-/
import DaeNext.LibLoop
import DaeNext.LibTable
import DaeNext.LibVec
import Mathlib.Data.List.Perm.Subperm

set_option autoImplicit false

namespace Expiring

open Vec List Function

variable {κ ε : Type} [DecidableEq κ]

/-! ## Specifications -/

/-- The lookups that are left when the entries of `removed` are gone. -/
def without (get : κ → Option ε) (removed : List (κ × ε)) : κ → Option ε :=
  fun k => if k ∈ removed.map Prod.fst then none else get k

/-- The entries of `removed` were in the store, each under a key of its own, and exactly they
are gone. -/
structure Removed (get get' : κ → Option ε) (removed : List (κ × ε)) : Prop where
  distinct : (removed.map Prod.fst).Nodup
  stored : ∀ k e, (k, e) ∈ removed → get k = some e
  rest : get' = without get removed

/-- A sweep at `now` under way: only expired entries go, at most `limit` of them. -/
structure Sweeping (expiry : ε → Int) (now : Int) (limit : Option Nat) (get get' : κ → Option ε)
    (removed : List (κ × ε)) : Prop extends Removed get get' removed where
  expired : ∀ k e, (k, e) ∈ removed → expiry e ≤ now
  within : ∀ n ∈ limit, removed.length ≤ n

/-- A finished sweep: unless the limit was reached no expired entry is left. -/
structure Swept (expiry : ε → Int) (now : Int) (limit : Option Nat) (get get' : κ → Option ε)
    (removed : List (κ × ε)) : Prop extends Sweeping expiry now limit get get' removed where
  exhausted : (∀ n ∈ limit, removed.length < n) → ∀ k e, get' k = some e → now < expiry e

/-- Evictions one after the other, each of an entry that expired first among those left. -/
structure Evicted (expiry : ε → Int) (get get' : κ → Option ε) (evicted : List (κ × ε)) : Prop
    extends Removed get get' evicted where
  ordered : evicted.Pairwise fun a b => expiry a.2 ≤ expiry b.2
  minimal : ∀ k e, (k, e) ∈ evicted → ∀ k' e', get' k' = some e' → expiry e ≤ expiry e'

theorem Removed.nil (get : κ → Option ε) : Removed get get [] where
  distinct := nodup_nil
  stored := nofun
  rest := by
    funext k
    rw [without, map_nil, if_neg not_mem_nil]

variable {get' : κ → Option ε} {removed : List (κ × ε)} {k : κ} {e : ε}

theorem Removed.snoc {get : κ → Option ε} (h : Removed get get' removed) (hk : get' k = some e) :
    Removed get (Function.update get' k none) (removed ++ [(k, e)]) := by
  have hnew : k ∉ removed.map Prod.fst := by
    intro hmem
    rw [h.rest, without, if_pos hmem] at hk
    cases hk
  refine ⟨?_, ?_, ?_⟩
  · rw [map_append, map_singleton, ← concat_eq_append]
    exact h.distinct.concat hnew
  · intro a b hab
    rcases mem_append.mp hab with hab | hab
    · exact h.stored a b hab
    · obtain ⟨rfl, rfl⟩ := Prod.mk.inj (mem_singleton.mp hab)
      rw [h.rest, without, if_neg hnew] at hk
      exact hk
  · funext a
    have hmem : a ∈ (removed ++ [(k, e)]).map Prod.fst ↔ a ∈ removed.map Prod.fst ∨ a = k := by
      rw [map_append, mem_append, map_singleton, mem_singleton]
    rw [without]
    by_cases ha : a = k
    · rw [ha, update_self, if_pos (ha ▸ hmem.mpr (Or.inr ha))]
    · rw [update_of_ne ha, h.rest, without]
      by_cases hr : a ∈ removed.map Prod.fst
      · rw [if_pos hr, if_pos (hmem.mpr (Or.inl hr))]
      · rw [if_neg hr, if_neg (fun h => (hmem.mp h).elim hr ha)]

theorem Sweeping.nil (expiry : ε → Int) (now : Int) (limit : Option Nat) (get : κ → Option ε) :
    Sweeping expiry now limit get get [] where
  toRemoved := Removed.nil get
  expired := nofun
  within := fun n _ => Nat.zero_le n

variable {expiry : ε → Int} {limit : Option Nat} {now : Int}

theorem Sweeping.snoc {get : κ → Option ε}
    (h : Sweeping expiry now limit get get' removed) (hk : get' k = some e) (hexp : expiry e ≤ now)
    (hroom : ∀ n ∈ limit, removed.length < n) :
    Sweeping expiry now limit get (Function.update get' k none) (removed ++ [(k, e)]) := by
  refine ⟨h.toRemoved.snoc hk, ?_, ?_⟩
  · intro a b hab
    rcases mem_append.mp hab with hab | hab
    · exact h.expired a b hab
    · obtain ⟨rfl, rfl⟩ := Prod.mk.inj (mem_singleton.mp hab)
      exact hexp
  · intro n hn
    rw [length_append, length_singleton]
    exact hroom n hn

/-- The lookups once an entry is put under its key. -/
def put (get : κ → Option ε) (p : κ × ε) : κ → Option ε := Function.update get p.1 (some p.2)

theorem foldl_put_of_not_mem {entries : List (κ × ε)} (get : κ → Option ε)
    (h : k ∉ entries.map Prod.fst) : entries.foldl put get k = get k := by
  induction entries generalizing get with
  | nil => rfl
  | cons p entries ih =>
    rw [map_cons, mem_cons, not_or] at h
    rw [foldl_cons, ih _ h.2, put, update_of_ne h.1]

theorem foldl_put_of_mem {entries : List (κ × ε)} (get : κ → Option ε)
    (hd : (entries.map Prod.fst).Nodup) (h : (k, e) ∈ entries) : entries.foldl put get k = some e := by
  induction entries generalizing get with
  | nil => cases h
  | cons p entries ih =>
    rw [map_cons, nodup_cons] at hd
    rw [foldl_cons]
    rcases mem_cons.mp h with rfl | h
    · rw [foldl_put_of_not_mem _ hd.1, put, update_self]
    · exact ih _ hd.2 h

/-- Putting back what was removed restores the store. -/
theorem Removed.restore {get : κ → Option ε} (h : Removed get get' removed) :
    removed.foldl put get' = get := by
  funext k
  by_cases hmem : k ∈ removed.map Prod.fst
  · obtain ⟨⟨k', e⟩, hp, rfl⟩ := mem_map.mp hmem
    rw [foldl_put_of_mem get' h.distinct hp, h.stored _ e hp]
  · rw [foldl_put_of_not_mem get' hmem, h.rest, without, if_neg hmem]

theorem Evicted.nil (expiry : ε → Int) (get : κ → Option ε) : Evicted expiry get get [] where
  toRemoved := Removed.nil get
  ordered := List.Pairwise.nil
  minimal := nofun

section

variable {get : κ → Option ε}

theorem Evicted.snoc {evicted : List (κ × ε)} (h : Evicted expiry get get' evicted) (hk : get' k = some e)
    (hmin : ∀ k' e', get' k' = some e' → expiry e ≤ expiry e') :
    Evicted expiry get (Function.update get' k none) (evicted ++ [(k, e)]) := by
  have hleft : ∀ k' e', Function.update get' k none k' = some e' → get' k' = some e' := by
    intro k' e' hk'
    by_cases heq : k' = k
    · rw [heq, update_self] at hk'
      cases hk'
    · rwa [update_of_ne heq] at hk'
  refine ⟨h.toRemoved.snoc hk, ?_, ?_⟩
  · rw [pairwise_append]
    refine ⟨h.ordered, pairwise_singleton _ _, ?_⟩
    intro a ha b hb
    rw [mem_singleton.mp hb]
    exact h.minimal a.1 a.2 ha k e hk
  · intro a b hab k' e' hk'
    rcases mem_append.mp hab with hab | hab
    · exact h.minimal a b hab k' e' (hleft k' e' hk')
    · obtain ⟨rfl, rfl⟩ := Prod.mk.inj (mem_singleton.mp hab)
      exact hmin k' e' (hleft k' e' hk')

/-- Removal of an entry whose key `p` accepts, if the store has one. -/
inductive Taken (p : κ → Bool) (get get' : κ → Option ε) : Option (κ × ε) → Prop where
  | absent (hnot : ∀ k e, get k = some e → p k = false) (hget : get' = get) : Taken p get get' none
  | found (k : κ) (e : ε) (hp : p k = true) (hk : get k = some e)
      (hget : get' = Function.update get k none) : Taken p get get' (some (k, e))

theorem update_none_of_get (h : get k = none) : Function.update get k none = get := by
  rw [← h]
  exact update_eq_self k get

theorem Taken.of_key {r : Option (κ × ε)} (h : Taken (· == k) get get' r) :
    r.map Prod.snd = get k ∧ get' = Function.update get k none := by
  cases h with
  | absent hnot hget =>
    have hk : get k = none := by
      cases hk : get k with
      | none => rfl
      | some e => exact absurd (hnot k e hk) (by rw [beq_self_eq_true]; decide)
    rw [update_none_of_get hk, hk]
    exact ⟨rfl, hget⟩
  | found k' e hp hk hget =>
    obtain rfl := beq_iff_eq.mp hp
    exact ⟨hk.symm, hget⟩

theorem Removed.get_eq_some_iff (h : Removed get get' removed) (k : κ) (e : ε) :
    get' k = some e ↔ get k = some e ∧ (k, e) ∉ removed := by
  rw [h.rest, without]
  by_cases hmem : k ∈ removed.map Prod.fst
  · rw [if_pos hmem]
    refine ⟨nofun, fun ⟨hk, hnot⟩ => ?_⟩
    obtain ⟨⟨k', e'⟩, hp, rfl⟩ := mem_map.mp hmem
    have hval := h.stored _ e' hp
    rw [hk] at hval
    exact absurd (Option.some.inj hval ▸ hp) hnot
  · rw [if_neg hmem]
    exact ⟨fun hk => ⟨hk, fun hp => hmem (mem_map_of_mem hp)⟩, And.left⟩

variable {all : List (κ × ε)} (h : Swept expiry now limit get get' removed)
  (hall : ∀ k e, (k, e) ∈ all ↔ get k = some e) (hd : (all.map Prod.fst).Nodup)
  (hroom : ∀ n ∈ limit, (all.filter fun p => expiry p.2 ≤ now).length ≤ n)

include h hall hd hroom

/-- A sweep with room for everything that has expired removes exactly that. -/
theorem Swept.complete :
    removed.Perm (all.filter fun p => expiry p.2 ≤ now) := by
  have hsub : ∀ p ∈ removed, p ∈ all.filter fun p => expiry p.2 ≤ now := by
    intro p hp
    rw [mem_filter]
    exact ⟨(hall p.1 p.2).mpr (h.stored p.1 p.2 hp), decide_eq_true (h.expired p.1 p.2 hp)⟩
  have hsubperm := (List.Nodup.of_map _ h.distinct).subperm hsub
  by_cases hfull : ∀ n ∈ limit, removed.length < n
  · -- nothing expired is left, so the inclusion goes both ways
    refine (perm_ext_iff_of_nodup (List.Nodup.of_map _ h.distinct)
      ((List.Nodup.of_map _ hd).filter _)).mpr fun p => ⟨hsub p, fun hp => ?_⟩
    rw [mem_filter] at hp
    by_contra hnot
    have hkey : p.1 ∉ removed.map Prod.fst := by
      intro hmem
      obtain ⟨q, hq, hkq⟩ := mem_map.mp hmem
      have hval := h.stored q.1 q.2 hq
      rw [hkq, (hall p.1 p.2).mp hp.1] at hval
      exact hnot (by rwa [Prod.ext hkq (Option.some.inj hval).symm] at hq)
    have hlive : now < expiry p.2 := by
      apply h.exhausted hfull p.1
      rw [h.rest, without, if_neg hkey, (hall p.1 p.2).mp hp.1]
    have hdead := of_decide_eq_true hp.2
    omega
  · -- the limit was reached, so as many are gone as had expired
    apply hsubperm.perm_of_length_le
    rw [not_forall] at hfull
    obtain ⟨n, hn⟩ := hfull
    rw [Classical.not_imp, Nat.not_lt] at hn
    exact Nat.le_trans (hroom n hn.1) hn.2

/-- What a sweep with room for everything leaves are the live entries. -/
theorem Swept.left_iff (k : κ) (e : ε) :
    get' k = some e ↔ get k = some e ∧ now < expiry e := by
  rw [h.get_eq_some_iff, (h.complete hall hd hroom).mem_iff, mem_filter, hall, decide_eq_true_eq]
  constructor
  · rintro ⟨hk, hnot⟩
    exact ⟨hk, Int.not_le.mp fun hle => hnot ⟨hk, hle⟩⟩
  · rintro ⟨hk, hlive⟩
    exact ⟨hk, fun hdead => absurd hdead.2 (Int.not_le.mpr hlive)⟩

end

/-! ## Vectors of pairs -/

namespace Pairs

def get (pairs : List (κ × ε)) (k : κ) : Option ε :=
  (pairs.find? fun p => p.1 == k).map Prod.snd

def Distinct (pairs : List (κ × ε)) : Prop := (pairs.map Prod.fst).Nodup

variable {pairs : List (κ × ε)}

theorem get_eq_some_iff (hd : Distinct pairs) : get pairs k = some e ↔ (k, e) ∈ pairs := by
  rw [get, Option.map_eq_some_iff]
  constructor
  · rintro ⟨p, hp, rfl⟩
    have hkey : p.1 = k := by simpa using find?_some hp
    rw [← hkey]
    exact mem_of_find?_eq_some hp
  · intro hmem
    cases hfind : pairs.find? fun p => p.1 == k with
    | none =>
      rw [find?_eq_none] at hfind
      exact absurd (beq_self_eq_true k) (hfind (k, e) hmem)
    | some p =>
      have hkey : p.1 = k := by simpa using find?_some hfind
      have hp := inj_on_of_nodup_map hd (mem_of_find?_eq_some hfind) hmem hkey
      exact ⟨p, rfl, by rw [hp]⟩

theorem get_eq_none_iff : get pairs k = none ↔ k ∉ pairs.map Prod.fst := by
  rw [get, Option.map_eq_none_iff, find?_eq_none, mem_map]
  constructor
  · rintro h ⟨p, hp, rfl⟩
    exact h p hp (beq_self_eq_true _)
  · intro h p hp hkey
    exact h ⟨p, hp, by simpa using hkey⟩

theorem get_of_perm {pairs' : List (κ × ε)} (hd : Distinct pairs) (h : pairs'.Perm pairs) :
    get pairs' = get pairs := by
  have hd' : Distinct pairs' := (h.map Prod.fst).nodup_iff.mpr hd
  funext k
  apply Option.ext
  intro e
  rw [get_eq_some_iff hd', get_eq_some_iff hd, h.mem_iff]

/-- Replace the entry of the first pair with this key, or add a pair at the end. -/
def insert (pairs : List (κ × ε)) (k : κ) (e : ε) : List (κ × ε) :=
  match pairs.findIdx? fun p => p.1 == k with
  | some index => pairs.set index (k, e)
  | none => pairs ++ [(k, e)]

theorem insert_cons (p : κ × ε) (pairs : List (κ × ε)) (k : κ) (e : ε) :
    insert (p :: pairs) k e = if p.1 = k then (k, e) :: pairs else p :: insert pairs k e := by
  rw [insert, findIdx?_cons]
  by_cases h : p.1 = k
  · rw [if_pos (beq_iff_eq.mpr h), if_pos h]
    rfl
  · rw [if_neg (fun hb => h (beq_iff_eq.mp hb)), if_neg h, insert]
    cases pairs.findIdx? fun p => p.1 == k with
    | none | some index => rfl

theorem get_cons (p : κ × ε) (pairs : List (κ × ε)) (k : κ) :
    get (p :: pairs) k = if p.1 = k then some p.2 else get pairs k := by
  rw [get, find?_cons]
  by_cases h : p.1 = k
  · rw [if_pos h, beq_iff_eq.mpr h]
    rfl
  · rw [if_neg h, beq_eq_false_iff_ne.mpr h]
    rfl

theorem get_insert (pairs : List (κ × ε)) (k : κ) (e : ε) :
    get (insert pairs k e) = Function.update (get pairs) k (some e) := by
  funext a
  induction pairs with
  | nil =>
    rw [show insert [] k e = [(k, e)] from rfl, get_cons]
    by_cases h : a = k
    · rw [if_pos h.symm, h, update_self]
    · rw [if_neg (Ne.symm h), update_of_ne h]
  | cons p pairs ih =>
    rw [insert_cons]
    by_cases hp : p.1 = k
    · rw [if_pos hp, get_cons]
      by_cases h : a = k
      · rw [if_pos h.symm, h, update_self]
      · rw [if_neg (Ne.symm h), update_of_ne h, get_cons, if_neg (hp ▸ Ne.symm h)]
    · rw [if_neg hp, get_cons, ih]
      by_cases h : a = k
      · rw [h, update_self, update_self, if_neg hp]
      · rw [update_of_ne h, update_of_ne h, get_cons]

theorem distinct_insert (hd : Distinct pairs) (k : κ) (e : ε) : Distinct (insert pairs k e) := by
  induction pairs with
  | nil => exact nodup_singleton k
  | cons p pairs ih =>
    rw [Distinct, map_cons, nodup_cons] at hd
    rw [insert_cons]
    by_cases hp : p.1 = k
    · rw [if_pos hp, Distinct, map_cons, nodup_cons, ← hp]
      exact hd
    · rw [if_neg hp, Distinct, map_cons, nodup_cons]
      refine ⟨?_, ih hd.2⟩
      rw [← get_eq_none_iff, get_insert, update_of_ne hp, get_eq_none_iff]
      exact hd.1

theorem get_swap_remove (hd : Distinct pairs) {index : Nat} (h : pairs[index]? = some (k, e)) :
    Distinct (swap_remove pairs index) ∧ get pairs k = some e ∧
      get (swap_remove pairs index) = Function.update (get pairs) k none := by
  have hperm := swap_remove_perm h
  have hd' : Distinct ((k, e) :: swap_remove pairs index) :=
    (hperm.map Prod.fst).nodup_iff.mpr hd
  have hget := get_of_perm hd hperm
  rw [Distinct, map_cons, nodup_cons] at hd'
  refine ⟨hd'.2, ?_, ?_⟩
  · rw [← hget, get_cons, if_pos rfl]
  · funext a
    by_cases ha : a = k
    · rw [ha, update_self, get_eq_none_iff]
      exact hd'.1
    · rw [update_of_ne ha, ← hget, get_cons, if_neg (Ne.symm ha)]

/-- Remove the first pair whose key `p` accepts. -/
def take (p : κ → Bool) (pairs : List (κ × ε)) : Option (κ × ε) × List (κ × ε) :=
  match pairs.findIdx? fun q => p q.1 with
  | none => (none, pairs)
  | some index => (pairs[index]?, Vec.swap_remove pairs index)

theorem take_spec (p : κ → Bool) (hd : Distinct pairs) :
    Distinct (take p pairs).2 ∧ Taken p (get pairs) (get (take p pairs).2) (take p pairs).1 := by
  rw [take]
  cases hfind : pairs.findIdx? fun q => p q.1 with
  | none =>
    rw [findIdx?_eq_none_iff] at hfind
    refine ⟨hd, .absent ?_ rfl⟩
    intro k e hk
    exact hfind (k, e) ((get_eq_some_iff hd).mp hk)
  | some index =>
    obtain ⟨hlt, hp, -⟩ := List.findIdx?_eq_some_iff_getElem.mp hfind
    obtain ⟨hd', hk, hget⟩ := get_swap_remove hd (getElem?_eq_getElem hlt)
    dsimp only
    rw [getElem?_eq_getElem hlt]
    exact ⟨hd', .found _ _ hp hk hget⟩

omit [DecidableEq κ] in
theorem take_of_mem (p : κ → Bool) {q : κ × ε} (hq : q ∈ pairs) (hp : p q.1 = true) :
    ∃ r, (take p pairs).1 = some r ∧ (take p pairs).2.length < pairs.length := by
  rw [take]
  cases hfind : pairs.findIdx? fun q => p q.1 with
  | none =>
    rw [findIdx?_eq_none_iff] at hfind
    rw [hfind q hq] at hp
    cases hp
  | some index =>
    obtain ⟨hlt, -, -⟩ := List.findIdx?_eq_some_iff_getElem.mp hfind
    have hlen := (swap_remove_perm (getElem?_eq_getElem hlt)).length_eq
    rw [length_cons] at hlen
    refine ⟨pairs[index], getElem?_eq_getElem hlt, ?_⟩
    dsimp only
    omega

/-! ### Sweeping a vector -/

structure SweepState (κ ε : Type) where
  pairs : List (κ × ε)
  index : Nat
  removed : List (κ × ε)

/-- One turn: an expired pair makes room for the last one, a live pair is passed. -/
def sweep_step (expiry : ε → Int) (now : Int) (limit : Option Nat) (s : SweepState κ ε) :
    SweepState κ ε ⊕ (List (κ × ε) × List (κ × ε)) :=
  match s.pairs[s.index]? with
  | none => .inr (s.removed, s.pairs)
  | some p =>
    if limit.all (s.removed.length < ·) then
      if expiry p.2 ≤ now then
        .inl { pairs := Vec.swap_remove s.pairs s.index, index := s.index,
               removed := s.removed ++ [p] }
      else .inl { s with index := s.index + 1 }
    else .inr (s.removed, s.pairs)

omit [DecidableEq κ] in
theorem sweep_step_cases (expiry : ε → Int) (now : Int) (limit : Option Nat) (s : SweepState κ ε) :
    (∃ p, s.pairs[s.index]? = some p ∧ (∀ n ∈ limit, s.removed.length < n) ∧ expiry p.2 ≤ now ∧
        sweep_step expiry now limit s
          = .inl ⟨swap_remove s.pairs s.index, s.index, s.removed ++ [p]⟩) ∨
      (∃ p, s.pairs[s.index]? = some p ∧ now < expiry p.2 ∧
        sweep_step expiry now limit s = .inl ⟨s.pairs, s.index + 1, s.removed⟩) ∨
      ((s.pairs[s.index]? = none ∨ ¬∀ n ∈ limit, s.removed.length < n) ∧
        sweep_step expiry now limit s = .inr (s.removed, s.pairs)) := by
  rw [sweep_step]
  cases hp : s.pairs[s.index]? with
  | none => exact Or.inr (Or.inr ⟨Or.inl rfl, rfl⟩)
  | some p =>
    dsimp only
    by_cases hlim : limit.all (s.removed.length < ·) = true
    · rw [if_pos hlim]
      by_cases hexp : expiry p.2 ≤ now
      · refine Or.inl ⟨p, rfl, ?_, hexp, if_pos hexp⟩
        intro n hn
        rw [Option.mem_def.mp hn, Option.all_some] at hlim
        exact of_decide_eq_true hlim
      · exact Or.inr (Or.inl ⟨p, rfl, Int.not_le.mp hexp, if_neg hexp⟩)
    · refine Or.inr (Or.inr ⟨Or.inr fun hall => hlim ?_, if_neg hlim⟩)
      cases limit with
      | none => rfl
      | some n => exact decide_eq_true (hall n rfl)

def sweep_loop (expiry : ε → Int) (now : Int) (limit : Option Nat) :
    Loop (SweepState κ ε) (List (κ × ε) × List (κ × ε)) where
  step := sweep_step expiry now limit
  measure s := s.pairs.length - s.index
  decreases s s' h := by
    have hlt : ∀ p, s.pairs[s.index]? = some p → s.index < s.pairs.length := fun p hp =>
      (List.getElem?_eq_some_iff.mp hp).1
    rcases sweep_step_cases expiry now limit s with ⟨p, hp, -, -, hs⟩ | ⟨p, hp, -, hs⟩ | ⟨-, hs⟩
    · have hlen := (Vec.swap_remove_perm hp).length_eq
      have := hlt p hp
      rw [h] at hs
      rw [Sum.inl.inj hs]
      rw [List.length_cons] at hlen
      dsimp only
      omega
    · have := hlt p hp
      rw [h] at hs
      rw [Sum.inl.inj hs]
      dsimp only
      omega
    · rw [h] at hs
      cases hs

/-- Remove expired pairs, at most `limit` of them: the pairs removed and the pairs left. -/
def sweep (expiry : ε → Int) (now : Int) (limit : Option Nat) (pairs : List (κ × ε)) :
    List (κ × ε) × List (κ × ε) :=
  (sweep_loop expiry now limit).run { pairs := pairs, index := 0, removed := [] }

/-- While a vector is swept: what is before the index is live. -/
structure SweepInv (expiry : ε → Int) (now : Int) (limit : Option Nat) (pairs : List (κ × ε))
    (s : SweepState κ ε) : Prop where
  distinct : Distinct s.pairs
  sweeping : Sweeping expiry now limit (get pairs) (get s.pairs) s.removed
  live : ∀ p ∈ s.pairs.take s.index, now < expiry p.2

theorem sweep_spec (expiry : ε → Int) (now : Int) (limit : Option Nat) (hd : Distinct pairs) :
    Distinct (sweep expiry now limit pairs).2 ∧
      Swept expiry now limit (get pairs) (get (sweep expiry now limit pairs).2)
        (sweep expiry now limit pairs).1 := by
  refine @Loop.run_invariant _ _ (sweep_loop expiry now limit) (SweepInv expiry now limit pairs)
    (fun r => Distinct r.2 ∧ Swept expiry now limit (get pairs) (get r.2) r.1) ?_ ?_ _ ?_
  · rintro s s' ⟨hds, hsweep, hlive⟩ hstep
    rcases sweep_step_cases expiry now limit s with
      ⟨p, hp, hroom, hexp, hs⟩ | ⟨p, hp, hexp, hs⟩ | ⟨-, hs⟩
    · obtain rfl := Sum.inl.inj (hstep.symm.trans hs)
      obtain ⟨hd', hk, hget⟩ := get_swap_remove hds hp
      refine ⟨hd', ?_, ?_⟩
      · rw [hget]
        exact hsweep.snoc hk hexp hroom
      · rw [take_swap_remove (List.getElem?_eq_some_iff.mp hp).1]
        exact hlive
    · obtain rfl := Sum.inl.inj (hstep.symm.trans hs)
      refine ⟨hds, hsweep, ?_⟩
      intro q hq
      rw [take_add_one, hp, mem_append] at hq
      rcases hq with hq | hq
      · exact hlive q hq
      · rw [mem_singleton.mp hq]
        exact hexp
    · cases hstep.symm.trans hs
  · rintro s r ⟨hds, hsweep, hlive⟩ hstep
    rcases sweep_step_cases expiry now limit s with ⟨p, -, -, -, hs⟩ | ⟨p, -, -, hs⟩ | ⟨hend, hs⟩
    · cases hstep.symm.trans hs
    · cases hstep.symm.trans hs
    · obtain rfl := Sum.inr.inj (hstep.symm.trans hs)
      refine ⟨hds, hsweep, ?_⟩
      intro hroom k e hk
      rcases hend with hend | hend
      · rw [List.getElem?_eq_none_iff] at hend
        rw [take_of_length_le hend] at hlive
        exact hlive (k, e) ((get_eq_some_iff hds).mp hk)
      · exact absurd hroom hend
  · exact ⟨hd, Sweeping.nil _ _ _ _, nofun⟩

/-! ### The entry that expires first -/

/-- The key of the first pair among those that expire first. -/
def oldest (expiry : ε → Int) (pairs : List (κ × ε)) : Option κ :=
  (Vec.min_by_key (fun p => expiry p.2) pairs).map Prod.fst

theorem oldest_spec {expiry : ε → Int} (hd : Distinct pairs) (h : oldest expiry pairs = some k) :
    ∃ e, get pairs k = some e ∧ ∀ k' e', get pairs k' = some e' → expiry e ≤ expiry e' := by
  obtain ⟨p, hp, rfl⟩ := Option.map_eq_some_iff.mp h
  obtain ⟨hmem, hmin⟩ := min_by_key_spec hp
  refine ⟨p.2, (get_eq_some_iff hd).mpr hmem, ?_⟩
  intro k' e' hk'
  exact hmin (k', e') ((get_eq_some_iff hd).mp hk')

end Pairs

end Expiring
