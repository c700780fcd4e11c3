/-
First-match decision lists, and what happens to them when neighbours are read
together.

A decision list is walked from the front. A rule that fires either decides or
only leaves a note and lets the walk go on; the note is one bit. The first half
of the file is that evaluation (`firstMatch`) and how it behaves under
congruence, maps and flattening. The second half is about grouping: `runs`
cuts a list into maximal runs of neighbours, `mergeRuns` is the one-pass
accumulator loop that fuses each run into its first element, and the two agree.

The question the file exists for is the last section. Reading a group by "some
member fires" is the meaning of the flat list; reading it by any *smaller*
predicate may lose a decision. `firstMatch_eq_iff` says exactly when it does
not: `Recovers` walks the groups and asks, at each group the two readings
disagree on, that the rest of the list makes up for it.
-/
import Mathlib.Data.List.Forall2

set_option autoImplicit false

namespace DecisionList

open List

variable {ρ σ δ : Type*}

/-! ## First match -/

/-- Walk `rules` from the front. A rule that fires and has a verdict ends the
walk; one that fires without a verdict sets the note and falls through. -/
def firstMatch (fires : ρ → Bool) (verdict : ρ → Option δ) : Bool → List ρ → Option δ × Bool
  | note, [] => (none, note)
  | note, r :: rs =>
    if fires r then
      match verdict r with
      | some d => (some d, note)
      | none => firstMatch fires verdict true rs
    else firstMatch fires verdict note rs

variable {fires : ρ → Bool} {verdict : ρ → Option δ}

theorem firstMatch_forall₂ {fires' : σ → Bool} {verdict' : σ → Option δ}
    {rules : List ρ} {rules' : List σ}
    (h : List.Forall₂ (fun r s => fires r = fires' s ∧ verdict r = verdict' s) rules rules')
    (note : Bool) : firstMatch fires verdict note rules = firstMatch fires' verdict' note rules' := by
  induction h generalizing note with
  | nil => rfl
  | cons hrs _ ih =>
    rw [firstMatch, firstMatch, hrs.1, hrs.2]
    simp only [ih]

theorem firstMatch_congr {fires' : ρ → Bool} {verdict' : ρ → Option δ} (rules : List ρ)
    (hf : ∀ r ∈ rules, fires r = fires' r) (hv : ∀ r ∈ rules, verdict r = verdict' r) (note : Bool) :
    firstMatch fires verdict note rules = firstMatch fires' verdict' note rules :=
  firstMatch_forall₂ (List.forall₂_same.mpr fun r hr => ⟨hf r hr, hv r hr⟩) note

theorem firstMatch_map (g : σ → ρ) (rules : List σ) (note : Bool) :
    firstMatch fires verdict note (rules.map g)
      = firstMatch (fun s => fires (g s)) (fun s => verdict (g s)) note rules :=
  firstMatch_forall₂
    (List.forall₂_map_left_iff.mpr (List.forall₂_same.mpr fun _ _ => ⟨rfl, rfl⟩)) note

/-- Rules rebuilt one by one, each from a group, keeping what the walk sees. -/
theorem firstMatch_filterMap {f : σ → Option ρ} {fires' : σ → Bool} {verdict' : σ → Option δ}
    {groups : List σ} (h : ∀ g ∈ groups, ∃ r, f g = some r ∧ fires r = fires' g ∧ verdict r = verdict' g)
    (note : Bool) :
    firstMatch fires verdict note (groups.filterMap f) = firstMatch fires' verdict' note groups := by
  induction groups generalizing note with
  | nil => rfl
  | cons g gs ih =>
    have hgs := ih (fun x hx => h x (mem_cons_of_mem g hx))
    obtain ⟨r, hr, hf, hv⟩ := h g mem_cons_self
    simp only [filterMap_cons, hr, firstMatch, hf, hv, hgs]

theorem firstMatch_mem {rules : List ρ} {note note' : Bool} {d : δ}
    (h : firstMatch fires verdict note rules = (some d, note')) : ∃ r ∈ rules, verdict r = some d := by
  induction rules generalizing note with
  | nil => cases h
  | cons r rs ih =>
    -- whatever the note is by then
    have hlater : ∀ {n}, firstMatch fires verdict n rs = (some d, note') →
        ∃ s ∈ r :: rs, verdict s = some d := by
      intro n hn
      obtain ⟨s, hs, hv⟩ := ih hn
      exact ⟨s, mem_cons_of_mem r hs, hv⟩
    rw [firstMatch] at h
    split at h
    · split at h
      · rename_i hv
        exact ⟨r, mem_cons_self, hv.trans (Prod.mk.inj h).1⟩
      · exact hlater h
    · exact hlater h

theorem firstMatch_note (rules : List ρ) : (firstMatch fires verdict true rules).2 = true := by
  induction rules with
  | nil => rfl
  | cons r rs ih =>
    rw [firstMatch]
    split
    · split
      · rfl
      · exact ih
    · exact ih

theorem firstMatch_true (rules : List ρ) (note : Bool) :
    firstMatch fires verdict true rules = ((firstMatch fires verdict note rules).1, true) := by
  induction rules generalizing note with
  | nil => rfl
  | cons r rs ih =>
    simp only [firstMatch]
    split
    · split
      · rfl
      · exact ih true
    · exact ih note

/-- A block of rules with one verdict acts like a single rule that fires when
some member does. -/
theorem firstMatch_block (d : Option δ) (block rest : List ρ) (note : Bool) : (∀ r ∈ block, verdict r = d) →
    firstMatch fires verdict note (block ++ rest)
      = if block.any fires then
          match d with
          | some x => (some x, note)
          | none => firstMatch fires verdict true rest
        else firstMatch fires verdict note rest := by
  induction block generalizing note with
  | nil => simp
  | cons r rs ih =>
    intro hd
    have hrs := fun n => ih n (fun x hx => hd x (mem_cons_of_mem r hx))
    rw [cons_append, firstMatch, hd r mem_cons_self]
    -- the first member alone decides, or the block is the smaller one
    by_cases hf : fires r
    · cases d with
      | some x => simp [hf]
      | none =>
        -- the note is set already, so whether a later member fires too is invisible
        have hnote := hrs true
        simp [hf, hnote]
    · simp [hf, hrs note]

theorem firstMatch_flatten {common : List ρ → Option δ} {groups : List (List ρ)}
    (hc : ∀ g ∈ groups, ∀ r ∈ g, verdict r = common g) (note : Bool) :
    firstMatch fires verdict note groups.flatten
      = firstMatch (fun g => g.any fires) common note groups := by
  induction groups generalizing note with
  | nil => rfl
  | cons g gs ih =>
    have hgs := ih (fun x hx => hc x (mem_cons_of_mem g hx))
    rw [flatten_cons, firstMatch_block _ _ _ _ (hc g mem_cons_self), firstMatch]
    simp only [hgs]

/-! ## Maximal runs of neighbours -/

/-- Cut a list between the neighbours that `join` does not relate. -/
def runs (join : ρ → ρ → Bool) : List ρ → List (List ρ)
  | [] => []
  | r :: rs =>
    match runs join rs with
    | (s :: g) :: gs => if join r s then (r :: s :: g) :: gs else [r] :: (s :: g) :: gs
    | gs => [r] :: gs

variable (join : ρ → ρ → Bool)

theorem runs_flatten (rules : List ρ) : (runs join rules).flatten = rules := by
  induction rules with
  | nil => rfl
  | cons r rs ih =>
    rw [runs]
    split
    · rename_i s g gs heq
      rw [heq] at ih
      split <;> simpa using ih
    · simpa using ih

theorem runs_cons_head (r : ρ) (rs : List ρ) : ∃ g gs, runs join (r :: rs) = (r :: g) :: gs := by
  rw [runs]
  split
  · split
    · exact ⟨_, _, rfl⟩
    · exact ⟨_, _, rfl⟩
  · exact ⟨_, _, rfl⟩

/-- Two elements in front: the run either grows or is cut. -/
theorem runs_cons_cons (r : ρ) {s : ρ} {rs g : List ρ} {gs : List (List ρ)}
    (h : runs join (s :: rs) = (s :: g) :: gs) :
    runs join (r :: s :: rs) = if join r s then (r :: s :: g) :: gs else [r] :: (s :: g) :: gs := by
  rw [runs, h]

/-- No run is empty, and inside a run the head is joined to every later member,
as long as `join` is inherited along it. -/
theorem runs_head_join (htrans : ∀ a b c, join a b → join b c → join a c) (rules : List ρ) :
    ∀ g ∈ runs join rules, ∃ r t, g = r :: t ∧ ∀ s ∈ t, join r s := by
  induction rules with
  | nil => simp [runs]
  | cons r rs ih =>
    cases rs with
    | nil =>
      intro g hg
      have : g = [r] := by simpa [runs] using hg
      exact ⟨r, [], this, by simp⟩
    | cons s rs =>
      obtain ⟨t, gs, heq⟩ := runs_cons_head join s rs
      rw [heq] at ih
      rw [runs_cons_cons join r heq]
      intro g hg
      split at hg
      · rename_i hjoin
        -- the run of `s` grew by `r`, which joins `s` and through it the others
        rcases mem_cons.mp hg with rfl | hmem
        · obtain ⟨s', t', he, hall⟩ := ih (s :: t) mem_cons_self
          obtain ⟨rfl, rfl⟩ := cons.inj he
          refine ⟨r, s :: t, rfl, ?_⟩
          intro x hx
          rcases mem_cons.mp hx with rfl | hx
          · exact hjoin
          · exact htrans r s x hjoin (hall x hx)
        · exact ih g (mem_cons_of_mem _ hmem)
      · rcases mem_cons.mp hg with rfl | hmem
        · exact ⟨r, [], rfl, by simp⟩
        · exact ih g hmem

/-! ## The accumulator loop -/

/-- One turn of a merging loop: fuse the new rule into the last one kept, or
keep it. -/
def mergeStep (join : ρ → ρ → Bool) (fuse : ρ → ρ → ρ) (kept : List ρ) (rule : ρ) : List ρ :=
  match kept.getLast? with
  | some last => if join last rule then kept.dropLast ++ [fuse last rule] else kept ++ [rule]
  | none => kept ++ [rule]

/-- The loop: `mergeStep` over the list, from nothing kept. -/
def mergeRuns (join : ρ → ρ → Bool) (fuse : ρ → ρ → ρ) (rules : List ρ) : List ρ :=
  rules.foldl (mergeStep join fuse) []

/-- What a run becomes: its head with every later member fused in. -/
def fuseRun (fuse : ρ → ρ → ρ) : List ρ → Option ρ
  | [] => none
  | r :: t => some (t.foldl fuse r)

variable (fuse : ρ → ρ → ρ)

theorem mergeStep_last (kept : List ρ) (last rule : ρ) :
    mergeStep join fuse (kept ++ [last]) rule
      = kept ++ (if join last rule then [fuse last rule] else [last, rule]) := by
  -- the list ends in `last` by its shape, so the match on `getLast?` is decided
  simp only [mergeStep, getLast?_append, getLast?_singleton, Option.some_or, dropLast_concat]
  split <;> simp

/-- The loop's invariant. Everything but the last kept rule is final, and the
last one stands for the run being built: it joins exactly what the run's newest
member `tip` joins. -/
theorem foldl_mergeStep (hfuse : ∀ a b c, join a b → join (fuse a b) c = join b c)
    (kept rules : List ρ) (last tip : ρ) (htip : ∀ c, join last c = join tip c) (t : List ρ)
    (gs : List (List ρ)) (hruns : runs join (tip :: rules) = (tip :: t) :: gs) :
    rules.foldl (mergeStep join fuse) (kept ++ [last])
      = kept ++ t.foldl fuse last :: gs.filterMap (fuseRun fuse) := by
  induction rules generalizing kept last tip t gs with
  | nil =>
    have : (tip :: t) :: gs = [[tip]] := by rw [← hruns]; rfl
    obtain ⟨h1, h2⟩ := cons.inj this
    obtain ⟨-, rfl⟩ := cons.inj h1
    subst h2
    rfl
  | cons s rs ih =>
    obtain ⟨t', gs', heq⟩ := runs_cons_head join s rs
    rw [runs_cons_cons join tip heq] at hruns
    rw [foldl_cons, mergeStep_last, htip]
    by_cases hjoin : join tip s
    · -- the run grows: the kept rule absorbs `s`, and `s` is the new tip
      rw [if_pos hjoin] at hruns ⊢
      obtain ⟨h1, rfl⟩ := cons.inj hruns
      obtain ⟨-, rfl⟩ := cons.inj h1
      have hlast : join last s := by rw [htip]; exact hjoin
      exact ih kept (fuse last s) s (fun c => hfuse last s c hlast) t' gs' heq
    · -- the run is cut: what was kept last is final
      rw [if_neg hjoin] at hruns ⊢
      obtain ⟨h1, rfl⟩ := cons.inj hruns
      obtain ⟨-, rfl⟩ := cons.inj h1
      have hsplit : kept ++ [last, s] = (kept ++ [last]) ++ [s] := by simp
      rw [hsplit, ih (kept ++ [last]) s s (fun _ => rfl) t' gs' heq]
      simp [fuseRun]

/-- **The loop fuses the maximal runs.** -/
theorem mergeRuns_eq (hfuse : ∀ a b c, join a b → join (fuse a b) c = join b c) (rules : List ρ) :
    mergeRuns join fuse rules = (runs join rules).filterMap (fuseRun fuse) := by
  cases rules with
  | nil => rfl
  | cons r rs =>
    obtain ⟨t, gs, heq⟩ := runs_cons_head join r rs
    have h := foldl_mergeStep join fuse hfuse [] rs r r (fun _ => rfl) t gs heq
    rw [mergeRuns, foldl_cons]
    simpa [mergeStep, heq, fuseRun] using h

/-! ## Reading a group by less than "some member fires"

`some` is the honest reading of a group, `all` a smaller one. Where they differ
on a group, the honest reading takes the group's verdict and the smaller one
walks past it; the two walks end alike only if the rest of the list gives that
verdict anyway. -/

/-- De Morgan over a list: negating each member turns the disjunction into a
conjunction under one negation. -/
theorem any_or_all_bne (n : Bool) (q : ρ → Bool) (l : List ρ) (h : ∀ x ∈ l, fires x = (q x != n)) :
    (if n then l.all fires else l.any fires) = (l.any q != n) := by
  induction l with
  | nil => cases n <;> rfl
  | cons x l ih =>
    have hl := ih (fun y hy => h y (mem_cons_of_mem x hy))
    have hx := h x mem_cons_self
    cases n with
    | false =>
      simp only [Bool.false_eq_true, if_false, Bool.bne_false] at hl hx ⊢
      rw [any_cons, any_cons, hl, hx]
    | true =>
      simp only [if_true, Bool.bne_true] at hl hx ⊢
      rw [all_cons, any_cons, hl, hx, Bool.not_or]

/-- The rest of the list makes up for every group that `fires` sees and
`together` misses. -/
def Recovers (fires together : σ → Bool) (verdict : σ → Option δ) : Bool → List σ → Prop
  | _, [] => True
  | note, g :: gs =>
    if fires g then
      if together g then
        match verdict g with
        | some _ => True
        | none => Recovers fires together verdict true gs
      else
        match verdict g with
        | some d => firstMatch together verdict note gs = (some d, note)
        | none =>
          firstMatch together verdict note gs = firstMatch together verdict true gs
            ∧ Recovers fires together verdict true gs
    else Recovers fires together verdict note gs

/-- **When the smaller reading decides the same.** The induction is on the
groups; the only case with an argument in it is a missed group that leaves a
note, where the note has to come from somewhere else in the list. -/
theorem firstMatch_eq_iff {fires together : σ → Bool} {verdict : σ → Option δ} {groups : List σ}
    (hsub : ∀ g ∈ groups, together g → fires g) (note : Bool) :
    firstMatch together verdict note groups = firstMatch fires verdict note groups
      ↔ Recovers fires together verdict note groups := by
  induction groups generalizing note with
  | nil => simp [firstMatch, Recovers]
  | cons g gs ih =>
    have hgs := ih (fun x hx => hsub x (mem_cons_of_mem g hx))
    -- the two readings differ only where `fires` sees a group that `together` misses
    by_cases hf : fires g
    · by_cases ht : together g
      · cases hv : verdict g with
        | some d => simp [firstMatch, Recovers, hf, ht, hv]
        | none => simp [firstMatch, Recovers, hf, ht, hv, hgs true]
      · cases hv : verdict g with
        | some d => simp [firstMatch, Recovers, hf, ht, hv]
        | none =>
          simp only [firstMatch, Recovers, hf, ht, hv, if_true, Bool.false_eq_true, if_false]
          rw [← hgs true]
          constructor
          · intro h
            -- the honest walk has its note from `g`, so the other walk must find one too
            have hnote : (firstMatch together verdict note gs).2 = true := by
              rw [h]; exact firstMatch_note gs
            have hlift : firstMatch together verdict true gs
                = firstMatch together verdict note gs := by
              rw [firstMatch_true gs note, ← hnote]
            exact ⟨hlift.symm, hlift.trans h⟩
          · rintro ⟨h1, h2⟩
            exact h1.trans h2
    · have ht : ¬ together g := fun h => hf (hsub g mem_cons_self h)
      simp [firstMatch, Recovers, hf, ht, hgs note]

end DecisionList
