/-
The order of commits.

A response is overtaken when a response of its key that began later has committed, or its key was
removed since it began. The invariant says what the revision table knows of that: the last revision
it keeps for a key is not before that of any overtaken response in progress. So a response that may
commit is not overtaken, and what commits later cannot have begun earlier.

The table forgets a key with its last response in progress. That is no loss: the invariant only
speaks of responses in progress, and those of a lost table are of an older epoch.
-/
import DaeNext.DnsDomainRouting

set_option autoImplicit false

namespace DaeNext.Dns

open Table Option Nat ResponseRevisions

/-! ## Revisions -/

theorem checked_succ_eq {n m : Nat} (h : checked_succ n = some m) : m = n + 1 := by
  rw [checked_succ] at h
  split_ifs at h with hlt
  exact (some.inj h).symm

theorem checked_succ_of_le {n m k : Nat} (h : checked_succ n = some k) (hle : m ≤ n) :
    checked_succ m = some (m + 1) := by
  rw [checked_succ] at h ⊢
  split_ifs at h with hlt
  rw [if_pos (by omega)]

namespace ResponseRevisions

variable {self : ResponseRevisions} {revision : ResponseRevision}

theorem can_commit_iff :
    self.can_commit revision = true ↔ revision.epoch = self.epoch ∧
      ∃ pending, self.pending[revision.key]? = some pending ∧ pending.committed < revision.sequence := by
  rw [can_commit, Bool.and_eq_true, decide_eq_true_iff, any_eq_true]
  simp only [decide_eq_true_iff]

variable (key : DnsCacheKey)

theorem begin_cases (hcount : ((self.pending[key]?).getD {}).count ≤ self.sequence) :
    (∃ error, self.begin_ key = (.error error, self)) ∨
    self.begin_ key = (.ok { key, sequence := self.sequence + 1, epoch := self.epoch },
      { self with
        sequence := self.sequence + 1
        pending := self.pending.insert key
          { (self.pending[key]?).getD {} with
            count := ((self.pending[key]?).getD {}).count + 1 } }) := by
  rw [begin_]
  cases h : checked_succ self.sequence with
  | none => exact .inl ⟨_, rfl⟩
  | some sequence =>
    right
    dsimp only
    rw [checked_succ_of_le h hcount, checked_succ_eq h]

theorem invalidate_cases :
    (∃ error, self.invalidate key = (.error error, self)) ∨
    self.invalidate key = (.ok (), { self with
      sequence := self.sequence + 1
      pending := self.pending.modify key fun pending =>
        { pending with committed := self.sequence + 1 } }) := by
  rw [invalidate]
  cases h : checked_succ self.sequence with
  | none => exact .inl ⟨_, rfl⟩
  | some sequence =>
    rw [checked_succ_eq h]
    exact .inr rfl

theorem drop_of_epoch_ne (h : revision.epoch ≠ self.epoch) : self.drop revision = self := by
  rw [drop, if_pos h]

/-- The last response in progress takes the entry of its key with it. -/
theorem drop_of_epoch_eq {pending : PendingResponses} (h : revision.epoch = self.epoch)
    (hpending : self.pending[revision.key]? = some pending) :
    ∃ table, self.drop revision = { self with pending := table } ∧ ∀ key : DnsCacheKey,
      table[key]? = if key = revision.key then
        (if pending.count - 1 = 0 then none else some { pending with count := pending.count - 1 })
        else self.pending[key]? := by
  rw [drop, if_neg (not_not.mpr h), hpending]
  dsimp only
  split_ifs with hlast
  · exact ⟨_, rfl, fun key => getElem?_erase _ _ _⟩
  · exact ⟨_, rfl, fun key => getElem?_insert _ _ _ _⟩

theorem committed_of_epoch_ne (h : revision.epoch ≠ self.epoch) : (self.committed revision).2 = self := by
  rw [committed, if_pos h]

theorem committed_of_epoch_eq {pending : PendingResponses} (h : revision.epoch = self.epoch)
    (hpending : self.pending[revision.key]? = some pending) :
    (self.committed revision).2 = { self with
      pending := self.pending.insert revision.key
        { pending with committed := max pending.committed revision.sequence } } := by
  rw [committed, if_neg (not_not.mpr h), hpending]

theorem epoch_begin : (self.begin_ key).2.epoch = self.epoch := by
  fun_cases self.begin_ key <;> rfl

theorem epoch_drop : (self.drop revision).epoch = self.epoch := by
  fun_cases self.drop revision <;> rfl

theorem epoch_committed : (self.committed revision).2.epoch = self.epoch := by
  fun_cases self.committed revision <;> rfl

end ResponseRevisions

/-! ## What a commit and a removal do to the revisions -/

namespace ResidentDnsDomainRouting

variable {κ : Type} (self : ResidentDnsDomainRouting κ)

theorem revisions_commit_removal (key : DnsCacheKey) (apply : MapApply κ) :
    (self.commit_removal key apply).2.response_revisions = self.response_revisions := by
  fun_cases self.commit_removal key apply with
  | case1 => rfl
  | case2 _ _ _ _ h | case3 _ _ _ h => exact (congrArg (·.2.response_revisions) h).symm

theorem revisions_commit_update (plan : ResidentDnsDomainRoutingUpdatePlan) (now : Int)
    (apply : MapApply κ) :
    (self.commit_update plan now apply).2.response_revisions = self.response_revisions := by
  fun_cases self.commit_update plan now apply with
  | case1 => rfl
  | case2 _ _ _ _ _ _ _ _ _ h
  | case3 _ _ _ _ _ _ _ _ h
  | case4 _ _ _ _ _ _ _ _ h => exact (congrArg (·.2.response_revisions) h).symm

theorem revisions_commit_begin (plan : Option ResidentDnsDomainRoutingUpdatePlan)
    (revision : ResponseRevision) (now : Int) (apply : MapApply κ) :
    (self.commit_begin plan revision now apply).2.response_revisions = self.response_revisions := by
  unfold commit_begin
  split_ifs with hcan
  · cases plan with
    | none => exact self.revisions_commit_removal revision.key apply
    | some plan => exact self.revisions_commit_update plan now apply
  · rfl

theorem can_commit_of_commit_begin {plan : Option ResidentDnsDomainRoutingUpdatePlan}
    {revision : ResponseRevision} {now : Int} {apply : MapApply κ} {routing : ResidentDnsDomainRouting κ}
    (h : self.commit_begin plan revision now apply = (.ok true, routing)) :
    self.response_revisions.can_commit revision = true := by
  unfold commit_begin at h
  split_ifs at h with hcan
  · exact hcan
  · cases h

theorem response_revisions_commit_end (revision : ResponseRevision)
    (publish_response : Except String Unit) :
    (self.commit_end revision publish_response).2.response_revisions
      = (self.response_revisions.committed revision).2 := by
  rw [commit_end]
  split
  · rename_i hcommitted
    rw [hcommitted]
  · rename_i hcommitted
    rw [hcommitted]

/-- A removal fails and leaves the revisions alone, or has its mark in them. -/
theorem remove_entry_cases (key : DnsCacheKey) (apply : MapApply κ) :
    (∃ error routing, self.remove_entry key apply = (.error error, routing) ∧
      routing.response_revisions = self.response_revisions) ∨
    ∃ routing, self.remove_entry key apply = (.ok (), routing) ∧
      routing.response_revisions = { self.response_revisions with
        sequence := self.response_revisions.sequence + 1
        pending := self.response_revisions.pending.modify key fun pending =>
          { pending with committed := self.response_revisions.sequence + 1 } } := by
  rw [remove_entry]
  cases self.cache.shared_entry key with
  | none =>
    obtain ⟨error, heq⟩ | heq := self.response_revisions.invalidate_cases key
    · rw [heq]
      exact .inl ⟨_, _, rfl, rfl⟩
    · rw [heq]
      exact .inr ⟨_, rfl, rfl⟩
  | some entry =>
    dsimp only
    -- the owner's event does not touch the revisions
    have hsame : (if entry.route_owner_key.isEmpty then ((.ok (), self) :
        Except String Unit × ResidentDnsDomainRouting κ)
        else self.apply_event (event_remove entry.route_owner_key) apply).2.response_revisions
          = self.response_revisions := by
      split_ifs <;> rfl
    generalize ite (entry.route_owner_key.isEmpty = true) _ _ = routing at hsame ⊢
    obtain ⟨result, routing⟩ := routing
    cases result with
    | error error => exact .inl ⟨_, _, rfl, hsame⟩
    | ok value =>
      rw [hsame]
      obtain ⟨error, heq⟩ | heq := self.response_revisions.invalidate_cases key
      · rw [heq]
        exact .inl ⟨_, _, rfl, rfl⟩
      · rw [heq]
        exact .inr ⟨_, rfl, rfl⟩

end ResidentDnsDomainRouting

/-! ## The invariant -/

namespace Responses

variable {κ : Type}

/-- A response counts for its key while it is in progress under the current table. -/
def in_progress (epoch : Nat) (key : DnsCacheKey) (response : Response) : Nat :=
  if response.live = true ∧ response.revision.epoch = epoch ∧ response.revision.key = key then 1 else 0

/-- A later response of the key is through, or the key was removed. -/
def Overtaken (self : Responses κ) (response : Nat) (key : DnsCacheKey) : Prop :=
  (∃ later value, self.responses[later]? = some value ∧ value.revision.key = key ∧ response < later ∧
    value.committed ≠ none ∧ self.committing ≠ some later) ∨
  ∃ removed, (key, removed) ∈ self.removals ∧ response < removed

abbrev revisions (self : Responses κ) : ResponseRevisions := self.routing.response_revisions

/-- `now` is after everything that has happened. -/
structure Sound (now : Nat) (state : Responses κ) : Prop where
  begun : ∀ (i : Nat) a, state.responses[i]? = some a → i < now
  ordered : ∀ (i j : Nat) a b, state.responses[i]? = some a → state.responses[j]? = some b → i < j →
    a.revision.epoch ≤ b.revision.epoch ∧
    (a.revision.epoch = b.revision.epoch → a.revision.sequence < b.revision.sequence)
  epochs : ∀ (i : Nat) a, state.responses[i]? = some a → a.revision.epoch ≤ state.revisions.epoch
  sequences : ∀ (i : Nat) a, state.responses[i]? = some a →
    a.revision.epoch = state.revisions.epoch → a.revision.sequence ≤ state.revisions.sequence
  absent : ∀ key : DnsCacheKey, state.revisions.pending[key]? = none →
    Table.total (in_progress state.revisions.epoch key) state.responses = 0
  present : ∀ (key : DnsCacheKey) pending,
    state.revisions.pending[key]? = some pending → 0 < pending.count ∧
    pending.count = Table.total (in_progress state.revisions.epoch key) state.responses
  counts : ∀ (key : DnsCacheKey) pending,
    state.revisions.pending[key]? = some pending →
    pending.count ≤ state.revisions.sequence
  overtaken : ∀ (i : Nat) a pending, state.responses[i]? = some a → a.live = true →
    a.revision.epoch = state.revisions.epoch →
    Overtaken state i a.revision.key →
    state.revisions.pending[a.revision.key]? = some pending →
    a.revision.sequence ≤ pending.committed
  holder : ∀ i, state.committing = some i → ∃ a, state.responses[i]? = some a ∧ a.live = true
  past : ∀ (i : Nat) a time, state.responses[i]? = some a → a.committed = some time → time < now
  past_removals : ∀ removal ∈ state.removals, removal.2 < now
  commits : ∀ (i j : Nat) a b s t, state.responses[i]? = some a → state.responses[j]? = some b →
    i < j → a.revision.key = b.revision.key → a.committed = some s → b.committed = some t → s < t
  removals : ∀ (i : Nat) a s t, state.responses[i]? = some a → (a.revision.key, t) ∈ state.removals →
    i < t → a.committed = some s → s < t

namespace Sound

variable {now : Nat} {self : Responses κ}

theorem start (routing : ResidentDnsDomainRouting κ) : Sound 0 (start routing) where
  begun := fun i a h => absurd h empty_ne_some
  ordered := fun i j a b h => absurd h empty_ne_some
  epochs := fun i a h => absurd h empty_ne_some
  sequences := fun i a h => absurd h empty_ne_some
  absent := fun _ _ => rfl
  present := fun key p h => absurd h empty_ne_some
  counts := fun key p h => absurd h empty_ne_some
  overtaken := fun i a p h => absurd h empty_ne_some
  holder := nofun
  past := fun i a t h => absurd h empty_ne_some
  past_removals := nofun
  commits := fun i j a b s t h => absurd h empty_ne_some
  removals := fun i a s t h => absurd h empty_ne_some

variable (h : Sound now self)

include h

theorem later {next : Nat} (hle : now ≤ next) : Sound next self :=
  { h with
    begun := fun i a hget => Nat.lt_of_lt_of_le (h.begun i a hget) hle
    past := fun i a t hget ht => Nat.lt_of_lt_of_le (h.past i a t hget ht) hle
    past_removals := fun r hmem => Nat.lt_of_lt_of_le (h.past_removals r hmem) hle }

theorem pending_of_live {i : Nat} {a : Response} (hget : self.responses[i]? = some a)
    (hlive : a.live = true) (hepoch : a.revision.epoch = self.revisions.epoch) :
    ∃ pending, self.revisions.pending[a.revision.key]? = some pending := by
  cases hpending : self.revisions.pending[a.revision.key]? with
  | some pending => exact ⟨pending, rfl⟩
  | none =>
    have hzero := (total_eq_zero_iff _).mp (h.absent _ hpending) i a hget
    rw [in_progress, if_pos ⟨hlive, hepoch, rfl⟩] at hzero
    cases hzero

/-! ### Steps -/

variable {routing : ResidentDnsDomainRouting κ}

theorem set_routing (hsame : routing.response_revisions = self.revisions) :
    Sound now { self with routing } := by
  obtain ⟨map_id, generation, fence, kernel, owner, cache, response_revisions⟩ := routing
  subst hsame
  exact { h with }

theorem poison : Sound now (self.set_revisions self.revisions.recover) := by
  have hold : ∀ (i : Nat) a, self.responses[i]? = some a →
      a.revision.epoch ≠ self.revisions.epoch + 1 := by
    intro i a hget heq
    have hle := h.epochs i a hget
    omega
  refine
    { h with
      epochs := fun i a hget => le_succ_of_le (h.epochs i a hget)
      sequences := fun i a hget heq => absurd heq (hold i a hget)
      absent := ?_
      present := fun key p hp => absurd hp empty_ne_some
      counts := fun key p hp => absurd hp empty_ne_some
      overtaken := fun i a p hget _ heq => absurd heq (hold i a hget) }
  intro key _
  rw [total_eq_zero_iff]
  intro i a hget
  rw [in_progress, if_neg]
  rintro ⟨_, heq, _⟩
  exact hold i a hget heq

omit h in
theorem begin_response (h : Sound self.clock self) (key : DnsCacheKey) :
    Sound (self.clock + 1) (self.begin_response key) := by
  have hold : ((self.revisions.pending[key]?).getD {}).count ≤ self.revisions.sequence ∧
      ((self.revisions.pending[key]?).getD {}).count
        = total (in_progress self.revisions.epoch key) self.responses := by
    cases hpending : self.revisions.pending[key]? with
    | none => exact ⟨Nat.zero_le _, (h.absent key hpending).symm⟩
    | some pending => exact ⟨h.counts key pending hpending, (h.present key pending hpending).2⟩
  obtain ⟨hcount, htotal⟩ := hold
  obtain ⟨error, hbegin⟩ | hbegin := self.revisions.begin_cases key hcount
  · rw [Responses.begin_response, hbegin]
    exact h.later (le_succ _)
  · rw [Responses.begin_response, hbegin]
    have hnew : self.responses[self.clock]? = none := getElem?_eq_none_of_lt h.begun
    have hcounted : ∀ other : DnsCacheKey,
        total (in_progress self.revisions.epoch other) (self.responses.insert self.clock
            { revision := { key, sequence := self.revisions.sequence + 1
                            epoch := self.revisions.epoch }
              live := true
              committed := none })
        = (if other = key then 1 else 0)
          + total (in_progress self.revisions.epoch other) self.responses := by
      intro other
      rw [total_insert_of_none _ hnew, in_progress]
      simp [eq_comm]
    refine ⟨?_, ?_, ?_, ?_, ?_, ?_, ?_, ?_, ?_, ?_, ?_, ?_, ?_⟩
    · exact forall_insert (lt_succ_self _)
        fun i a hget => lt_succ_of_lt (h.begun i a hget)
    · intro i j a b ha hb hlt
      obtain ⟨rfl, rfl⟩ | ⟨_, hb⟩ := getElem?_insert_cases hb
      · obtain ⟨rfl, _⟩ | ⟨_, ha⟩ := getElem?_insert_cases ha
        · exact absurd hlt (Nat.lt_irrefl _)
        · exact ⟨h.epochs i a ha, fun heq => lt_succ_of_le (h.sequences i a ha heq)⟩
      · obtain ⟨rfl, _⟩ | ⟨_, ha⟩ := getElem?_insert_cases ha
        · exact absurd (h.begun j b hb) (Nat.lt_asymm hlt)
        · exact h.ordered i j a b ha hb hlt
    · exact forall_insert le_rfl h.epochs
    · exact forall_insert (fun _ => le_rfl)
        fun i a hget heq => le_succ_of_le (h.sequences i a hget heq)
    · intro other hnone
      dsimp only [set_revisions] at hnone ⊢
      rw [getElem?_insert] at hnone
      split_ifs at hnone with hother
      rw [hcounted, if_neg hother, h.absent other hnone]
    · intro other pending hpending
      dsimp only [set_revisions] at hpending ⊢
      rw [getElem?_insert] at hpending
      rw [hcounted]
      split_ifs at hpending with hother
      · cases hpending
        rw [if_pos hother, hother]
        dsimp only
        omega
      · rw [if_neg hother, Nat.zero_add]
        exact h.present other pending hpending
    · exact forall_insert (succ_le_succ hcount)
        fun other pending hpending => le_succ_of_le (h.counts other pending hpending)
    · intro i a pending hget hlive hepoch hover hpending
      obtain ⟨rfl, _⟩ | ⟨_, hget⟩ := getElem?_insert_cases hget
      · -- nothing is later than the new response
        obtain ⟨j, b, hb, _, hlt, _⟩ | ⟨t, hmem, hlt⟩ := hover
        · obtain ⟨rfl, _⟩ | ⟨_, hb⟩ := getElem?_insert_cases hb
          · exact absurd hlt (Nat.lt_irrefl _)
          · exact absurd (h.begun j b hb) (Nat.lt_asymm hlt)
        · exact absurd (h.past_removals _ hmem) (Nat.lt_asymm hlt)
      · have hold : Overtaken self i a.revision.key := by
          obtain ⟨j, b, hb, hkey, hlt, hcommitted, hnot⟩ | hremoved := hover
          · obtain ⟨_, rfl⟩ | ⟨_, hb⟩ := getElem?_insert_cases hb
            · exact absurd rfl hcommitted
            · exact .inl ⟨j, b, hb, hkey, hlt, hcommitted, hnot⟩
          · exact .inr hremoved
        obtain ⟨before, hbefore⟩ := h.pending_of_live hget hlive hepoch
        have hle := h.overtaken i a before hget hlive hepoch hold hbefore
        obtain ⟨hother, rfl⟩ | ⟨hother, hpending⟩ := getElem?_insert_cases hpending
        · rw [← hother, hbefore]
          exact hle
        · rw [hbefore] at hpending
          rw [← some.inj hpending]
          exact hle
    · intro i hi
      obtain ⟨a, hget, hlive⟩ := h.holder i hi
      refine ⟨a, ?_, hlive⟩
      rw [getElem?_insert, if_neg, hget]
      rintro rfl
      rw [hnew] at hget
      cases hget
    · intro i a t hget ht
      obtain ⟨_, rfl⟩ | ⟨_, hget⟩ := getElem?_insert_cases hget
      · cases ht
      · exact lt_succ_of_lt (h.past i a t hget ht)
    · intro removal hmem
      exact lt_succ_of_lt (h.past_removals removal hmem)
    · intro i j a b s t ha hb hlt hkey hs ht
      obtain ⟨_, rfl⟩ | ⟨_, ha⟩ := getElem?_insert_cases ha
      · cases hs
      · obtain ⟨_, rfl⟩ | ⟨_, hb⟩ := getElem?_insert_cases hb
        · cases ht
        · exact h.commits i j a b s t ha hb hlt hkey hs ht
    · intro i a s t ha hmem hlt hs
      obtain ⟨_, rfl⟩ | ⟨_, ha⟩ := getElem?_insert_cases ha
      · cases hs
      · exact h.removals i a s t ha hmem hlt hs

/-- A table of the same keys and counts, with later marks. -/
theorem mark {sequence : Nat} {pending : Table DnsCacheKey PendingResponses}
    (hrouting : routing.response_revisions = { self.revisions with sequence, pending })
    (hle : self.revisions.sequence ≤ sequence)
    (hnone : ∀ key : DnsCacheKey, pending[key]? = none → self.revisions.pending[key]? = none)
    (hsome : ∀ (key : DnsCacheKey) after, pending[key]? = some after →
      ∃ before, self.revisions.pending[key]? = some before ∧ after.count = before.count ∧
        min before.committed self.revisions.sequence ≤ after.committed) :
    Sound now { self with routing } := by
  obtain ⟨map_id, generation, fence, kernel, owner, cache, response_revisions⟩ := routing
  subst hrouting
  refine
    { h with
      sequences := fun i a hget hepoch => Nat.le_trans (h.sequences i a hget hepoch) hle
      absent := fun key hkey => h.absent key (hnone key hkey)
      present := fun key after hafter => ?_
      counts := fun key after hafter => ?_
      overtaken := fun i a after hget hlive hepoch hover hafter => ?_ }
  · obtain ⟨before, hbefore, hcount, _⟩ := hsome key after hafter
    rw [hcount]
    exact h.present key before hbefore
  · obtain ⟨before, hbefore, hcount, _⟩ := hsome key after hafter
    rw [hcount]
    exact Nat.le_trans (h.counts key before hbefore) hle
  · obtain ⟨before, hbefore, _, hcommitted⟩ := hsome _ after hafter
    have hold := h.overtaken i a before hget hlive hepoch hover hbefore
    exact Nat.le_trans (Nat.le_min.mpr ⟨hold, h.sequences i a hget hepoch⟩) hcommitted

/-- A response may be replaced by one of the same revision that differs in its progress only, with
the revisions following; what is left to show is what the table knows of it. -/
theorem replace {i : Nat} {a b : Response} {committing : Option Nat}
    {pending : Table DnsCacheKey PendingResponses} (hget : self.responses[i]? = some a)
    (hrevision : b.revision = a.revision)
    (hrouting : routing.response_revisions = { self.revisions with pending })
    (habsent : ∀ key : DnsCacheKey, pending[key]? = none →
      total (in_progress self.revisions.epoch key) (self.responses.insert i b) = 0)
    (hpresent : ∀ (key : DnsCacheKey) after, pending[key]? = some after → 0 < after.count ∧
      after.count = total (in_progress self.revisions.epoch key) (self.responses.insert i b) ∧
      ∃ before, self.revisions.pending[key]? = some before ∧
        after.count ≤ before.count ∧ before.committed ≤ after.committed)
    (hlive : b.live = true → a.live = true) (hovertaken : ∀ (j : Nat) key,
      Overtaken { self with routing, responses := self.responses.insert i b, committing } j key →
      Overtaken self j key)
    (hholder : ∀ j, committing = some j → ∃ c, (self.responses.insert i b)[j]? = some c ∧ c.live = true)
    (hcommitted : b.committed = a.committed ∨ b.committed = some now ∧ ¬ Overtaken self i a.revision.key ∧
      self.committing = none) :
    Sound (now + 1) { self with routing, responses := self.responses.insert i b, committing } := by
  have hcases : ∀ {j : Nat} {c : Response}, (self.responses.insert i b)[j]? = some c →
      ∃ d, self.responses[j]? = some d ∧ c.revision = d.revision ∧ (c.live = true → d.live = true) ∧
        (c.committed = d.committed ∨
          j = i ∧ c.committed = some now ∧ ¬ Overtaken self j c.revision.key ∧
            self.committing = none) := by
    intro j c hc
    obtain ⟨rfl, rfl⟩ | ⟨_, hc⟩ := getElem?_insert_cases hc
    · refine ⟨a, hget, hrevision, hlive, ?_⟩
      rw [hrevision]
      exact hcommitted.imp_right fun hnew => ⟨rfl, hnew⟩
    · exact ⟨c, hc, rfl, id, .inl rfl⟩
  obtain ⟨map_id, generation, fence, kernel, owner, cache, response_revisions⟩ := routing
  subst hrouting
  refine ⟨?_, ?_, ?_, ?_, habsent, ?_, ?_, ?_, hholder, ?_, ?_, ?_, ?_⟩
  · intro j c hc
    obtain ⟨d, hd, _⟩ := hcases hc
    exact lt_succ_of_lt (h.begun j d hd)
  · intro j k c e hc he hlt
    obtain ⟨d, hd, hcd, _⟩ := hcases hc
    obtain ⟨f, hf, hef, _⟩ := hcases he
    rw [hcd, hef]
    exact h.ordered j k d f hd hf hlt
  · intro j c hc
    obtain ⟨d, hd, hcd, _⟩ := hcases hc
    rw [hcd]
    exact h.epochs j d hd
  · intro j c hc heq
    obtain ⟨d, hd, hcd, _⟩ := hcases hc
    rw [hcd] at heq ⊢
    exact h.sequences j d hd heq
  · intro key after hafter
    obtain ⟨hpos, htotal, _⟩ := hpresent key after hafter
    exact ⟨hpos, htotal⟩
  · intro key after hafter
    obtain ⟨_, _, before, hbefore, hcount, _⟩ := hpresent key after hafter
    exact Nat.le_trans hcount (h.counts key before hbefore)
  · intro j c after hc hclive heq hover hafter
    obtain ⟨d, hd, hcd, hdlive, _⟩ := hcases hc
    obtain ⟨_, _, before, hbefore, _, hle⟩ := hpresent _ after hafter
    have hdover := hovertaken j _ hover
    rw [hcd] at heq hbefore hdover ⊢
    exact Nat.le_trans (h.overtaken j d before hd (hdlive hclive) heq hdover hbefore) hle
  · intro j c t hc ht
    obtain ⟨d, hd, _, _, hsame | ⟨_, hnow, _⟩⟩ := hcases hc
    · rw [hsame] at ht
      exact lt_succ_of_lt (h.past j d t hd ht)
    · rw [hnow] at ht
      cases ht
      exact lt_succ_self _
  · intro removal hmem
    exact lt_succ_of_lt (h.past_removals removal hmem)
  · intro j k c e s t hc he hlt hkey hs ht
    obtain ⟨d, hd, hcd, _, hcsame | ⟨_, _, hfree, hnone⟩⟩ := hcases hc
    · obtain ⟨f, hf, hef, _, hesame | ⟨_, hnow, _⟩⟩ := hcases he
      · rw [hcsame] at hs
        rw [hesame] at ht
        rw [hcd, hef] at hkey
        exact h.commits j k d f s t hd hf hlt hkey hs ht
      · -- what commits now is after all commits so far
        rw [hcsame] at hs
        rw [hnow] at ht
        cases ht
        exact h.past j d s hd hs
    · -- what commits now has no later response before it
      obtain ⟨f, hf, hef, _, hesame | ⟨hk, _⟩⟩ := hcases he
      · refine absurd (.inl ⟨k, f, hf, ?_, hlt, ?_, ?_⟩) hfree
        · rw [← hef, hkey]
        · rw [← hesame, ht]
          nofun
        · rw [hnone]
          nofun
      · omega
  · intro j c s t hc hmem hlt hs
    obtain ⟨d, hd, hcd, _, hcsame | ⟨_, _, hfree, _⟩⟩ := hcases hc
    · rw [hcsame] at hs
      rw [hcd] at hmem
      exact h.removals j d s t hd hmem hlt hs
    · exact absurd (.inr ⟨t, hmem, hlt⟩) hfree

section

variable {responses : Table Nat Response} (hsame : ∀ key : DnsCacheKey,
  total (in_progress self.revisions.epoch key) responses
    = total (in_progress self.revisions.epoch key) self.responses)

include hsame

theorem absent_of_total (key : DnsCacheKey) (hnone : self.revisions.pending[key]? = none) :
    total (in_progress self.revisions.epoch key) responses = 0 :=
  (hsame key).trans (h.absent key hnone)

theorem present_of_total (key : DnsCacheKey) (after : PendingResponses)
    (hafter : self.revisions.pending[key]? = some after) : 0 < after.count ∧
      after.count = total (in_progress self.revisions.epoch key) responses ∧
      ∃ before, self.revisions.pending[key]? = some before ∧
        after.count ≤ before.count ∧ before.committed ≤ after.committed := by
  obtain ⟨hpos, htotal⟩ := h.present key after hafter
  exact ⟨hpos, htotal.trans (hsame key).symm, after, hafter, le_rfl, le_rfl⟩

end

theorem abandon (i : Nat) : Sound (now + 1) (self.abandon i) := by
  rw [Responses.abandon]
  cases hget : self.responses[i]? with
  | none => exact h.later (le_succ _)
  | some a =>
    dsimp only
    split_ifs with hdrop
    · obtain ⟨hlive, hnot⟩ := hdrop
      have hcounted : ∀ key : DnsCacheKey,
          total (in_progress self.revisions.epoch key)
            (self.responses.insert i { a with live := false })
            + (if a.revision.epoch = self.revisions.epoch ∧ a.revision.key = key then 1 else 0)
          = total (in_progress self.revisions.epoch key) self.responses := by
        intro key
        rw [total_insert, total_eq_add_erase _ hget, in_progress, in_progress, hlive]
        simp only [Bool.false_eq_true, false_and, if_false, true_and]
        omega
      have hovertaken : ∀ (revisions : ResponseRevisions) (j : Nat) key,
          Overtaken { self.set_revisions revisions with
            responses := self.responses.insert i { a with live := false } } j key →
          Overtaken self j key := by
        rintro revisions j key (⟨k, b, hb, hkey, hlt, hcommitted, hother⟩ | hremoved)
        · obtain ⟨rfl, rfl⟩ | ⟨_, hb⟩ := getElem?_insert_cases hb
          · exact .inl ⟨k, a, hget, hkey, hlt, hcommitted, hother⟩
          · exact .inl ⟨k, b, hb, hkey, hlt, hcommitted, hother⟩
        · exact .inr hremoved
      have hholder : ∀ j, self.committing = some j →
          ∃ c, (self.responses.insert i { a with live := false })[j]? = some c ∧ c.live = true := by
        intro j hj
        obtain ⟨c, hc, hclive⟩ := h.holder j hj
        refine ⟨c, ?_, hclive⟩
        rw [getElem?_insert, if_neg, hc]
        rintro rfl
        exact hnot hj
      by_cases hepoch : a.revision.epoch = self.revisions.epoch
      · obtain ⟨pending, hpending⟩ := h.pending_of_live hget hlive hepoch
        obtain ⟨hpos, htotal⟩ := h.present _ pending hpending
        have hself := hcounted a.revision.key
        rw [if_pos ⟨hepoch, rfl⟩] at hself
        obtain ⟨table, hdrop, htable⟩ := drop_of_epoch_eq hepoch hpending
        refine h.replace hget rfl hdrop ?_ ?_ (fun _ => hlive) (hovertaken _) hholder (.inl rfl)
        · intro key hnone
          have hkey := hcounted key
          rw [htable] at hnone
          split_ifs at hnone with heq hlast
          · subst heq
            omega
          · rw [h.absent key hnone] at hkey
            omega
        · intro key after hafter
          rw [htable] at hafter
          split_ifs at hafter with heq hlast
          · cases hafter
            subst heq
            exact ⟨Nat.pos_of_ne_zero hlast, by dsimp only; omega, pending, hpending, sub_le _ _, le_rfl⟩
          · have hkey := hcounted key
            rw [if_neg (fun hand => heq hand.2.symm), Nat.add_zero] at hkey
            rw [hkey]
            exact h.present_of_total (fun _ => rfl) key after hafter
      · have hsame : ∀ key : DnsCacheKey,
            total (in_progress self.revisions.epoch key)
              (self.responses.insert i { a with live := false })
            = total (in_progress self.revisions.epoch key) self.responses := by
          intro key
          rw [← hcounted key, if_neg (fun hand => hepoch hand.1), Nat.add_zero]
        exact h.replace hget rfl (drop_of_epoch_ne hepoch) (h.absent_of_total hsame)
          (h.present_of_total hsame) (fun _ => hlive) (hovertaken _) hholder (.inl rfl)
    · exact h.later (le_succ _)

omit h in
theorem commit_begin (h : Sound self.clock self) (i : Nat)
    (plan : Option ResidentDnsDomainRoutingUpdatePlan) (now : Int) (apply : MapApply κ) :
    Sound (self.clock + 1) (self.commit_begin i plan now apply) := by
  rw [Responses.commit_begin]
  cases hget : self.responses[i]? with
  | none => exact h.later (le_succ _)
  | some a =>
    dsimp only
    split_ifs with hfree
    · obtain ⟨hlive, hnone⟩ := hfree
      have hrevisions := self.routing.revisions_commit_begin plan a.revision now apply
      split
      · rename_i routing hbegin
        rw [hbegin] at hrevisions
        have hcan := self.routing.can_commit_of_commit_begin hbegin
        obtain ⟨hepoch, pending, hpending, hlt⟩ := can_commit_iff.mp hcan
        have hnot : ¬ Overtaken self i a.revision.key := by
          intro hover
          have hle := h.overtaken i a pending hget hlive hepoch hover hpending
          omega
        have hsame : ∀ key : DnsCacheKey,
            total (in_progress self.revisions.epoch key)
              (self.responses.insert i { a with committed := some self.clock })
            = total (in_progress self.revisions.epoch key) self.responses := by
          intro key
          exact total_insert_of_eq _ hget rfl
        refine h.replace hget rfl hrevisions (h.absent_of_total hsame) (h.present_of_total hsame)
          (fun hb => hb) ?_ ?_ (.inr ⟨rfl, hnot, hnone⟩)
        · -- the commit is under way and overtakes nothing yet
          rintro j key (⟨k, b, hb, hkey, hlt, hcommitted, hother⟩ | hremoved)
          · obtain ⟨rfl, _⟩ | ⟨_, hb⟩ := getElem?_insert_cases hb
            · exact absurd rfl hother
            · refine .inl ⟨k, b, hb, hkey, hlt, hcommitted, ?_⟩
              rw [hnone]
              nofun
          · exact .inr hremoved
        · intro j hj
          cases hj
          refine ⟨{ a with committed := some self.clock }, ?_, hlive⟩
          rw [getElem?_insert, if_pos rfl]
      · rename_i routing _ hbegin
        rw [hbegin] at hrevisions
        exact (h.set_routing hrevisions).later (le_succ _)
    · exact h.later (le_succ _)

theorem commit_end (publish_response : Except String Unit) :
    Sound now (self.commit_end publish_response) := by
  rw [Responses.commit_end]
  cases hcommitting : self.committing with
  | none => exact h
  | some i =>
    dsimp only
    obtain ⟨a, hget, hlive⟩ := h.holder i hcommitting
    rw [hget]
    have hrevisions := self.routing.response_revisions_commit_end a.revision publish_response
    -- the commit now counts as one that overtakes
    have hcases : ∀ {routing : ResidentDnsDomainRouting κ} {j : Nat} {key : DnsCacheKey},
        Overtaken { self with routing, committing := none } j key →
        Overtaken self j key ∨ j < i ∧ a.revision.key = key := by
      rintro routing j key (⟨k, b, hb, hkey, hlt, hcommitted, _⟩ | hremoved)
      · by_cases hk : k = i
        · subst hk
          rw [hget] at hb
          cases hb
          exact .inr ⟨hlt, hkey⟩
        · refine .inl (.inl ⟨k, b, hb, hkey, hlt, hcommitted, ?_⟩)
          rw [hcommitting]
          intro heq
          exact hk (some.inj heq).symm
      · exact .inl (.inr hremoved)
    by_cases hepoch : a.revision.epoch = self.revisions.epoch
    · obtain ⟨pending, hpending⟩ := h.pending_of_live hget hlive hepoch
      rw [committed_of_epoch_eq hepoch hpending] at hrevisions
      have hmarked : Sound now _ := h.mark hrevisions le_rfl ?_ ?_
      · refine { hmarked with overtaken := ?_, holder := nofun }
        intro j b after hb hblive hbepoch hover hafter
        obtain hover | ⟨hlt, hkey⟩ := hcases hover
        · exact hmarked.overtaken j b after hb hblive hbepoch hover hafter
        · dsimp only [revisions] at hbepoch hafter
          rw [hrevisions] at hbepoch hafter
          rw [← hkey, getElem?_insert, if_pos rfl] at hafter
          cases hafter
          have hseq := (h.ordered j i b a hb hget hlt).2 (hbepoch.trans hepoch.symm)
          exact Nat.le_trans (Nat.le_of_lt hseq) (Nat.le_max_right _ _)
      · intro key hnone
        rw [getElem?_insert] at hnone
        split_ifs at hnone with heq
        exact hnone
      · intro key after hafter
        obtain ⟨rfl, rfl⟩ | ⟨_, hafter⟩ := getElem?_insert_cases hafter
        · exact ⟨pending, hpending, rfl, Nat.le_trans (Nat.min_le_left _ _) (Nat.le_max_left _ _)⟩
        · exact ⟨after, hafter, rfl, Nat.min_le_left _ _⟩
    · -- the table was lost: nothing older is left in the current one
      rw [committed_of_epoch_ne hepoch] at hrevisions
      have hkept := h.set_routing hrevisions
      refine { hkept with overtaken := ?_, holder := nofun }
      intro j b after hb hblive hbepoch hover hafter
      obtain hover | ⟨hlt, _⟩ := hcases hover
      · exact hkept.overtaken j b after hb hblive hbepoch hover hafter
      · have hle := (h.ordered j i b a hb hget hlt).1
        rw [hbepoch] at hle
        have heq := Nat.le_antisymm (hkept.epochs i a hget) hle
        exact absurd (heq.trans (congrArg epoch hrevisions)) hepoch

omit h in
theorem remove_key (h : Sound self.clock self) (key : DnsCacheKey) (apply : MapApply κ) :
    Sound (self.clock + 1) (self.remove_key key apply) := by
  rw [Responses.remove_key]
  split_ifs with hfree
  · obtain ⟨error, routing, heq, hsame⟩ | ⟨routing, heq, hrevisions⟩ :=
      self.routing.remove_entry_cases key apply
    · rw [heq]
      exact (h.set_routing hsame).later (le_succ _)
    · rw [heq]
      have hmarked : Sound self.clock _ := h.mark hrevisions (le_succ _) ?_ ?_
      · refine
          { hmarked.later (le_succ _) with
            overtaken := fun i a after hget hlive hepoch hover hafter => ?_
            past_removals := ?_
            removals := ?_ }
        · by_cases hkey : a.revision.key = key
          · -- the mark is on the removed key
            dsimp only [revisions] at hepoch hafter
            rw [hrevisions] at hepoch hafter
            rw [hkey, getElem?_modify, if_pos rfl] at hafter
            obtain ⟨before, _, rfl⟩ := map_eq_some_iff.mp hafter
            exact le_succ_of_le (h.sequences i a hget hepoch)
          · refine hmarked.overtaken i a after hget hlive hepoch ?_ hafter
            obtain hcommitted | ⟨t, hmem, hlt⟩ := hover
            · exact .inl hcommitted
            · obtain hnew | hold := List.mem_cons.mp hmem
              · exact absurd (congrArg Prod.fst hnew) hkey
              · exact .inr ⟨t, hold, hlt⟩
        · intro removal hmem
          obtain rfl | hold := List.mem_cons.mp hmem
          · exact lt_succ_self _
          · exact lt_succ_of_lt (h.past_removals removal hold)
        · intro i a s t hget hmem hlt hs
          obtain hnew | hold := List.mem_cons.mp hmem
          · cases hnew
            exact h.past i a s hget hs
          · exact h.removals i a s t hget hold hlt hs
      · intro other hnone
        rw [getElem?_modify] at hnone
        split_ifs at hnone with hother
        · exact map_eq_none_iff.mp hnone
        · exact hnone
      · intro other after hafter
        rw [getElem?_modify] at hafter
        split_ifs at hafter with hother
        · obtain ⟨before, hbefore, rfl⟩ := map_eq_some_iff.mp hafter
          exact ⟨before, hbefore, rfl, Nat.le_trans (Nat.min_le_right _ _) (le_succ _)⟩
        · exact ⟨after, hafter, rfl, Nat.min_le_left _ _⟩
  · exact h.later (le_succ _)

/-! ### Runs -/

omit h in
theorem step (h : Sound self.clock self) (event : ResponseEvent κ) :
    Sound (self.step event).clock (self.step event) := by
  have hact : Sound (self.clock + 1) (self.act event) := by
    cases event with
    | begin_response key => exact h.begin_response key
    | abandon i => exact h.abandon i
    | commit_begin i plan now apply => exact h.commit_begin i plan now apply
    | commit_end publish_response => exact (h.commit_end publish_response).later (le_succ _)
    | remove_key key apply => exact h.remove_key key apply
    | poison => exact h.poison.later (le_succ _)
    | other_generation fence kernel =>
      have hsame : { self.routing with fence, kernel }.response_revisions = self.revisions := rfl
      exact (h.set_routing hsame).later (le_succ _)
  exact { hact with }

omit h in
theorem run (routing : ResidentDnsDomainRouting κ) (events : List (ResponseEvent κ)) :
    Sound (run routing events).clock (run routing events) := by
  apply Run.invariant (P := fun _ state => Sound state.clock state)
  · exact Sound.start routing
  · intro _ state event h
    exact h.step event

/-- The table has an entry exactly for the keys with responses in progress. -/
theorem isSome_pending_iff (key : DnsCacheKey) :
    (self.revisions.pending[key]?).isSome = true ↔
      ∃ (i : Nat) (a : Response), self.responses[i]? = some a ∧ a.revision.key = key ∧
        a.live = true ∧ a.revision.epoch = self.revisions.epoch := by
  constructor
  · intro hsome
    obtain ⟨pending, hpending⟩ := Option.isSome_iff_exists.mp hsome
    obtain ⟨hpos, htotal⟩ := h.present key pending hpending
    by_contra hnone
    have hzero : total (in_progress self.revisions.epoch key) self.responses = 0 := by
      rw [total_eq_zero_iff]
      intro i a hget
      rw [in_progress, if_neg]
      rintro ⟨hlive, hepoch, hkey⟩
      exact hnone ⟨i, a, hget, hkey, hlive, hepoch⟩
    omega
  · rintro ⟨i, a, hget, rfl, hlive, hepoch⟩
    obtain ⟨pending, hpending⟩ := h.pending_of_live hget hlive hepoch
    rw [hpending]
    rfl

end Sound

/-- Only a poisoned lock changes the table's identity. -/
theorem epoch_act (self : Responses κ) {event : ResponseEvent κ} (hevent : event ≠ .poison) :
    (self.act event).routing.response_revisions.epoch = self.revisions.epoch := by
  cases event with
  | begin_response key =>
    have hepoch := self.revisions.epoch_begin key
    rw [act]
    fun_cases self.begin_response key with
    | case1 _ _ hbegin | case2 _ _ hbegin => rwa [hbegin] at hepoch
  | abandon i =>
    rw [act]
    fun_cases self.abandon i with
    | case2 => exact epoch_drop
    | _ => rfl
  | commit_begin i plan now apply =>
    have hrevisions := fun a : Response => self.routing.revisions_commit_begin plan a.revision now apply
    rw [act]
    fun_cases self.commit_begin i plan now apply with
    | case2 a _ _ _ hbegin
    | case3 a _ _ _ _ _ hbegin => exact congrArg (·.epoch) (hbegin ▸ hrevisions a)
    | _ => rfl
  | commit_end publish_response =>
    rw [act]
    fun_cases self.commit_end publish_response with
    | case3 =>
      rw [ResidentDnsDomainRouting.response_revisions_commit_end]
      exact epoch_committed
    | _ => rfl
  | remove_key key apply =>
    rw [act, Responses.remove_key]
    split_ifs with hfree
    · obtain ⟨error, routing, heq, hsame⟩ | ⟨routing, heq, hrevisions⟩ :=
        self.routing.remove_entry_cases key apply
      · rw [heq]
        exact congrArg epoch hsame
      · rw [heq]
        rw [hrevisions]
    · rfl
  | poison => exact absurd rfl hevent
  | other_generation fence kernel => rfl

theorem epoch_run (routing : ResidentDnsDomainRouting κ) (events : List (ResponseEvent κ)) :
    (∀ event ∈ events, event ≠ .poison) → (run routing events).routing.response_revisions.epoch = 0 := by
  apply Run.invariant (P := fun (events : List (ResponseEvent κ)) (state : Responses κ) =>
    (∀ event ∈ events, event ≠ .poison) → state.revisions.epoch = 0)
  · intro _
    rfl
  · intro events state event ih hevents
    have hlast := hevents event (List.mem_append_right _ (List.mem_singleton.mpr rfl))
    exact (state.epoch_act hlast).trans
      (ih fun other hmem => hevents other (List.mem_append_left _ hmem))

/-- Of two responses of a key that both commit, the one that began first commits first; a response
that commits at all does so before every later removal of its key. The table has an entry for a key
exactly while a response of the key is in progress; responses begun before a poisoned lock are no
longer known to the table. -/
theorem commits_respect_response_order (routing : ResidentDnsDomainRouting κ)
    (events : List (ResponseEvent κ)) :
    (∀ (i j : Nat) a b s t, (run routing events).responses[i]? = some a →
      (run routing events).responses[j]? = some b → i < j → a.revision.key = b.revision.key →
      a.committed = some s → b.committed = some t → s < t) ∧
    (∀ (i : Nat) a s t, (run routing events).responses[i]? = some a →
      (a.revision.key, t) ∈ (run routing events).removals → i < t → a.committed = some s → s < t) ∧
    (∀ key : DnsCacheKey,
      ((run routing events).routing.response_revisions.pending[key]?).isSome = true ↔
        ∃ (i : Nat) (a : Response), (run routing events).responses[i]? = some a ∧
          a.revision.key = key ∧ a.live = true ∧
          a.revision.epoch = (run routing events).routing.response_revisions.epoch) ∧
    ((∀ event ∈ events, event ≠ .poison) → ∀ key : DnsCacheKey,
      ((run routing events).routing.response_revisions.pending[key]?).isSome = true ↔
        ∃ (i : Nat) (a : Response), (run routing events).responses[i]? = some a ∧
          a.revision.key = key ∧ a.live = true) := by
  have h := Sound.run routing events
  refine ⟨h.commits, h.removals, h.isSome_pending_iff, ?_⟩
  intro hevents key
  rw [h.isSome_pending_iff]
  constructor
  · rintro ⟨i, a, hget, hkey, hlive, _⟩
    exact ⟨i, a, hget, hkey, hlive⟩
  · rintro ⟨i, a, hget, hkey, hlive⟩
    have hle := h.epochs i a hget
    rw [epoch_run routing events hevents] at hle ⊢
    exact ⟨i, a, hget, hkey, hlive, Nat.le_zero.mp hle⟩

end Responses

end DaeNext.Dns
