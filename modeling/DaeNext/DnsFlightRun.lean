/-
Runs of DNS flights.

All that a step of a leader or a follower changes is the record of its own flight, the registry
entry of that flight and the counter of bytes. So there is one invariant of a single record
(`Flight.Ok`), and one lemma that puts a changed record back (`Sound.set`): the registry has exactly
the flights whose leader has neither published nor been dropped, and the counter is the sum of
the leases.

A follower looks at the outcome after it has registered, and the outcome is there before the
notification. So once the leader is through, a follower that still waits was woken (`woken`), and
finds an outcome in its next turn (`late`).
-/
import DaeNext.DnsFlight

set_option autoImplicit false

namespace DaeNext.Dns

open Table Flight
open List hiding all_eq_true getElem?_insert
open Option hiding all_eq_true

/-! ## One flight -/

variable {outcome : ResidentDnsFlightOutcome} {index : Nat} {before : Follower}

namespace Flight

variable {Key : Type}

/-- The leader has not stored an outcome. -/
def early (flight : Flight Key) : Bool :=
  match flight.leader with
  | .Idle => !flight.published
  | .Counting _ | .Reserving _ | .Storing _ _ => true
  | .Notifying _ | .Removing _ | .Gone => false

/-- The leader has notified, or had nobody to notify. -/
def notified (flight : Flight Key) : Bool :=
  match flight.leader with
  | .Idle => flight.published
  | .Removing _ | .Gone => true
  | .Counting _ | .Reserving _ | .Storing _ _ | .Notifying _ => false

/-- An outcome that comes from the leader: its termination, its result, or that there was no
room for its result. -/
def Content (publication : Option (Except String (List UInt8))) (outcome : ResidentDnsFlightOutcome) :
    Prop :=
  publication = none ∧ outcome = terminated ∨
  ∃ result, publication = some result ∧ outcome.leader_terminated = false ∧
    (outcome.result = result ∨ outcome.result = .error byte_limit_reached)

def Justified (publication : Option (Except String (List UInt8))) (returned : Returned) : Prop :=
  returned.result = .error (.Failed deadline_expired) ∨
  ∃ outcome, Content publication outcome ∧
    returned.result = wait_result outcome returned.request_id

structure Ok (limit : Nat) (flight : Flight Key) : Prop where
  count : flight.followers = flight.members.countP live
  bound : flight.followers ≤ limit
  early : flight.early = true → flight.outcome = none
  late : flight.early = false → ∀ follower ∈ flight.members, live follower = true →
    flight.outcome ≠ none
  woken : flight.notified = true → ∀ follower ∈ flight.members, follower.phase = .Parked →
    follower.woken = true
  unpublished : flight.open_ = true → flight.publication = none
  given : ∀ result, flight.leader = .Counting result ∨ flight.leader = .Reserving result →
    flight.publication = some result
  marked : flight.leader = .Removing false → flight.published = true
  content : ∀ outcome, flight.outcome = some outcome → Content flight.publication outcome
  storing : ∀ dropping outcome, flight.leader = .Storing dropping outcome →
    Content flight.publication outcome
  quiet : flight.early = true → ∀ returned ∈ flight.returned,
    returned.result = .error (.Failed deadline_expired)
  returned : ∀ returned ∈ flight.returned, Justified flight.publication returned

namespace Ok

variable {limit : Nat} {flight : Flight Key}

theorem new (limit : Nat) (key : Key) (detached : Bool) :
    Ok limit (DnsFlights.new_flight key detached) where
  count := rfl
  bound := Nat.zero_le _
  early := fun _ => rfl
  late := nofun
  woken := nofun
  unpublished := fun _ => rfl
  given := by rintro _ (h | h) <;> cases h
  marked := nofun
  content := nofun
  storing := nofun
  quiet := nofun
  returned := nofun

theorem open_iff : flight.open_ = true ↔ flight.leader = .Idle ∧ flight.published = false := by
  rw [open_, Bool.and_eq_true, decide_eq_true_iff, Bool.not_eq_true']

theorem early_of_open (hopen : flight.open_ = true) : flight.early = true := by
  obtain ⟨hleader, hpublished⟩ := open_iff.mp hopen
  rw [Flight.early, hleader, hpublished]
  rfl

theorem early_of_notified (hnotified : flight.notified = true) : flight.early = false := by
  rw [notified] at hnotified
  rw [Flight.early]
  cases hleader : flight.leader with
  | Idle =>
    rw [hleader] at hnotified
    dsimp only at hnotified ⊢
    rw [hnotified, Bool.not_true]
  | Notifying dropping | Removing dropping | Gone => rfl
  | _ =>
    rw [hleader] at hnotified
    cases hnotified

variable (h : Ok limit flight)

include h

theorem join (hopen : flight.open_ = true) (hroom : flight.followers < limit) :
    Ok limit
      { flight with
        followers := flight.followers + 1
        members := flight.members ++ [{ phase := .Idle, woken := false }] } := by
  have hearly := early_of_open hopen
  refine { h with count := ?_, bound := hroom, late := ?_, woken := ?_ }
  · rw [countP_append, h.count]
    rfl
  · intro hlate
    exact absurd (hlate.symm.trans hearly) Bool.false_ne_true
  · intro hnotified
    exact absurd ((early_of_notified hnotified).symm.trans hearly) Bool.false_ne_true

/-! ### The leader -/

variable {leader : LeaderPhase}

/-- The leader goes on to a phase before the store. -/
theorem to_early (hearly : flight.early = true)
    {publication : Option (Except String (List UInt8))} (hne : leader ≠ .Idle)
    (hstill : Flight.early { flight with leader, publication } = true)
    (hgiven : ∀ result, leader = .Counting result ∨ leader = .Reserving result →
      publication = some result)
    (hstoring : ∀ dropping outcome, leader = .Storing dropping outcome → Content publication outcome) :
    Ok limit { flight with leader, publication } := by
  have hnone := h.early hearly
  refine
    { h with
      early := fun _ => hnone
      late := fun hlate => absurd (hlate.symm.trans hstill) Bool.false_ne_true
      woken := fun hnotified =>
        absurd ((early_of_notified hnotified).symm.trans hstill) Bool.false_ne_true
      unpublished := fun hopen => absurd (open_iff.mp hopen).1 hne
      given := hgiven
      marked := ?_
      content := ?_
      storing := hstoring
      quiet := fun _ => h.quiet hearly
      returned := fun returned hmem => .inl (h.quiet hearly returned hmem) }
  · rintro rfl
    cases hstill
  · intro outcome hsome
    rw [hnone] at hsome
    cases hsome

theorem publish (hopen : flight.open_ = true) (result : Except String (List UInt8)) :
    Ok limit { flight with leader := .Counting result, publication := some result } := by
  refine h.to_early (early_of_open hopen) nofun rfl ?_ nofun
  rintro other (hother | hother) <;> cases hother
  rfl

theorem count_some {result : Except String (List UInt8)} (hleader : flight.leader = .Counting result) :
    Ok limit { flight with leader := .Reserving result } := by
  refine h.to_early (by rw [Flight.early, hleader]) nofun rfl ?_ nofun
  rintro other (hother | hother) <;> cases hother
  exact h.given result (.inl hleader)

/-- The leader has made an outcome. -/
theorem to_storing (hearly : flight.early = true) (dropping : Bool)
    (hcontent : Content flight.publication outcome) :
    Ok limit { flight with leader := .Storing dropping outcome } := by
  refine h.to_early hearly nofun rfl (by rintro _ (h | h) <;> cases h) ?_
  rintro _ _ ⟨⟩
  exact hcontent

/-- The leader goes on to a phase after the store, or had nothing to store. -/
theorem to_late {published : Bool} {outcome : Option ResidentDnsFlightOutcome}
    (hlate : Flight.early { flight with leader, published } = false)
    (hlive : ∀ follower ∈ flight.members, live follower = true → outcome ≠ none)
    (hwoken : notified { flight with leader, published } = true →
      ∀ follower ∈ flight.members, follower.phase = .Parked → follower.woken = true)
    (hmarked : leader = .Removing false → published = true)
    (hcontent : ∀ value, outcome = some value → Content flight.publication value) :
    Ok limit { flight with leader, published, outcome } := by
  refine
    { h with
      early := fun hearly => absurd (hlate.symm.trans hearly) Bool.false_ne_true
      late := fun _ => hlive
      woken := hwoken
      unpublished := ?_
      given := ?_
      marked := hmarked
      content := hcontent
      storing := ?_
      quiet := fun hearly => absurd (hlate.symm.trans hearly) Bool.false_ne_true }
  · intro hopen
    obtain ⟨rfl, rfl⟩ := open_iff.mp hopen
    cases hlate
  · rintro result (rfl | rfl) <;> cases hlate
  · rintro dropping value rfl
    cases hlate

theorem count_none (hzero : flight.followers = 0) :
    Ok limit { flight with leader := .Idle, published := true } := by
  -- there is no follower that could wait
  have hgone : ∀ follower ∈ flight.members, live follower = false := by
    rw [h.count, countP_eq_zero] at hzero
    intro follower hmem
    exact Bool.eq_false_iff.mpr (hzero follower hmem)
  refine h.to_late rfl ?_ ?_ nofun h.content
  · intro follower hmem hlive
    rw [hgone follower hmem] at hlive
    cases hlive
  · intro _ follower hmem hparked
    have hnot := hgone follower hmem
    rw [live, hparked] at hnot
    cases hnot

theorem store {dropping : Bool} (hleader : flight.leader = .Storing dropping outcome) :
    Ok limit { flight with leader := .Notifying dropping, outcome := some outcome } := by
  refine h.to_late rfl (fun _ _ _ => some_ne_none _) nofun nofun ?_
  rintro other ⟨⟩
  exact h.storing dropping outcome hleader

omit h in
theorem live_woken (follower : Follower) : live (Flight.woken follower) = live follower := by
  obtain ⟨phase, woken⟩ := follower
  cases phase with
  | Idle | Registered | Parked | Gone => rfl

theorem notify {dropping : Bool} (hleader : flight.leader = .Notifying dropping) :
    Ok limit
      { flight with
        leader := .Removing dropping
        published := flight.published || !dropping
        members := flight.members.map Flight.woken } := by
  have hlate : flight.early = false := by rw [Flight.early, hleader]
  have hwoken : ∀ follower ∈ flight.members.map Flight.woken, follower.phase = .Parked →
      follower.woken = true := by
    intro follower hmem hparked
    obtain ⟨⟨phase, woken⟩, _, rfl⟩ := mem_map.mp hmem
    cases phase with
    | Idle | Gone => cases hparked
    | Registered | Parked => rfl
  have hmembers : Ok limit { flight with members := flight.members.map Flight.woken } := by
    refine { h with count := ?_, late := ?_, woken := fun _ => hwoken }
    · rw [countP_map, h.count]
      apply countP_congr
      intro follower _
      rw [Function.comp_apply, live_woken]
    · intro _ follower hmem hlive
      obtain ⟨before, hbefore, rfl⟩ := mem_map.mp hmem
      rw [live_woken] at hlive
      exact h.late hlate before hbefore hlive
  refine hmembers.to_late rfl (hmembers.late hlate) (fun _ => hwoken) ?_ h.content
  rintro ⟨⟩
  exact Bool.or_true _

/-- The leader is through: with its publication, or gone. -/
theorem through (hnotified : flight.notified = true) (hlate : flight.early = false)
    (hleader : leader = .Idle ∧ flight.published = true ∨ leader = .Gone) :
    Ok limit { flight with leader } := by
  refine h.to_late ?_ (h.late hlate) (fun _ => h.woken hnotified) ?_ h.content
  · obtain ⟨rfl, hpublished⟩ | rfl := hleader
    · rw [Flight.early, hpublished]
      rfl
    · rfl
  · rintro rfl
    obtain ⟨hidle, _⟩ | hgone := hleader
    · cases hidle
    · cases hgone

theorem freed : Ok limit flight.freed := by
  rw [Flight.freed]
  split_ifs with hgone
  · obtain ⟨hleader, hall⟩ := hgone
    rw [List.all_eq_true] at hall
    refine
      { h with
        early := fun _ => rfl
        late := ?_
        content := nofun }
    intro _ follower hmem hlive
    have hnot := hall follower hmem
    rw [hlive] at hnot
    cases hnot
  · exact h

/-! ### Followers -/

theorem set_member {after : Follower} (hmember : flight.members[index]? = some before)
    (hlive : live before = true) (hafter : live after = true)
    (hwoken : flight.notified = true → after.phase = .Parked → after.woken = true) :
    Ok limit (flight.set_member index after) := by
  obtain ⟨hlt, hget⟩ := List.getElem?_eq_some_iff.mp hmember
  refine { h with count := ?_, late := ?_, woken := ?_ }
  · have hpos : 0 < flight.members.countP live :=
      countP_pos_iff.mpr ⟨before, mem_of_getElem? hmember, hlive⟩
    rw [Flight.set_member]
    rw [countP_set hlt, hget, hlive, hafter, h.count]
    simp only [if_true]
    omega
  · intro hlate follower hmem hfollower
    exact h.late hlate before (mem_of_getElem? hmember) hlive
  · intro hnotified follower hmem hparked
    obtain hold | rfl := mem_or_eq_of_mem_set hmem
    · exact h.woken hnotified follower hold hparked
    · exact hwoken hnotified hparked

theorem give {request_id : UInt16} {result : Except ResidentDnsFlightWaitError (List UInt8)}
    (hjustified : Justified flight.publication { follower := index, request_id, result })
    (hearly : flight.early = true → result = .error (.Failed deadline_expired)) :
    Ok limit (flight.give index request_id result) := by
  refine { h with quiet := ?_, returned := ?_ }
  · intro hstill other hmem
    obtain hold | hnew := mem_append.mp hmem
    · exact h.quiet hstill other hold
    · rw [mem_singleton.mp hnew]
      exact hearly hstill
  · intro other hmem
    obtain hold | hnew := mem_append.mp hmem
    · exact h.returned other hold
    · rw [mem_singleton.mp hnew]
      exact hjustified

theorem drop_follower (hmember : flight.members[index]? = some before) (hlive : live before = true) :
    Ok limit { flight.set_member index { phase := .Gone, woken := false } with
        followers := flight.followers - 1 } := by
  obtain ⟨hlt, hget⟩ := List.getElem?_eq_some_iff.mp hmember
  refine { h with count := ?_, bound := ?_, late := ?_, woken := ?_ }
  · rw [Flight.set_member]
    rw [countP_set hlt, hget, hlive, h.count]
    simp [live]
  · exact Nat.le_trans (Nat.sub_le _ _) h.bound
  · intro hlate follower hmem hfollower
    exact h.late hlate before (mem_of_getElem? hmember) hlive
  · intro hnotified follower hmem hparked
    obtain hold | rfl := mem_or_eq_of_mem_set hmem
    · exact h.woken hnotified follower hold hparked
    · cases hparked

end Ok

end Flight

/-! ## All flights -/

namespace DnsFlights

open Flight (Ok)

variable {Key : Type} [Ord Key]

structure Sound (limits : ResidentDnsFlightLimits) (cache : DnsFlights Key) : Prop where
  limited : cache.limits = limits
  flights : ∀ (id : Nat) flight, cache.flights[id]? = some flight →
    Ok cache.limits.flight_follower_limit flight
  registry : ∀ (key : Key) id, cache.inflight[key]? = some id
    ↔ ∃ flight, cache.flights[id]? = some flight ∧ flight.key = key ∧ flight.registered = true
  fresh : ∀ (id : Nat) flight, cache.flights[id]? = some flight → id < cache.next
  budget : cache.current = Table.total Flight.lease cache.flights
  within : cache.current ≤ cache.limits.flight_retained_bytes

variable {limits : ResidentDnsFlightLimits} {self : DnsFlights Key} {id : Nat} {flight : Flight Key}

/-- What holds now and after the change of each flight's record holds after an update. -/
theorem update_rule {P : DnsFlights Key → Prop} {change : Flight Key → DnsFlights Key} (h : P self)
    (hchange : ∀ flight, self.flights[id]? = some flight → P (change flight)) :
    P (self.update id change) := by
  rw [update]
  cases hget : self.flights[id]? with
  | none => exact h
  | some flight => exact hchange flight hget

variable {change : Flight Key → Follower → DnsFlights Key}

theorem at_member_rule {P : DnsFlights Key → Prop} {phase : FollowerPhase}
    (h : P self) (hchange : ∀ flight follower, self.flights[id]? = some flight →
      flight.members[index]? = some follower → follower.phase = phase → P (change flight follower))
    : P (self.at_member id index phase change) := by
  refine update_rule h fun flight hget => ?_
  cases hmember : flight.members[index]? with
  | none => exact h
  | some follower =>
    dsimp only
    split_ifs with hphase
    · exact hchange flight follower hget hmember hphase
    · exact h

omit [Ord Key] in
theorem not_registered {leader : LeaderPhase} (hleader : flight.leader = leader) (hne : leader ≠ .Idle) :
    flight.registered = false := by
  rw [registered, open_, hleader, decide_eq_false hne]
  exact Bool.and_false _

omit [Ord Key] in
theorem still_not_registered {leader : LeaderPhase} {after : Flight Key}
    (hleader : flight.leader = leader) (hne : leader ≠ .Idle) (hafter : after.leader ≠ .Idle) :
    after.registered = flight.registered := by
  rw [not_registered hleader hne, not_registered rfl hafter]

namespace Sound

variable (h : Sound limits self)

include h

/-- The entry of a flight that is not registered is not there to be removed. -/
theorem remove_registry_entry_eq (hget : self.flights[id]? = some flight)
    (hreg : flight.registered = false) : self.remove_registry_entry id flight = self := by
  rw [remove_registry_entry]
  split_ifs with hdetached hentry
  · rfl
  · obtain ⟨value, hvalue, _, hyes⟩ := (h.registry flight.key id).mp hentry
    rw [hget] at hvalue
    cases hvalue
    rw [hreg] at hyes
    cases hyes
  · rfl

variable {key : Key}

section

variable [DecidableEq Key] {after : Flight Key}

section

variable (hget : self.flights[id]? = some flight)

include hget

section

variable (hok : Ok self.limits.flight_follower_limit after) (hkey : after.key = flight.key)

include hok hkey

/-- A flight's record is replaced; where it is not registered any more its registry entry goes. -/
theorem set {inflight : Table Key Nat} (hinflight : ∀ (key : Key), inflight[key]? =
      if key = flight.key ∧ flight.registered = true ∧ after.registered = false then none
      else self.inflight[key]?) (hregistered : after.registered = true → flight.registered = true)
    {current : Nat} (hcurrent : current + flight.lease = self.current + after.lease)
    (hle : current ≤ self.limits.flight_retained_bytes) :
    Sound limits { self with inflight, flights := self.flights.insert id after, current } where
  limited := h.limited
  flights := forall_insert hok h.flights
  registry := by
    intro key other
    rw [hinflight key]
    by_cases hgone : key = flight.key ∧ flight.registered = true ∧ after.registered = false
    · obtain ⟨rfl, hwas, hnot⟩ := hgone
      rw [if_pos ⟨rfl, hwas, hnot⟩]
      -- the only flight under the key was this one
      have hthis := (h.registry flight.key id).mpr ⟨flight, hget, rfl, hwas⟩
      constructor
      · nofun
      · rintro ⟨value, hvalue, hsame, hreg⟩
        obtain ⟨hother, rfl⟩ | ⟨hother, hvalue⟩ := getElem?_insert_cases hvalue
        · rw [hnot] at hreg
          cases hreg
        · have hthat := (h.registry flight.key other).mpr ⟨value, hvalue, hsame, hreg⟩
          rw [hthis] at hthat
          exact absurd (some.inj hthat).symm hother
    · rw [if_neg hgone, h.registry key other]
      constructor
      · rintro ⟨value, hvalue, hsame, hreg⟩
        by_cases hother : other = id
        · rw [hother, hget] at hvalue
          cases hvalue
          refine ⟨after, by rw [getElem?_insert, if_pos hother], hkey.trans hsame, ?_⟩
          by_contra hnot
          exact hgone ⟨hsame.symm, hreg, Bool.eq_false_iff.mpr hnot⟩
        · exact ⟨value, by rw [getElem?_insert, if_neg hother]; exact hvalue, hsame, hreg⟩
      · rintro ⟨value, hvalue, hsame, hreg⟩
        obtain ⟨hother, rfl⟩ | ⟨hother, hvalue⟩ := getElem?_insert_cases hvalue
        · exact ⟨flight, by rw [hother, hget], hkey.symm.trans hsame, hregistered hreg⟩
        · exact ⟨value, hvalue, hsame, hreg⟩
  fresh := forall_insert (h.fresh id flight hget) h.fresh
  budget := by
    have hbudget := h.budget
    rw [total_eq_add_erase lease hget] at hbudget
    dsimp only
    rw [total_insert]
    omega
  within := hle

variable (hregistered : after.registered = flight.registered)

include hregistered

theorem set_same {current : Nat} (hcurrent : current + flight.lease = self.current + after.lease)
    (hle : current ≤ self.limits.flight_retained_bytes) :
    Sound limits ({ self with current }.set id after) := by
  refine h.set hget hok hkey ?_ (fun hreg => hregistered ▸ hreg) hcurrent hle
  intro key
  rw [if_neg]
  rintro ⟨_, hwas, hnot⟩
  rw [hregistered, hwas] at hnot
  cases hnot

theorem set_plain (hlease : after.lease = flight.lease) : Sound limits (self.set id after) :=
  h.set_same hget hok hkey hregistered (by rw [hlease]) h.within

theorem free (hlease : after.lease = flight.lease) : Sound limits (self.free id after) := by
  have hkeep : after.freed.key = after.key ∧ after.freed.registered = after.registered ∧
      after.freed.lease ≤ after.lease := by
    rw [Flight.freed]
    split_ifs with hgone
    · refine ⟨rfl, rfl, ?_⟩
      rw [lease, lease]
      dsimp only
      omega
    · exact ⟨rfl, rfl, le_rfl⟩
  have hshare : flight.lease ≤ self.current := by
    rw [h.budget, total_eq_add_erase lease hget]
    exact Nat.le_add_right _ _
  apply h.set_same hget hok.freed (hkeep.1.trans hkey) (hkeep.2.1.trans hregistered)
  · omega
  · exact Nat.le_trans (Nat.sub_le _ _) h.within

end

/-! ### A leader at work -/

omit hget in
theorem count : Sound limits (self.count id) := by
  refine update_rule h fun flight hget => ?_
  have hok := h.flights id flight hget
  cases hleader : flight.leader with
  | Counting result =>
    split_ifs with hzero
    · apply h.set_plain hget (hok.count_none hzero) rfl
      · rw [not_registered hleader nofun]
        exact Bool.and_false _
      · rw [lease, lease, hleader]
    · apply h.set_plain hget (hok.count_some hleader) rfl (still_not_registered hleader nofun nofun)
      rw [lease, lease, hleader]
  | _ => exact h

omit hget in
theorem reserve : Sound limits (self.reserve id) := by
  refine update_rule h fun flight hget => ?_
  have hok := h.flights id flight hget
  cases hleader : flight.leader with
  | Reserving result =>
    have hgiven := hok.given result (.inr hleader)
    have hearly : flight.early = true := by rw [Flight.early, hleader]
    have hnone := hok.early hearly
    dsimp only
    split_ifs with hroom
    · apply h.set_same hget
        (hok.to_storing hearly false (.inr ⟨result, hgiven, rfl, .inl rfl⟩)) rfl
        (still_not_registered hleader nofun nofun)
      · rw [lease, lease, hleader]
        rw [hnone]
        simp
      · exact hroom
    · apply h.set_plain hget
        (hok.to_storing hearly false (.inr ⟨result, hgiven, rfl, .inr rfl⟩)) rfl
        (still_not_registered hleader nofun nofun)
      rw [lease, lease, hleader]
      rfl
  | _ => exact h

omit hget in
theorem store : Sound limits (self.store id) := by
  refine update_rule h fun flight hget => ?_
  have hok := h.flights id flight hget
  cases hleader : flight.leader with
  | Storing dropping outcome =>
    have hearly : flight.early = true := by rw [Flight.early, hleader]
    have hnone := hok.early hearly
    dsimp only
    rw [if_pos hnone]
    apply h.set_plain hget (hok.store hleader) rfl (still_not_registered hleader nofun nofun)
    rw [lease, lease, hleader, hnone]
    simp
  | _ => exact h

omit hget in
theorem notify : Sound limits (self.notify id) := by
  refine update_rule h fun flight hget => ?_
  cases hleader : flight.leader with
  | Notifying dropping =>
    apply h.set_plain hget ((h.flights id flight hget).notify hleader) rfl
      (still_not_registered hleader nofun nofun)
    rw [lease, lease, hleader]
  | _ => exact h

omit hget in
theorem remove : Sound limits (self.remove id) := by
  refine update_rule h fun flight hget => ?_
  have hok := h.flights id flight hget
  cases hleader : flight.leader with
  | Removing dropping =>
    have hnotified : flight.notified = true := by rw [notified, hleader]
    have hlate : flight.early = false := by rw [Flight.early, hleader]
    have hreg := not_registered hleader nofun
    dsimp only
    rw [h.remove_registry_entry_eq hget hreg]
    split_ifs with hdropping
    · apply h.free hget (hok.through hnotified hlate (.inr rfl)) rfl
      · rw [hreg]
        exact not_registered rfl nofun
      · rw [lease, lease, hleader]
    · rw [Bool.not_eq_true] at hdropping
      subst hdropping
      have hpublished := hok.marked hleader
      apply h.set_plain hget (hok.through hnotified hlate (.inl ⟨rfl, hpublished⟩)) rfl
      · rw [hreg, registered, open_, hpublished]
        exact Bool.and_false _
      · rw [lease, lease, hleader]
  | _ => exact h

/-! ### Followers -/

omit hget in
theorem join (hentry : self.inflight[key]? = some id) : Sound limits (self.join id) := by
  obtain ⟨flight, hget, hkey, hreg⟩ := (h.registry key id).mp hentry
  rw [DnsFlights.join, update, hget]
  dsimp only
  split_ifs with hroom
  · exact h.set_plain hget ((h.flights id flight hget).join (Bool.and_eq_true_iff.mp hreg).2 hroom)
      rfl rfl rfl
  · exact h

theorem set_member {after : Follower} (hmember : flight.members[index]? = some before)
    (hbefore : before.phase ≠ .Gone) (hafter : after.phase ≠ .Gone)
    (hwoken : flight.notified = true → after.phase = .Parked → after.woken = true) :
    Sound limits (self.set id (flight.set_member index after)) :=
  h.set_plain hget
    ((h.flights id flight hget).set_member hmember (decide_eq_true hbefore) (decide_eq_true hafter)
      hwoken) rfl rfl rfl

theorem give (hmember : flight.members[index]? = some before) (hbefore : before.phase ≠ .Gone)
    {request_id : UInt16} {result : Except ResidentDnsFlightWaitError (List UInt8)}
    (hjustified : Flight.Justified flight.publication { follower := index, request_id, result })
    (hearly : flight.early = true → result = .error (.Failed deadline_expired)) :
    Sound limits (self.set id
      ((flight.set_member index { phase := .Idle, woken := false }).give index request_id result)) := by
  have hmoved : Ok self.limits.flight_follower_limit
      (flight.set_member index { phase := .Idle, woken := false }) :=
    (h.flights id flight hget).set_member hmember (decide_eq_true hbefore) rfl
      nofun
  exact h.set_plain hget (hmoved.give hjustified hearly) rfl rfl rfl

end

variable (index : Nat)

theorem enable : Sound limits (self.enable id index) := by
  refine at_member_rule h fun flight follower hget hmember hphase => ?_
  exact h.set_member hget hmember (by rw [hphase]; nofun) nofun fun _ hparked => (by cases hparked)

theorem check (request_id : UInt16) (expired : Bool) :
    Sound limits (self.check id index request_id expired) := by
  refine at_member_rule h fun flight follower hget hmember hphase => ?_
  have hok := h.flights id flight hget
  have hlive : follower.phase ≠ .Gone := by
    rw [hphase]
    nofun
  cases houtcome : flight.outcome with
  | some outcome =>
    refine h.give hget hmember hlive (.inr ⟨outcome, hok.content outcome houtcome, rfl⟩) ?_
    intro hearly
    rw [hok.early hearly] at houtcome
    cases houtcome
  | none =>
    split_ifs with hexpired
    · exact h.give hget hmember hlive (.inl rfl) fun _ => rfl
    · refine h.set_member hget hmember hlive nofun ?_
      -- without an outcome the leader cannot have notified
      intro hnotified _
      refine absurd houtcome (hok.late ?_ follower (mem_of_getElem? hmember)
        (decide_eq_true hlive))
      exact Ok.early_of_notified hnotified

theorem wake : Sound limits (self.wake id index) := by
  refine at_member_rule h fun flight follower hget hmember hphase => ?_
  split_ifs with hwoken
  · exact h.set_member hget hmember (by rw [hphase]; nofun) nofun fun _ hparked => (by cases hparked)
  · exact h

theorem timeout (request_id : UInt16) : Sound limits (self.timeout id index request_id) := by
  refine at_member_rule h fun flight follower hget hmember hphase => ?_
  exact h.give hget hmember (by rw [hphase]; nofun) (.inl rfl) fun _ => rfl

theorem drop_follower : Sound limits (self.drop_follower id index) := by
  refine update_rule h fun flight hget => ?_
  cases hmember : flight.members[index]? with
  | none => exact h
  | some follower =>
    dsimp only
    split_ifs with hlive
    · exact h.free hget ((h.flights id flight hget).drop_follower hmember hlive) rfl rfl rfl
    · exact h

end

variable [Std.TransOrd Key]

omit h in
theorem new (limits : ResidentDnsFlightLimits) (reuse : Key → Bool) :
    Sound { limits with flight_retained_bytes := max limits.flight_retained_bytes 1 }
      (new limits reuse) where
  limited := rfl
  flights := fun id flight h => absurd h empty_ne_some
  registry := by
    intro key id
    constructor
    · exact fun h => absurd h empty_ne_some
    · exact fun ⟨flight, h, _⟩ => absurd h empty_ne_some
  fresh := fun id flight h => absurd h empty_ne_some
  budget := rfl
  within := Nat.zero_le _

variable [Std.LawfulEqOrd Key] [DecidableEq Key]

theorem remove_set (hget : self.flights[id]? = some flight) {after : Flight Key}
    (hok : Ok self.limits.flight_follower_limit after) (hkey : after.key = flight.key)
    (hregistered : after.registered = false) (hlease : after.lease = flight.lease) :
    Sound limits ((self.remove_registry_entry id flight).set id after) := by
  rw [remove_registry_entry]
  split_ifs with hdetached hentry
  · apply h.set_plain hget hok hkey _ hlease
    rw [hregistered, registered, hdetached]
    rfl
  · refine h.set hget hok hkey ?_ (fun hreg => (by rw [hregistered] at hreg; cases hreg))
      (by rw [hlease]) h.within
    obtain ⟨value, hvalue, _, hreg⟩ := (h.registry flight.key id).mp hentry
    rw [hget] at hvalue
    cases hvalue
    intro key
    rw [getElem?_erase]
    by_cases hsame : key = flight.key
    · rw [if_pos hsame, if_pos ⟨hsame, hreg, hregistered⟩]
    · rw [if_neg hsame, if_neg (fun hall => hsame hall.1)]
  · apply h.set_plain hget hok hkey _ hlease
    rw [hregistered, eq_comm, Bool.eq_false_iff]
    intro hreg
    exact hentry ((h.registry flight.key id).mpr ⟨flight, hget, rfl, hreg⟩)

/-! ### The registry -/

theorem lead (key : Key) {detached : Bool} (hnone : detached = false → self.inflight[key]? = none) :
    Sound limits (self.lead key detached) := by
  have hnew : self.flights[self.next]? = none := getElem?_eq_none_of_lt h.fresh
  have hreg : (new_flight key detached).registered = !detached := Bool.and_true _
  refine ⟨h.limited, forall_insert (Ok.new _ key detached) h.flights, ?_, ?_, ?_, h.within⟩
  · intro other number
    dsimp only [DnsFlights.lead]
    -- the new flight is under its key, unless it is detached
    have hold : (∃ flight, (self.flights.insert self.next (new_flight key detached))[number]?
          = some flight ∧ flight.key = other ∧ flight.registered = true)
        ↔ number = self.next ∧ other = key ∧ detached = false ∨ self.inflight[other]? = some number := by
      rw [h.registry other number]
      constructor
      · rintro ⟨flight, hget, hkey, hflight⟩
        obtain ⟨hnumber, rfl⟩ | ⟨hnumber, hget⟩ := getElem?_insert_cases hget
        · rw [hreg, Bool.not_eq_true'] at hflight
          exact .inl ⟨hnumber, hkey.symm, hflight⟩
        · exact .inr ⟨flight, hget, hkey, hflight⟩
      · rintro (⟨rfl, rfl, rfl⟩ | ⟨flight, hget, hkey, hflight⟩)
        · exact ⟨_, by rw [getElem?_insert, if_pos rfl], rfl, hreg⟩
        · refine ⟨flight, ?_, hkey, hflight⟩
          rw [getElem?_insert, if_neg, hget]
          rintro rfl
          rw [hnew] at hget
          cases hget
    rw [hold]
    cases detached with
    | true => simp
    | false =>
      rw [if_neg Bool.false_ne_true, getElem?_insert]
      by_cases hkey : other = key
      · rw [if_pos hkey, hkey, hnone rfl]
        simp [eq_comm]
      · simp [hkey]
  · exact forall_insert (Nat.lt_succ_self _)
      fun other value hvalue => Nat.lt_succ_of_lt (h.fresh other value hvalue)
  · dsimp only [DnsFlights.lead]
    rw [total_insert_of_none _ hnew, h.budget]
    exact (Nat.zero_add _).symm

theorem begin_flight (key : Key) : Sound limits (self.begin_flight key) := by
  rw [DnsFlights.begin_flight]
  split_ifs with hreuse
  · cases hentry : self.inflight[key]? with
    | some flight => exact h.join hentry
    | none => exact h.lead key fun _ => hentry
  · exact h.lead key nofun

theorem publish (result : Except String (List UInt8)) : Sound limits (self.publish id result) := by
  refine update_rule h fun flight hget => ?_
  split_ifs with hopen
  · have hleader := (Flight.Ok.open_iff.mp hopen).1
    apply h.remove_set hget ((h.flights id flight hget).publish hopen result) rfl
    · exact not_registered rfl nofun
    · rw [lease, lease, hleader]
  · exact h

theorem drop_leader : Sound limits (self.drop_leader id) := by
  refine update_rule h fun flight hget => ?_
  have hok := h.flights id flight hget
  split_ifs with hleader hpublished
  · have hnotified : flight.notified = true := by rw [notified, hleader, hpublished]
    have hlate : flight.early = false := by rw [Flight.early, hleader, hpublished]; rfl
    apply h.free hget (hok.through hnotified hlate (.inr rfl)) rfl
    · have hgone : registered { flight with leader := .Gone } = false :=
        not_registered rfl nofun
      rw [hgone, registered, open_, hpublished]
      simp
    · rw [lease, lease, hleader]
  · rw [Bool.not_eq_true] at hpublished
    have hopen := Flight.Ok.open_iff.mpr ⟨hleader, hpublished⟩
    have hearly : flight.early = true := by rw [Flight.early, hleader, hpublished]; rfl
    apply h.remove_set hget (hok.to_storing hearly true (.inl ⟨hok.unpublished hopen, rfl⟩)) rfl
    · exact not_registered rfl nofun
    · rw [lease, lease, hleader]
      rfl
  · exact h

theorem step (event : FlightEvent Key) : Sound limits (self.step event) := by
  cases event with
  | begin_flight key => exact h.begin_flight key
  | publish flight result => exact h.publish result
  | count flight => exact h.count
  | reserve flight => exact h.reserve
  | store flight => exact h.store
  | notify flight => exact h.notify
  | remove flight => exact h.remove
  | drop_leader flight => exact h.drop_leader
  | enable flight index => exact h.enable index
  | check flight index request_id expired => exact h.check index request_id expired
  | wake flight index => exact h.wake index
  | timeout flight index request_id => exact h.timeout index request_id
  | drop_follower flight index => exact h.drop_follower index

omit h in
theorem run (limits : ResidentDnsFlightLimits) (reuse : Key → Bool) (events : List (FlightEvent Key)) :
    Sound { limits with flight_retained_bytes := max limits.flight_retained_bytes 1 }
      (run limits reuse events) :=
  Run.invariant (P := fun _ cache => Sound _ cache) (Sound.new limits reuse)
    (fun _ _ event h => h.step event) events

/-! ### Registrations -/

omit h in
/-- The registry entry of a flight is no other's to remove. -/
theorem remove_registry_entry_keeps {other : Nat} (hentry : self.inflight[key]? = some other)
    (hne : other ≠ id) : (self.remove_registry_entry id flight).inflight[key]? = some other := by
  rw [remove_registry_entry]
  split_ifs with hdetached hthis
  · exact hentry
  · rw [getElem?_erase, if_neg, hentry]
    rintro rfl
    rw [hentry] at hthis
    exact hne (some.inj hthis)
  · exact hentry

omit h in
theorem begin_flight_keeps {other : Key} (hentry : self.inflight[key]? = some id) :
    (self.begin_flight other).inflight[key]? = some id := by
  rw [DnsFlights.begin_flight]
  split_ifs with hreuse
  · cases hother : self.inflight[other]? with
    | some flight =>
      refine update_rule (P := fun cache => cache.inflight[key]? = some id) hentry ?_
      intro flight _
      split_ifs with hroom
      · exact hentry
      · exact hentry
    | none =>
      dsimp only [DnsFlights.lead]
      split_ifs with hdetached
      · exact hentry
      · rw [getElem?_insert, if_neg, hentry]
        rintro rfl
        rw [hentry] at hother
        cases hother
  · exact hentry

/-- Only its own leader's publication or drop ends a registration. -/
theorem keeps_registration (hentry : self.inflight[key]? = some id) (event : FlightEvent Key) :
    (self.step event).inflight[key]? = some id ∨ (∃ result, event = .publish id result) ∨
      event = .drop_leader id := by
  have hupdate : ∀ other change, (∀ flight, self.flights[other]? = some flight →
      (change flight).inflight[key]? = some id) →
      (self.update other change).inflight[key]? = some id :=
    fun _ _ => update_rule (P := fun cache => cache.inflight[key]? = some id) hentry
  cases event with
  | begin_flight other => exact .inl (begin_flight_keeps hentry)
  | publish other result =>
    by_cases hother : id = other
    · exact .inr (.inl ⟨result, by rw [hother]⟩)
    · refine .inl (hupdate _ _ fun flight _ => ?_)
      split_ifs with hopen
      · exact remove_registry_entry_keeps hentry hother
      · exact hentry
  | drop_leader other =>
    by_cases hother : id = other
    · exact .inr (.inr (by rw [hother]))
    · refine .inl (hupdate _ _ fun flight _ => ?_)
      split_ifs with hidle hpublished
      · exact hentry
      · exact remove_registry_entry_keeps hentry hother
      · exact hentry
  | remove other =>
    refine .inl (hupdate _ _ fun flight hget => ?_)
    cases hleader : flight.leader with
    | Removing dropping =>
      -- the entry went with the first removal; one that is there now is a replacement's
      dsimp only
      rw [h.remove_registry_entry_eq hget (not_registered hleader nofun)]
      split_ifs with hdropping
      · exact hentry
      · exact hentry
    | _ => exact hentry
  | count other | store other | notify other | drop_follower other index =>
    refine .inl (hupdate _ _ fun flight _ => ?_)
    repeat' split
    all_goals exact hentry
  | reserve other =>
    refine .inl (hupdate _ _ fun flight _ => ?_)
    split
    · dsimp only
      split_ifs <;> exact hentry
    · exact hentry
  | enable other index | timeout other index request_id =>
    exact .inl (at_member_rule (P := fun cache => cache.inflight[key]? = some id) hentry
      fun _ _ _ _ _ => hentry)
  | check other index request_id expired | wake other index =>
    refine .inl (at_member_rule (P := fun cache => cache.inflight[key]? = some id) hentry
      fun flight follower _ _ _ => ?_)
    repeat' split
    all_goals exact hentry

end Sound

/-! ## Waits that end -/

/-- One more turn of a follower's loop. -/
def turn (flight index : Nat) (request_id : UInt16) (expired : Bool) : List (FlightEvent Key) :=
  [.wake flight index, .enable flight index, .check flight index request_id expired]

/-- The flight has the outcome and the results, and the follower is at one of the places. -/
def Waiting (cache : DnsFlights Key) (id index : Nat) (outcome : ResidentDnsFlightOutcome)
    (returned : List Returned) (phases : List FollowerPhase) : Prop :=
  ∃ flight follower, cache.flights[id]? = some flight ∧ flight.outcome = some outcome ∧
    flight.returned = returned ∧ flight.members[index]? = some follower ∧ follower.phase ∈ phases

variable {follower : Follower}

section

variable {returned : List Returned}

theorem at_member_eq {phase : FollowerPhase} (hget : self.flights[id]? = some flight)
    (hmember : flight.members[index]? = some follower) :
    self.at_member id index phase change
      = if follower.phase = phase then change flight follower else self := by
  rw [at_member, update, hget]
  dsimp only
  rw [hmember]

theorem Waiting.set_member {after : Follower} (houtcome : flight.outcome = some outcome)
    (hmember : flight.members[index]? = some before) {phases : List FollowerPhase}
    (hphase : after.phase ∈ phases) :
    Waiting (self.set id (flight.set_member index after)) id index outcome flight.returned
      phases := by
  obtain ⟨hlt, _⟩ := List.getElem?_eq_some_iff.mp hmember
  refine ⟨flight.set_member index after, after, ?_, houtcome, rfl, ?_, hphase⟩
  · exact (getElem?_insert _ _ _ _).trans (if_pos rfl)
  · exact getElem?_set_self hlt

/-- A follower that was woken, or does not sleep, gets to the start of its loop or beyond. -/
theorem Waiting.wake (hget : self.flights[id]? = some flight)
    (houtcome : flight.outcome = some outcome) (hmember : flight.members[index]? = some follower)
    (hlive : live follower = true) (hwoken : follower.phase = .Parked → follower.woken = true) :
    Waiting (self.wake id index) id index outcome flight.returned [.Idle, .Registered] := by
  have hstays : follower.phase ∈ [FollowerPhase.Idle, .Registered] → follower.phase ≠ .Parked →
      Waiting (self.wake id index) id index outcome flight.returned [.Idle, .Registered] := by
    intro hphase hne
    rw [DnsFlights.wake, at_member_eq hget hmember, if_neg hne]
    exact ⟨flight, follower, hget, houtcome, rfl, hmember, hphase⟩
  cases hphase : follower.phase with
  | Idle | Registered => exact hstays (by rw [hphase]; decide) (by rw [hphase]; decide)
  | Parked =>
    rw [DnsFlights.wake, at_member_eq hget hmember, if_pos hphase, if_pos (hwoken hphase)]
    exact Waiting.set_member houtcome hmember mem_cons_self
  | Gone =>
    rw [live, hphase] at hlive
    cases hlive

theorem Waiting.enable (h : Waiting self id index outcome returned [.Idle, .Registered]) :
    Waiting (self.enable id index) id index outcome returned [.Registered] := by
  obtain ⟨flight, follower, hget, houtcome, rfl, hmember, hphase⟩ := h
  rw [DnsFlights.enable, at_member_eq hget hmember]
  split_ifs with hidle
  · exact Waiting.set_member houtcome hmember mem_cons_self
  · refine ⟨flight, follower, hget, houtcome, rfl, hmember, ?_⟩
    exact (mem_cons.mp hphase).resolve_left hidle

theorem Waiting.check (h : Waiting self id index outcome returned [.Registered])
    (request_id : UInt16) (expired : Bool) :
    ∃ flight, (self.check id index request_id expired).flights[id]? = some flight ∧
      flight.returned = returned
        ++ [{ follower := index, request_id, result := wait_result outcome request_id }] := by
  obtain ⟨flight, follower, hget, houtcome, rfl, hmember, hphase⟩ := h
  rw [DnsFlights.check, at_member_eq hget hmember, if_pos (mem_singleton.mp hphase), houtcome]
  exact ⟨_, (getElem?_insert _ _ _ _).trans (if_pos rfl), rfl⟩

end

/-- Once the leader is through, a follower needs nobody else. -/
theorem Sound.turn_returns (h : Sound limits self) (hget : self.flights[id]? = some flight)
    (hnotified : flight.notified = true) (hmember : flight.members[index]? = some follower)
    (hlive : live follower = true) (request_id : UInt16) (expired : Bool) :
    ∃ outcome after, flight.outcome = some outcome ∧
      (Run.after DnsFlights.step self (turn id index request_id expired)).flights[id]? = some after ∧
      after.returned = flight.returned
        ++ [{ follower := index, request_id, result := wait_result outcome request_id }] := by
  have hok := h.flights id flight hget
  have hmem := mem_of_getElem? hmember
  have hsome := hok.late (Ok.early_of_notified hnotified) follower hmem hlive
  obtain ⟨outcome, houtcome⟩ := Option.ne_none_iff_exists'.mp hsome
  have hwake := Waiting.wake hget houtcome hmember hlive (hok.woken hnotified follower hmem)
  obtain ⟨after, hafter, hreturned⟩ := hwake.enable.check request_id expired
  exact ⟨outcome, after, houtcome, hafter, hreturned⟩

/-! ## What a follower gets -/

omit [Ord Key] in
theorem result_cases {publication : Option (Except String (List UInt8))} {returned : Returned}
    (h : Flight.Justified publication returned) :
    returned.result = .error (.Failed deadline_expired) ∨
    publication = none ∧ returned.result = .error .LeaderTerminated ∨
    (∃ response, publication = some (.ok response) ∧ 2 ≤ response.length ∧
      returned.result = .ok (with_id response returned.request_id)) ∨
    (∃ response, publication = some (.ok response) ∧ response.length < 2 ∧
      returned.result = .error
        (.Failed "resident DNS flight response is too short to restore request id")) ∨
    (∃ error, publication = some (.error error) ∧ returned.result = .error (.Failed error)) ∨
    (∃ result, publication = some result ∧
      returned.result = .error (.Failed byte_limit_reached)) := by
  obtain hdeadline | ⟨outcome, hcontent, hresult⟩ := h
  · exact .inl hdeadline
  · obtain ⟨hnone, rfl⟩ | ⟨result, hsome, hleader, hfull | hlimit⟩ := hcontent
    · exact .inr (.inl ⟨hnone, hresult⟩)
    · rw [wait_result, hleader, restore_flight_response_id, hfull] at hresult
      cases result with
      | error error => exact .inr (.inr (.inr (.inr (.inl ⟨error, hsome, hresult⟩))))
      | ok response =>
        by_cases hshort : response.length < 2
        · dsimp only at hresult
          rw [if_pos hshort] at hresult
          exact .inr (.inr (.inr (.inl ⟨response, hsome, hshort, hresult⟩)))
        · dsimp only at hresult
          rw [if_neg hshort] at hresult
          exact .inr (.inr (.inl ⟨response, hsome, by omega, hresult⟩))
    · rw [wait_result, hleader, restore_flight_response_id, hlimit] at hresult
      exact .inr (.inr (.inr (.inr (.inr ⟨result, hsome, hresult⟩))))

/-- A follower that joined the flight of key 3 parks, and its leader publishes. -/
def published_run : List (FlightEvent Nat) :=
  [.begin_flight 3, .begin_flight 3, .enable 0 0, .check 0 0 7 false, .publish 0 (.ok [0, 1, 2]),
    .count 0, .reserve 0, .store 0, .notify 0]

end DnsFlights

end DaeNext.Dns
