/-
The fence before the domain routing map (`dae-resident-core/src/generation_fence.rs`,
`ResidentDomainRoutingMapOwner` of `dae-resident-dns/src/domain_routing.rs`).

Each generation of the resident runtime keeps an owner of its own. Only the active one writes the
kernel map; the others change their owner alone, and an activation brings the map to what the new
generation's tracker asks for. The fence remembers the map id it wrote last and a tracker of what
it wrote there.

Gate and fenced state are two locks in the source, always taken in this order; each call is one
step. What an operation captures is passed through it. `apply` and the events are taken out of
their `Option` once at most, so the errors about a reuse are not modelled.
-/
import DaeNext.DomainRoutingTracker
import DaeNext.LibRun

set_option autoImplicit false

namespace DaeNext.DomainRoutingFence

open DomainRouting DomainRoutingStaging Function DomainRoutingMirror DomainRoutingTracker
open DomainRoutingMirror (Mirrors Maps write_map apply_entries WorldInv live_after live_event)

/-! ## Generations -/

structure GenerationToken where
  physical : UInt64
  logical : UInt64
deriving DecidableEq

/-- A state of type `T` behind a gate. -/
structure GenerationFence (T : Type) where
  active : Option GenerationToken
  state : T

namespace GenerationFence

variable {T σ R ε : Type} (self : GenerationFence T)

def with_active (generation : GenerationToken) (captured : σ)
    (operation : T → σ → Except ε R × T × σ) : Except ε (Option R) × GenerationFence T × σ :=
  if self.active = some generation then
    match operation self.state captured with
    | (.error err, state, captured) => (.error err, { self with state }, captured)
    | (.ok value, state, captured) => (.ok (some value), { self with state }, captured)
  else (.ok none, self, captured)

def switch (generation : GenerationToken) (captured : σ)
    (operation : T → σ → Except ε R × T × σ) : Except ε R × GenerationFence T × σ :=
  match operation self.state captured with
  | (.error err, state, captured) => (.error err, { self with state }, captured)
  | (.ok value, state, captured) => (.ok value, { active := some generation, state }, captured)

end GenerationFence

/-! ## The map owner -/

structure ResidentDomainRoutingMapState where
  map_id : Option UInt32 := none
  tracker : DomainRoutingTracker := {}

abbrev ResidentDomainRoutingMapOwner := GenerationFence ResidentDomainRoutingMapState

section

variable {κ : Type}

/-- The callback of a generation that is not active. -/
def ignore (_ : UInt32) (_ : List DomainRoutingStateEntry) (_ : List DomainRoutingIpKey) (kernel : κ) :
    Except String Unit × κ :=
  (.ok (), kernel)

/-- What an event batch does behind the fence. -/
def apply_active (map_id : UInt32) (events : List DomainRoutingDnsEvent)
    (apply : UInt32 → List DomainRoutingStateEntry → List DomainRoutingIpKey → κ →
      Except String Unit × κ) (state : ResidentDomainRoutingMapState) (captured : DomainRoutingOwner × κ) :
    Except String (Option DomainRoutingOwnerApplyReport) × ResidentDomainRoutingMapState
      × (DomainRoutingOwner × κ) :=
  if state.map_id ≠ some map_id then (.ok none, state, captured)
  else
    match apply_dns_events_with captured.1 map_id events apply captured.2 with
    | (.error err, owner, kernel) => (.error err, state, owner, kernel)
    | (.ok report, owner, kernel) =>
      (.ok (some report),
        if report.owner_snapshot_changed then
          { state with tracker := state.tracker.sync_events events }
        else state,
        owner, kernel)

def apply_events_with (self : ResidentDomainRoutingMapOwner) (generation : GenerationToken)
    (map_id : UInt32) (owner : DomainRoutingOwner) (events : List DomainRoutingDnsEvent)
    (apply : UInt32 → List DomainRoutingStateEntry → List DomainRoutingIpKey → κ →
      Except String Unit × κ) (kernel : κ) :
    Except String Unit × ResidentDomainRoutingMapOwner × DomainRoutingOwner × κ :=
  match self.with_active generation (owner, kernel) (apply_active map_id events apply) with
  | (.error err, self, owner, kernel) => (.error err, self, owner, kernel)
  | (.ok (some (some _)), self, owner, kernel) => (.ok (), self, owner, kernel)
  | (.ok _, self, owner, kernel) =>
    match apply_dns_events_with owner map_id events ignore kernel with
    | (.error err, owner, kernel) => (.error err, self, owner, kernel)
    | (.ok _, owner, kernel) => (.ok (), self, owner, kernel)

/-- `apply_event_with`, which has the same body: a batch of one. -/
def apply_event_with (self : ResidentDomainRoutingMapOwner) (generation : GenerationToken)
    (map_id : UInt32) (owner : DomainRoutingOwner) (event : DomainRoutingDnsEvent)
    (apply : UInt32 → List DomainRoutingStateEntry → List DomainRoutingIpKey → κ →
      Except String Unit × κ) (kernel : κ) :
    Except String Unit × ResidentDomainRoutingMapOwner × DomainRoutingOwner × κ :=
  apply_events_with self generation map_id owner [event] apply kernel

/-- The difference on the map that was written last, the entries alone on another one. -/
def plan_activation (state : ResidentDomainRoutingMapState) (map_id : UInt32)
    (desired : DomainRoutingTracker) : DomainRoutingSyncPlan :=
  if state.map_id = some map_id then state.tracker.plan_transition desired
  else
    { updates := desired.entries
      deletes := []
      owner_count := desired.owner_count
      ip_count := desired.ip_count }

def activate_with (self : ResidentDomainRoutingMapOwner) (generation : GenerationToken)
    (map_id : UInt32) (owner : DomainRoutingOwner)
    (apply : UInt32 → List DomainRoutingStateEntry → List DomainRoutingIpKey → κ →
      Except String Unit × κ) (kernel : κ) :
    Except String Unit × ResidentDomainRoutingMapOwner × κ :=
  self.switch generation kernel fun state kernel =>
    let desired := owner.tracker
    let plan := plan_activation state map_id desired
    let (result, kernel) :=
      if plan.updates.isEmpty && plan.deletes.isEmpty then (.ok (), kernel)
      else apply map_id plan.updates plan.deletes kernel
    match result with
    | .error err => (.error err, state, kernel)
    | .ok () => (.ok (), { map_id := some map_id, tracker := desired }, kernel)

end

/-! ## Runs -/

structure World where
  fence : ResidentDomainRoutingMapOwner
  owners : GenerationToken → DomainRoutingOwner
  maps : Maps

inductive FenceCall where
  | apply_event (generation : GenerationToken) (event : DomainRoutingDnsEvent)
  | apply_events (generation : GenerationToken) (events : List DomainRoutingDnsEvent)
  | activate (generation : GenerationToken)

section

variable (map_id : GenerationToken → UInt32)

/-- A batch by a generation, on its own map with its own owner. -/
def step_events (generation : GenerationToken) (events : List DomainRoutingDnsEvent) (succeeds : Bool)
    (world : World) : Except String Unit × World :=
  let (result, fence, owner, maps) :=
    apply_events_with world.fence generation (map_id generation) (world.owners generation) events
      (write_map succeeds) world.maps
  (result, { fence, owners := Function.update world.owners generation owner, maps })

def step (call : FenceCall) (succeeds : Bool) (world : World) : Except String Unit × World :=
  match call with
  | .apply_event generation event =>
    let (result, fence, owner, maps) :=
      apply_event_with world.fence generation (map_id generation) (world.owners generation) event
        (write_map succeeds) world.maps
    (result, { fence, owners := Function.update world.owners generation owner, maps })
  | .apply_events generation events => step_events map_id generation events succeeds world
  | .activate generation =>
    let (result, fence, maps) :=
      activate_with world.fence generation (map_id generation) (world.owners generation)
        (write_map succeeds) world.maps
    (result, { world with fence, maps })

/-- No generation is active, nothing is owned and the maps are empty. -/
def World.initial : World where
  fence := { active := none, state := {} }
  owners := fun _ => {}
  maps := fun _ => {}

def run (calls : List (FenceCall × Bool)) : World :=
  Run.after (fun world call => (step map_id call.1 call.2 world).2) World.initial calls

/-- The map of the active generation has the merged entries of its tracker. -/
def Follows (world : World) : Prop :=
  ∀ generation, world.fence.active = some generation →
    Mirrors (world.maps (map_id generation)) (world.owners generation).tracker

/-- An activation that leaves the map written last finds no address in its own map that its
tracker does not have. -/
def Meets (world : World) : FenceCall → Prop
  | .activate generation => world.fence.state.map_id ≠ some (map_id generation) →
      ∀ ip : DomainRoutingIpKey, ((world.maps (map_id generation))[ip]?).isSome →
        ((world.owners generation).tracker.ips[ip]?).isSome
  | .apply_event _ _ | .apply_events _ _ => True

end

/-! ## One batch of an owner -/

variable {owner : DomainRoutingOwner} {events : List DomainRoutingDnsEvent}
  {report : DomainRoutingOwnerApplyReport}

section

variable {κ : Type} {after : DomainRoutingOwner} {map_id : UInt32} {kernel left : κ}
  {apply : UInt32 → List DomainRoutingStateEntry → List DomainRoutingIpKey → κ →
    Except String Unit × κ}

theorem apply_dns_events_ok
    (h : apply_dns_events_with owner map_id events apply kernel = (.ok report, after, left)) :
    ∃ collected, collect_replacements events {} = .ok collected ∧
      report.owner_snapshot_changed = !(retain_changes owner.tracker collected).isEmpty ∧
      after = ⟨some map_id, commit_staged owner.tracker (retain_changes owner.tracker collected)
        (staged_batch owner.tracker (retain_changes owner.tracker collected))⟩ := by
  revert h
  fun_cases apply_dns_events_with owner map_id events apply kernel with
  | case3 collected hcollect => rintro ⟨⟩; exact ⟨collected, hcollect, rfl, rfl⟩
  | _ => intro h; cases h

theorem apply_dns_events_err {err : String}
    (h : apply_dns_events_with owner map_id events apply kernel = (.error err, after, left)) :
    after = owner := by
  revert h
  fun_cases apply_dns_events_with owner map_id events apply kernel with
  | case3 => intro h; cases h
  | _ => rintro ⟨⟩; rfl

theorem apply_dns_events_ignored {result : Except String DomainRoutingOwnerApplyReport}
    (h : apply_dns_events_with owner map_id events ignore kernel = (result, after, left)) :
    left = kernel := by
  revert h
  fun_cases apply_dns_events_with owner map_id events ignore kernel with
  | case1 => rintro ⟨⟩; rfl
  | case2 =>
    rename_i hresult
    rw [ignore, ite_self] at hresult
    cases hresult
  | case3 =>
    rename_i hresult
    rw [ignore, ite_self] at hresult
    cases hresult
    rintro ⟨⟩
    rfl

theorem collect_keys {replacements collected : Table String DomainRoutingOwnerSnapshot}
    (h : collect_replacements events replacements = .ok collected) :
    ∀ event ∈ events, event.owner_key.isEmpty = false := by
  induction events generalizing replacements with
  | nil => exact nofun
  | cons event events ih =>
    rw [collect_replacements] at h
    split_ifs at h with hempty
    intro other hmem
    obtain rfl | hmem := List.mem_cons.mp hmem
    · exact Bool.eq_false_iff.mpr hempty
    · exact ih h other hmem

/-- The owner after a batch has the live snapshots of its events. -/
structure Applied (owner : DomainRoutingOwner) (map_id : UInt32) (events : List DomainRoutingDnsEvent)
    (changed : Bool) (after : DomainRoutingOwner) : Prop where
  map_id : after.map_id = some map_id
  tracker : TrackerInv after.tracker
  owners : ∀ key : String, after.tracker.owners[key]?
    = live_after (fun key => owner.tracker.owners[key]?) events key
  keys : ∀ event ∈ events, event.owner_key.isEmpty = false
  unchanged : changed = false →
    ∀ key : String, after.tracker.owners[key]? = owner.tracker.owners[key]?

theorem apply_dns_events_applied (hinv : TrackerInv owner.tracker)
    (h : apply_dns_events_with owner map_id events apply kernel = (.ok report, after, left)) :
    Applied owner map_id events report.owner_snapshot_changed after := by
  obtain ⟨collected, hcollect, hchanged, rfl⟩ := apply_dns_events_ok h
  refine ⟨rfl, commit_staged_inv hinv _, ?_, collect_keys hcollect, ?_⟩
  · intro key
    have hstart : overlay {} (fun key => owner.tracker.owners[key]?)
        = fun key => owner.tracker.owners[key]? := by
      funext k
      simp [overlay]
    rw [commit_owners_eq_overlay hinv, overlay_collect hcollect, hstart]
  · intro hsame key
    rw [hchanged, Bool.not_eq_false'] at hsame
    rw [getElem?_commit_owners, (Table.isEmpty_iff _).mp hsame key]

end

/-! ## The invariant -/

/-- `unused`: an owner without a map id has had no event. -/
structure Inv (map_id : GenerationToken → UInt32) (world : World) : Prop where
  trackers : ∀ generation, TrackerInv (world.owners generation).tracker
  unused : ∀ generation, (world.owners generation).map_id = some (map_id generation) ∨
    (world.owners generation).map_id = none ∧
      ∀ key : String, (world.owners generation).tracker.owners[key]? = none
  fence : TrackerInv world.fence.state.tracker
  active : ∀ generation, world.fence.active = some generation →
    world.fence.state.map_id = some (map_id generation) ∧
    (∀ key : String, world.fence.state.tracker.owners[key]?
      = (world.owners generation).tracker.owners[key]?)
  follows : Follows map_id world
  mapped : world.fence.state.map_id ≠ none → ∃ generation, world.fence.active = some generation

section

variable {map_id : GenerationToken → UInt32} {world : World}

theorem Inv.initial : Inv map_id World.initial where
  trackers := fun _ => trackerInv_empty
  unused := fun _ => .inr ⟨rfl, fun _ => Std.TreeMap.getElem?_emptyc⟩
  fence := trackerInv_empty
  active := nofun
  follows := nofun
  mapped := fun h => absurd rfl h

theorem ips_of_no_owners {tracker : DomainRoutingTracker} (hinv : TrackerInv tracker)
    (hnone : ∀ key : String, tracker.owners[key]? = none) (ip : DomainRoutingIpKey) :
    tracker.ips[ip]? = none := by
  have hip := hinv.ips ip
  cases hstate : tracker.ips[ip]? with
  | none => rfl
  | some state =>
    rw [hstate] at hip
    have hempty : state.owners.isEmpty = true := by
      rw [Table.isEmpty_iff]
      intro key
      rw [hip.2.2 key, listed, hnone key]
      rfl
    rw [hip.1] at hempty
    cases hempty

variable {generation : GenerationToken}

/-- A generation's own owner and the maps, as the owner's calls see them. -/
theorem Inv.owner_world (h : Inv map_id world) (hactive : world.fence.active = some generation) :
    WorldInv ⟨world.owners generation, world.maps⟩
      (fun key => (world.owners generation).tracker.owners[key]?) where
  tracker := h.trackers generation
  live := fun _ => rfl
  mirrors := by
    intro id hid
    obtain hused | ⟨hnone, _⟩ := h.unused generation
    · obtain rfl := Option.some.inj (hused.symm.trans hid)
      exact h.follows generation hactive
    · rw [hnone] at hid
      cases hid

/-- A first batch meets an empty map. -/
theorem Inv.fresh (h : Inv map_id world) (hactive : world.fence.active = some generation)
    (hne : (world.owners generation).map_id ≠ some (map_id generation)) :
    (world.maps (map_id generation)).isEmpty = true := by
  obtain hused | ⟨_, hnone⟩ := h.unused generation
  · exact absurd hused hne
  · rw [Table.isEmpty_iff]
    intro ip
    rw [h.follows generation hactive ip, ips_of_no_owners (h.trackers generation) hnone]
    rfl

/-! ## What a call can do -/

variable {succeeds : Bool} {err : String}

variable {maps : Maps}

theorem write_map_err {id : UInt32} {updates : List DomainRoutingStateEntry}
    {deletes : List DomainRoutingIpKey} {left : Maps}
    (h : write_map succeeds id updates deletes maps = (.error err, left)) : left = maps := by
  rw [write_map] at h
  split_ifs at h with hsucceeds
  · cases h
  · cases h
    rfl

theorem apply_dns_events_err_maps {after : DomainRoutingOwner} {id : UInt32} {left : Maps}
    (h : apply_dns_events_with owner id events (write_map succeeds) maps =
      (.error err, after, left)) : left = maps := by
  revert h
  fun_cases apply_dns_events_with owner id events (write_map succeeds) maps with
  | case1 => rintro ⟨⟩; rfl
  | case2 =>
    rename_i hresult
    rintro ⟨⟩
    split_ifs at hresult
    · cases hresult
    · exact write_map_err hresult
  | case3 => intro h; cases h

def set_owner (world : World) (generation : GenerationToken) (owner : DomainRoutingOwner) : World :=
  { world with owners := Function.update world.owners generation owner }

theorem set_owner_self (world : World) (generation : GenerationToken) :
    set_owner world generation (world.owners generation) = world := by
  rw [set_owner, update_eq_self]

/-- What the fence keeps after a batch of the active generation. -/
def synced (state : ResidentDomainRoutingMapState) (events : List DomainRoutingDnsEvent)
    (changed : Bool) : ResidentDomainRoutingMapState :=
  if changed then { state with tracker := state.tracker.sync_events events } else state

/-- A batch fails and changes nothing, or changes its owner alone, or its owner, the map and the
fence's tracker. -/
theorem step_events_cases (generation : GenerationToken) (events : List DomainRoutingDnsEvent)
    (succeeds : Bool) (world : World) :
    (∃ err, step_events map_id generation events succeeds world = (.error err, world)) ∨
    (¬ (world.fence.active = some generation ∧ world.fence.state.map_id = some (map_id generation)) ∧
      ∃ report owner,
        apply_dns_events_with (world.owners generation) (map_id generation) events ignore world.maps
          = (.ok report, owner, world.maps) ∧
        step_events map_id generation events succeeds world
          = (.ok (), set_owner world generation owner)) ∨
    (world.fence.active = some generation ∧ world.fence.state.map_id = some (map_id generation) ∧
      ∃ report owner maps,
        apply_dns_events_with (world.owners generation) (map_id generation) events
          (write_map succeeds) world.maps = (.ok report, owner, maps) ∧
        step_events map_id generation events succeeds world
          = (.ok (), ⟨{ world.fence with
              state := synced world.fence.state events report.owner_snapshot_changed },
            Function.update world.owners generation owner, maps⟩)) := by
  by_cases hwrites : world.fence.active = some generation ∧
      world.fence.state.map_id = some (map_id generation)
  · obtain ⟨hactive, hid⟩ := hwrites
    obtain ⟨result, owner, maps, hbatch⟩ : ∃ result owner maps,
        apply_dns_events_with (world.owners generation) (map_id generation) events
          (write_map succeeds) world.maps = (result, owner, maps) := ⟨_, _, _, rfl⟩
    cases result with
    | error err =>
      left
      have howner := apply_dns_events_err hbatch
      have hmaps := apply_dns_events_err_maps hbatch
      refine ⟨err, ?_⟩
      rw [step_events, apply_events_with, GenerationFence.with_active, if_pos hactive, apply_active,
        if_neg (not_not_intro hid), hbatch, howner, hmaps]
      dsimp only
      rw [update_eq_self]
    | ok report =>
      right
      right
      refine ⟨hactive, hid, report, owner, maps, hbatch, ?_⟩
      rw [step_events, apply_events_with, GenerationFence.with_active, if_pos hactive, apply_active,
        if_neg (not_not_intro hid), hbatch, synced]
  · obtain ⟨result, owner, maps, hbatch⟩ : ∃ result owner maps,
        apply_dns_events_with (world.owners generation) (map_id generation) events
          ignore world.maps = (result, owner, maps) := ⟨_, _, _, rfl⟩
    obtain rfl := apply_dns_events_ignored hbatch
    -- not active, or active on another map: in both cases nothing was applied
    have hnone : step_events map_id generation events succeeds world
        = (result.map fun _ => (), set_owner world generation owner) := by
      rw [step_events, apply_events_with, GenerationFence.with_active]
      by_cases hactive : world.fence.active = some generation
      · rw [if_pos hactive, apply_active, if_pos (fun hid => hwrites ⟨hactive, hid⟩)]
        dsimp only
        rw [hbatch]
        cases result with
        | error err | ok report => rfl
      · rw [if_neg hactive]
        dsimp only
        rw [hbatch]
        cases result with
        | error err | ok report => rfl
    cases result with
    | error err =>
      left
      refine ⟨err, ?_⟩
      rw [hnone, apply_dns_events_err hbatch, set_owner_self]
      rfl
    | ok report => exact .inr (.inl ⟨hwrites, report, owner, hbatch, hnone⟩)

/-- An activation fails and changes nothing, or writes its plan and takes the fence over. -/
theorem step_activate_cases (generation : GenerationToken) (succeeds : Bool) (world : World) :
    (∃ err, step map_id (.activate generation) succeeds world = (.error err, world)) ∨
    ∃ maps, step map_id (.activate generation) succeeds world
        = (.ok (), { world with
            fence := { active := some generation
                       state := { map_id := some (map_id generation)
                                  tracker := (world.owners generation).tracker } }
            maps }) ∧
      maps (map_id generation) = apply_entries (world.maps (map_id generation))
        (plan_activation world.fence.state (map_id generation) (world.owners generation).tracker).updates
        (plan_activation world.fence.state (map_id generation)
          (world.owners generation).tracker).deletes := by
  rw [step, activate_with, GenerationFence.switch]
  dsimp only
  generalize plan_activation world.fence.state (map_id generation)
    (world.owners generation).tracker = plan
  by_cases hskipped : (plan.updates.isEmpty && plan.deletes.isEmpty) = true
  · right
    refine ⟨world.maps, ?_, ?_⟩
    · rw [if_pos hskipped]
    · obtain ⟨hupdates, hdeletes⟩ := Bool.and_eq_true_iff.mp hskipped
      rw [List.isEmpty_iff.mp hupdates, List.isEmpty_iff.mp hdeletes]
      rfl
  · rw [if_neg hskipped, write_map]
    cases succeeds with
    | false => exact .inl ⟨_, rfl⟩
    | true => exact .inr ⟨_, rfl, update_self _ _ _⟩

/-! ## A call keeps the invariant -/

variable {call : FenceCall}

section

variable (h : Inv map_id world)
include h

variable {generation : GenerationToken}

section

variable {changed : Bool}
  (happlied : Applied (world.owners generation) (map_id generation) events changed owner)

include happlied

theorem Inv.updated_owners (other : GenerationToken) :
    TrackerInv (Function.update world.owners generation owner other).tracker ∧
    ((Function.update world.owners generation owner other).map_id = some (map_id other) ∨
      (Function.update world.owners generation owner other).map_id = none ∧
      ∀ key : String, (Function.update world.owners generation owner other).tracker.owners[key]?
        = none) := by
  by_cases heq : other = generation
  · subst heq
    rw [update_self]
    exact ⟨happlied.tracker, .inl happlied.map_id⟩
  · rw [update_of_ne heq]
    exact ⟨h.trackers other, h.unused other⟩

theorem Inv.set_owner (hnot : ¬ (world.fence.active = some generation ∧
      world.fence.state.map_id = some (map_id generation)))
    : Inv map_id (set_owner world generation owner) := by
  have hother : ∀ other, world.fence.active = some other →
      Function.update world.owners generation owner other = world.owners other := by
    intro other hactive
    apply update_of_ne
    rintro rfl
    exact hnot ⟨hactive, (h.active other hactive).1⟩
  refine ⟨fun other => (h.updated_owners happlied other).1,
    fun other => (h.updated_owners happlied other).2, h.fence, ?_, ?_, h.mapped⟩
  · intro other hactive
    dsimp only [DomainRoutingFence.set_owner] at hactive ⊢
    rw [hother other hactive]
    exact h.active other hactive
  · intro other hactive
    dsimp only [DomainRoutingFence.set_owner] at hactive ⊢
    rw [hother other hactive]
    exact h.follows other hactive

end

/-- The batch of the active generation is on its map and in the fence's tracker. -/
theorem Inv.write (hactive : world.fence.active = some generation)
    (hbatch : apply_dns_events_with (world.owners generation) (map_id generation) events
      (write_map succeeds) world.maps = (.ok report, owner, maps)) :
    Inv map_id
      ⟨{ world.fence with state := synced world.fence.state events report.owner_snapshot_changed },
        Function.update world.owners generation owner, maps⟩ := by
  have happlied := apply_dns_events_applied (h.trackers generation) hbatch
  have hspec := apply_dns_events_step (h.owner_world hactive) (map_id generation)
    events succeeds (h.fresh hactive)
  rw [DomainRoutingMirror.step, hbatch] at hspec
  have hmirrors := (hspec.ok rfl).2.mirrors (map_id generation) happlied.map_id
  -- what the fence's tracker holds, synchronised or not
  obtain ⟨hid, howners⟩ := h.active generation hactive
  have hstate : ∀ state, state = synced world.fence.state events report.owner_snapshot_changed →
      TrackerInv state.tracker ∧ state.map_id = some (map_id generation) ∧
      ∀ key : String, state.tracker.owners[key]? = owner.tracker.owners[key]? := by
    rintro _ rfl
    rw [synced]
    split_ifs with hchanged
    · obtain ⟨hinv, hlive⟩ := sync_events_live h.fence happlied.keys
      refine ⟨hinv, hid, ?_⟩
      intro key
      rw [hlive key, happlied.owners key, funext howners]
    · refine ⟨h.fence, hid, ?_⟩
      intro key
      rw [howners key, happlied.unchanged (Bool.eq_false_iff.mpr hchanged) key]
  have honly : ∀ other, world.fence.active = some other → other = generation := by
    intro other hother
    exact Option.some.inj (hother.symm.trans hactive)
  obtain ⟨hinv, hkept⟩ := hstate _ rfl
  refine ⟨fun other => (h.updated_owners happlied other).1,
    fun other => (h.updated_owners happlied other).2, hinv, ?_, ?_, fun _ => ⟨generation, hactive⟩⟩
  · intro other hother
    obtain rfl := honly other hother
    dsimp only
    rw [update_self]
    exact hkept
  · intro other hother
    obtain rfl := honly other hother
    dsimp only
    rw [update_self]
    exact hmirrors

theorem Inv.step_events (generation : GenerationToken) (events : List DomainRoutingDnsEvent)
    (succeeds : Bool) : Inv map_id (step_events map_id generation events succeeds world).2 := by
  obtain ⟨err, hstep⟩ | ⟨hnot, report, owner, hbatch, hstep⟩ |
      ⟨hactive, _, report, owner, maps, hbatch, hstep⟩ :=
    step_events_cases generation events succeeds world
  · rw [hstep]
    exact h
  · rw [hstep]
    exact h.set_owner (apply_dns_events_applied (h.trackers generation) hbatch) hnot
  · rw [hstep]
    exact h.write hactive hbatch

/-- **After an activation the map follows exactly when no foreign address was left in it.** -/
theorem Inv.activate_mirrors_iff (generation : GenerationToken) :
    Mirrors (apply_entries (world.maps (map_id generation))
        (plan_activation world.fence.state (map_id generation) (world.owners generation).tracker).updates
        (plan_activation world.fence.state (map_id generation)
          (world.owners generation).tracker).deletes) (world.owners generation).tracker
      ↔ Meets map_id world (.activate generation) := by
  rw [plan_activation, Meets]
  by_cases hsame : world.fence.state.map_id = some (map_id generation)
  · rw [if_pos hsame]
    have hsome : world.fence.state.map_id ≠ none := by
      rw [hsame]
      exact Option.some_ne_none _
    obtain ⟨active, hactive⟩ := h.mapped hsome
    obtain ⟨hid, howners⟩ := h.active active hactive
    obtain heq := Option.some.inj (hsame.symm.trans hid)
    have hmap := h.follows active hactive
    rw [← heq] at hmap
    have hfence := mirrors_congr (h.trackers active) h.fence
      (fun key => (howners key).symm) hmap
    constructor
    · intro _ hne
      exact absurd hsame hne
    · intro _
      exact plan_transition_mirrors hfence
  · rw [if_neg hsame]
    rw [write_entries_mirrors_iff]
    constructor
    · intro hall _
      exact hall
    · intro hall
      exact hall hsame

theorem Inv.activate (hmeets : Meets map_id world (.activate generation)) :
    Inv map_id (step map_id (.activate generation) succeeds world).2 := by
  obtain ⟨err, hstep⟩ | ⟨maps, hstep, hmap⟩ := step_activate_cases generation succeeds world
  · rw [hstep]
    exact h
  · rw [hstep]
    refine ⟨h.trackers, h.unused, h.trackers generation, ?_, ?_, fun _ => ⟨generation, rfl⟩⟩
    · intro other hother
      cases hother
      exact ⟨rfl, fun _ => rfl⟩
    · intro other hother
      cases hother
      dsimp only
      rw [hmap]
      exact (h.activate_mirrors_iff _).mpr hmeets

theorem Inv.step (succeeds : Bool) (hmeets : Meets map_id world call) :
    Inv map_id (step map_id call succeeds world).2 := by
  cases call with
  | apply_event generation event => exact h.step_events generation [event] succeeds
  | apply_events generation events => exact h.step_events generation events succeeds
  | activate generation => exact h.activate hmeets

end

/-! ## Whole runs -/

theorem step_err (herr : (step map_id call succeeds world).1 = .error err) :
    (step map_id call succeeds world).2 = world := by
  have hbatch : ∀ generation events, (step_events map_id generation events succeeds world).1 = .error err →
      (step_events map_id generation events succeeds world).2 = world := by
    intro generation events hevents
    obtain ⟨_, hstep⟩ | ⟨_, _, _, _, hstep⟩ | ⟨_, _, _, _, _, _, hstep⟩ :=
      @step_events_cases map_id generation events succeeds world
    · rw [hstep]
    · rw [hstep] at hevents
      cases hevents
    · rw [hstep] at hevents
      cases hevents
  cases call with
  | apply_event generation event => exact hbatch generation [event] herr
  | apply_events generation events => exact hbatch generation events herr
  | activate generation =>
    obtain ⟨_, hstep⟩ | ⟨_, hstep, _⟩ :=
      @step_activate_cases map_id generation succeeds world
    · rw [hstep]
    · rw [hstep] at herr
      cases herr

theorem step_events_inactive (events : List DomainRoutingDnsEvent) (succeeds : Bool)
    (hnot : world.fence.active ≠ some generation) :
    (step_events map_id generation events succeeds world).2.maps = world.maps := by
  obtain ⟨_, hstep⟩ | ⟨_, _, _, _, hstep⟩ | ⟨hactive, _⟩ :=
    @step_events_cases map_id generation events succeeds world
  · rw [hstep]
  · rw [hstep]
    rfl
  · exact absurd hactive hnot

theorem step_ok_follows_iff (h : Inv map_id world)
    (hok : (step map_id call succeeds world).1 = .ok ()) :
    Follows map_id (step map_id call succeeds world).2 ↔ Meets map_id world call := by
  constructor
  · intro hfollows
    cases call with
    | apply_event generation event | apply_events generation events => exact trivial
    | activate generation =>
      obtain ⟨_, hstep⟩ | ⟨maps, hstep, hmap⟩ :=
        @step_activate_cases map_id generation succeeds world
      · rw [hstep] at hok
        cases hok
      · rw [hstep] at hfollows
        have hmirrors := hfollows generation rfl
        dsimp only at hmirrors
        rw [hmap] at hmirrors
        exact (h.activate_mirrors_iff generation).mp hmirrors
  · intro hmeets
    exact (h.step succeeds hmeets).follows

def Orderly (map_id : GenerationToken → UInt32) (calls : List (FenceCall × Bool)) : Prop :=
  ∀ before call rest, calls = before ++ call :: rest → Meets map_id (run map_id before) call.1

theorem run_inv {calls : List (FenceCall × Bool)} (horderly : Orderly map_id calls) :
    Inv map_id (run map_id calls) := by
  induction calls using List.reverseRecOn with
  | nil => exact Inv.initial
  | append_singleton calls call ih =>
    have hbefore : Inv map_id (run map_id calls) := by
      apply ih
      intro before other rest heq
      apply horderly before other (rest ++ [call])
      rw [heq, List.append_assoc]
      rfl
    rw [run, Run.after_concat]
    exact hbefore.step call.2 (horderly calls call [] rfl)

theorem map_follows_active_generation (map_id : GenerationToken → UInt32)
    {calls : List (FenceCall × Bool)} (horderly : Orderly map_id calls) (call : FenceCall)
    (succeeds : Bool) :
    Follows map_id (run map_id calls) ∧
    ((step map_id call succeeds (run map_id calls)).1 = .ok () →
      (Follows map_id (step map_id call succeeds (run map_id calls)).2
        ↔ Meets map_id (run map_id calls) call)) ∧
    (∀ generation, ((∃ event, call = .apply_event generation event) ∨
        ∃ events, call = .apply_events generation events) →
      (run map_id calls).fence.active ≠ some generation →
      (step map_id call succeeds (run map_id calls)).2.maps = (run map_id calls).maps) ∧
    (∀ err, (step map_id call succeeds (run map_id calls)).1 = .error err →
      (step map_id call succeeds (run map_id calls)).2 = run map_id calls) := by
  have h := run_inv horderly
  refine ⟨h.follows, step_ok_follows_iff h, ?_, fun _ => step_err⟩
  intro generation hcall hnot
  obtain ⟨event, rfl⟩ | ⟨events, rfl⟩ := hcall
  · exact step_events_inactive [event] succeeds hnot
  · exact step_events_inactive events succeeds hnot

def first : GenerationToken := ⟨9, 1⟩

def second : GenerationToken := ⟨9, 2⟩

def own_map (generation : GenerationToken) : UInt32 := if generation = first then 7 else 8

def dns_event (ips : List DomainRoutingIpKey) : DomainRoutingDnsEvent where
  owner_key := "dns"
  bitmap := Vector.replicate 32 1
  ips

theorem map_follows_active_generation_first :
    (step own_map (.apply_event first (dns_event [5])) true
      (run own_map [(.activate first, true)])).1 = .ok () ∧
    Follows own_map (step own_map (.apply_event first (dns_event [5])) true
      (run own_map [(.activate first, true)])).2 := by
  have horderly : Orderly own_map [(.activate first, true)] := by
    intro before call rest heq
    obtain ⟨rfl, rfl⟩ : before = [] ∧ call = (.activate first, true) := by
      cases before with
      | nil => exact ⟨rfl, (List.cons.inj heq).1.symm⟩
      | cons head tail => simp at heq
    nofun
  have hok : (step own_map (.apply_event first (dns_event [5])) true
      (run own_map [(.activate first, true)])).1 = .ok () := by
    decide +kernel
  exact ⟨hok, ((map_follows_active_generation own_map horderly (.apply_event first (dns_event [5]))
    true).2.1 hok).mpr trivial⟩

/-- The first generation leaves its map with an address in it, loses the address and returns: the
entry is still there. -/
theorem stale_entry_after_return :
    (step own_map (.activate first) true
      (run own_map [(.activate first, true), (.apply_event first (dns_event [5]), true),
        (.activate second, true), (.apply_event first (dns_event []), true)])).1 = .ok () ∧
    ¬ Follows own_map (step own_map (.activate first) true
      (run own_map [(.activate first, true), (.apply_event first (dns_event [5]), true),
        (.activate second, true), (.apply_event first (dns_event []), true)])).2 := by
  refine ⟨by decide +kernel, ?_⟩
  intro h
  have hip := congrArg Option.isSome (h first (by decide +kernel) 5)
  revert hip
  decide +kernel

end

end DaeNext.DomainRoutingFence
