/-
The kernel map mirrors the owner.

A map that has the merged bitmaps of the tracker has those of the next tracker after
the entries of a batch are written: the difference for the current map, the replay for
a new, empty one. What the tracker stores as owners is what the events give when taken
one by one (`live_after`), although a batch keeps only the last snapshot of an owner
and drops those that change nothing.

`Run` is the whole system: any calls, callbacks that succeed or fail, other maps
changing in between.
-/
import DaeNext.DomainRoutingStaging

set_option autoImplicit false

namespace DaeNext.DomainRoutingMirror

open DomainRouting DomainRoutingStaging Table
open Option hiding mem_map
open List hiding map_id

/-! ## The kernel map -/

/-- What a successful callback does to a map: the updates, then the deletes. -/
def apply_entries (map : Table DomainRoutingIpKey DomainBitmap)
    (updates : List DomainRoutingStateEntry) (deletes : List DomainRoutingIpKey) :
    Table DomainRoutingIpKey DomainBitmap :=
  Table.write (Table.write map (updates.map fun entry => (entry.key, some entry.bitmap)))
    (deletes.map fun ip => (ip, none))

/-- The map has the merged bitmaps of the tracker. -/
def Mirrors (map : Table DomainRoutingIpKey DomainBitmap) (tracker : DomainRoutingTracker) : Prop :=
  ∀ ip : DomainRoutingIpKey, map[ip]? = (tracker.ips[ip]?).map IpState.merged

variable (map : Table DomainRoutingIpKey DomainBitmap)

theorem getElem?_write_deletes (deletes : List DomainRoutingIpKey) (ip : DomainRoutingIpKey) :
    (write map (deletes.map fun ip => (ip, none)))[ip]? = if ip ∈ deletes then none else map[ip]? := by
  by_cases hmem : ip ∈ deletes
  · rw [if_pos hmem]
    refine getElem?_write_of_mem ⟨_, mem_map.mpr ⟨ip, hmem, rfl⟩, rfl⟩ fun entry he _ => ?_
    obtain ⟨a, -, rfl⟩ := mem_map.mp he
    rfl
  · rw [if_neg hmem]
    refine getElem?_write_of_not_mem fun entry he heq => ?_
    obtain ⟨a, ha, rfl⟩ := mem_map.mp he
    exact hmem (heq ▸ ha)

variable {ip : DomainRoutingIpKey}

theorem getElem?_write_updates {updates : List DomainRoutingStateEntry} {found : Option DomainBitmap}
    (hfound : ∀ bitmap, { key := ip, bitmap } ∈ updates ↔ found = some bitmap) :
    (write map (updates.map fun entry => (entry.key, some entry.bitmap)))[ip]? = found.or map[ip]? := by
  have hentry : ∀ entry ∈ updates.map (fun entry => (entry.key, some entry.bitmap)),
      entry.1 = ip → found = entry.2 := by
    intro entry he heq
    obtain ⟨⟨key, bitmap⟩, hmem, rfl⟩ := mem_map.mp he
    obtain rfl : key = ip := heq
    exact (hfound bitmap).mp hmem
  cases found with
  | some bitmap =>
    exact getElem?_write_of_mem
      ⟨_, mem_map.mpr ⟨_, (hfound bitmap).mpr rfl, rfl⟩, rfl⟩
      fun entry he heq => (hentry entry he heq).symm
  | none =>
    refine getElem?_write_of_not_mem fun entry he heq => ?_
    have hnone := hentry entry he heq
    obtain ⟨update, -, rfl⟩ := mem_map.mp he
    cases hnone

variable {tracker : DomainRoutingTracker}

theorem staged_update_key {staged : Table DomainRoutingIpKey IpState}
    {entry : DomainRoutingStateEntry} (h : staged_update tracker staged ip = some entry) :
    entry.key = ip := by
  obtain ⟨next, -, h⟩ := bind_eq_some_iff.mp h
  split at h
  · rw [← some.inj h]
  · split at h
    · rw [← some.inj h]
    · cases h
  · cases h

theorem getElem?_write_staged_updates (tracker : DomainRoutingTracker)
    (staged : Table DomainRoutingIpKey IpState) {affected : List DomainRoutingIpKey}
    (ip : DomainRoutingIpKey) :
    (write map ((staged_updates tracker staged affected).map fun entry =>
        (entry.key, some entry.bitmap)))[ip]?
      = if ip ∈ affected then
          ((staged_update tracker staged ip).map DomainRoutingStateEntry.bitmap).or map[ip]?
        else map[ip]? := by
  have hfound : ∀ bitmap, { key := ip, bitmap } ∈ staged_updates tracker staged affected
      ↔ (if ip ∈ affected then
          (staged_update tracker staged ip).map DomainRoutingStateEntry.bitmap else none)
        = some bitmap := by
    intro bitmap
    rw [staged_updates, mem_filterMap]
    constructor
    · rintro ⟨a, ha, hstaged⟩
      -- an entry bears the address it was staged for
      obtain rfl : ip = a := staged_update_key hstaged
      rw [if_pos ha, hstaged]
      rfl
    · intro h
      split at h
      · rename_i hmem
        obtain ⟨update, hstaged, rfl⟩ := map_eq_some_iff.mp h
        obtain rfl := staged_update_key hstaged
        exact ⟨_, hmem, hstaged⟩
      · cases h
  rw [getElem?_write_updates map hfound]
  split <;> rfl

section

variable (hinv : TrackerInv tracker) (replacements : Table String DomainRoutingOwnerSnapshot)
  {map : Table DomainRoutingIpKey DomainBitmap}
include hinv

/-- **The difference brings the current map up to date.** -/
theorem apply_entries_diff_mirrors (hmap : Mirrors map tracker) :
    Mirrors (apply_entries map
        (staged_updates tracker (staged_batch tracker replacements)
          (affected_ips tracker replacements))
        (staged_deletes tracker (staged_batch tracker replacements)
          (affected_ips tracker replacements)))
      (commit_staged tracker replacements (staged_batch tracker replacements)) := by
  intro ip
  rw [apply_entries, getElem?_write_deletes, getElem?_write_staged_updates, getElem?_commit_ips,
    hmap ip]
  simp only [staged_deletes, mem_filter]
  by_cases hmem : ip ∈ affected_ips tracker replacements
  · obtain ⟨state, hstate, -, -⟩ := staged_batch_of_mem hinv replacements ip hmem
    -- the four cases of the loop: known or not, still owned or not
    cases hempty : state.owners.isEmpty with
    | true =>
      cases hold : tracker.ips[ip]? <;> simp [hmem, hstate, staged_update, hold, hempty]
    | false =>
      cases hold : tracker.ips[ip]? with
      | none => simp [hmem, hstate, staged_update, hold, hempty]
      | some old =>
        by_cases hsame : old.merged = state.merged <;>
          simp [hmem, hstate, staged_update, hold, hempty, hsame]
  · rw [staged_batch_of_not_mem replacements ip hmem]
    simp [hmem]

omit hinv in
theorem mem_replay_updates (entry : DomainRoutingStateEntry) (staged : Table DomainRoutingIpKey IpState) :
    entry ∈ replay_updates tracker staged
      ↔ ∃ state, (commit_staged tracker replacements staged).ips[entry.key]? = some state
          ∧ entry.bitmap = state.merged := by
  obtain ⟨key, bitmap⟩ := entry
  have hstaged : ∀ ip : DomainRoutingIpKey, staged.contains ip = (staged[ip]?).isSome := by
    intro ip
    exact Std.TreeMap.contains_eq_isSome_getElem?
  rw [replay_updates, Vec.mem_sort_by, getElem?_commit_ips]
  simp only [mem_map, mem_append, mem_filter,
    Std.TreeMap.mem_toList_iff_getElem?_eq_some, Prod.exists, DomainRoutingStateEntry.mk.injEq, hstaged]
  constructor
  · rintro ⟨ip, state, ⟨hget, hnew⟩ | ⟨hget, hlive⟩, rfl, rfl⟩
    · refine ⟨state, ?_, rfl⟩
      have hnone : staged[ip]? = none :=
        not_isSome_iff_eq_none.mp (by simpa only [Bool.not_eq_true', Bool.not_eq_true] using hnew)
      -- an untouched address is replayed from the tracker, a staged one from the stage
      rw [hnone]
      exact hget
    · refine ⟨state, ?_, rfl⟩
      rw [hget]
      simpa using hlive
  · rintro ⟨state, hget, rfl⟩
    refine ⟨key, state, ?_, rfl, rfl⟩
    cases hnext : staged[key]? with
    | none =>
      rw [hnext] at hget
      exact .inl ⟨hget, by simp⟩
    | some next =>
      rw [hnext] at hget
      dsimp only at hget
      split at hget
      · cases hget
      · rename_i hlive
        cases hget
        exact .inr ⟨rfl, by simpa using hlive⟩

omit hinv in
/-- **The replay fills an empty map.** -/
theorem apply_entries_replay_mirrors (staged : Table DomainRoutingIpKey IpState)
    (hmap : map.isEmpty = true) :
    Mirrors (apply_entries map (replay_updates tracker staged) [])
      (commit_staged tracker replacements staged) := by
  intro ip
  have hfound : ∀ bitmap, { key := ip, bitmap } ∈ replay_updates tracker staged
      ↔ ((commit_staged tracker replacements staged).ips[ip]?).map IpState.merged
        = some bitmap := by
    intro bitmap
    rw [mem_replay_updates replacements, map_eq_some_iff]
    exact exists_congr fun state => and_congr_right fun _ => eq_comm
  rw [apply_entries, getElem?_write_deletes, if_neg (by simp), getElem?_write_updates map hfound,
    (Table.isEmpty_iff map).mp hmap ip, or_none]

end

/-! ## The owners, event by event -/

/-- The snapshot of an owner as the events alone give it. -/
abbrev Live := String → Option DomainRoutingOwnerSnapshot

def live_event (live : Live) (event : DomainRoutingDnsEvent) : Live := fun key =>
  if key = event.owner_key then
    if event.into_snapshot.is_empty then none else some event.into_snapshot
  else live key

def live_after (live : Live) (events : List DomainRoutingDnsEvent) : Live :=
  events.foldl live_event live

/-- Replacements on top of what was there. -/
def overlay (replacements : Table String DomainRoutingOwnerSnapshot) (live : Live) : Live :=
  fun key =>
    match replacements[key]? with
    | some snapshot => if snapshot.is_empty then none else some snapshot
    | none => live key

/-- Coalescing a batch loses nothing. -/
theorem overlay_collect {events : List DomainRoutingDnsEvent}
    {replacements collected : Table String DomainRoutingOwnerSnapshot}
    (h : collect_replacements events replacements = .ok collected) (live : Live) :
    overlay collected live = live_after (overlay replacements live) events := by
  induction events generalizing replacements with
  | nil =>
    cases h
    rfl
  | cons event events ih =>
    rw [collect_replacements] at h
    split at h
    · cases h
    · rw [ih h, live_after, live_after, foldl_cons]
      -- inserting into the replacements is one event on top of them
      congr 1
      funext key
      rw [overlay, live_event, Table.getElem?_insert]
      by_cases hkey : key = event.owner_key
      · rw [if_pos hkey, if_pos hkey]
      · rw [if_neg hkey, if_neg hkey]
        rfl

/-- What is left out of the replacements would not have changed anything. -/
theorem commit_owners_eq_overlay (hinv : TrackerInv tracker)
    (collected : Table String DomainRoutingOwnerSnapshot)
    (staged : Table DomainRoutingIpKey IpState) (key : String) :
    (commit_staged tracker (retain_changes tracker collected) staged).owners[key]?
      = overlay collected (fun key => tracker.owners[key]?) key := by
  rw [getElem?_commit_owners, retain_changes, Std.TreeMap.getElem?_filter', overlay]
  cases hget : collected[key]? with
  | none => rfl
  | some snapshot =>
    cases howner : tracker.owners[key]? with
    | none => cases hempty : snapshot.is_empty <;> simp [Option.filter, hempty]
    | some old =>
      -- a snapshot that is there already is not empty, so dropping it is right
      by_cases hsame : old = snapshot
      · have hempty := hinv.owners key old howner
        subst hsame
        simp [Option.filter, hempty]
      · cases hempty : snapshot.is_empty <;> simp [Option.filter, hempty, hsame]

/-! ## Runs -/

abbrev Maps := UInt32 → Table DomainRoutingIpKey DomainBitmap

/-- A callback writes all of its entries or none. -/
def write_map (succeeds : Bool) (map_id : UInt32) (updates : List DomainRoutingStateEntry)
    (deletes : List DomainRoutingIpKey) (maps : Maps) : Except String Unit × Maps :=
  if succeeds then (.ok (), Function.update maps map_id (apply_entries (maps map_id) updates deletes))
  else (.error "map write failed", maps)

theorem write_map_true (map_id : UInt32) (updates : List DomainRoutingStateEntry)
    (deletes : List DomainRoutingIpKey) (maps : Maps) :
    write_map true map_id updates deletes maps
      = (.ok (), Function.update maps map_id (apply_entries (maps map_id) updates deletes)) := rfl

structure World where
  owner : DomainRoutingOwner
  maps : Maps

inductive Call where
  | apply_dns_events (map_id : UInt32) (events : List DomainRoutingDnsEvent)
  | apply_owner_snapshot (map_id : UInt32) (owner_key : String)
      (snapshot : DomainRoutingOwnerSnapshot)
  | prepare_reload_map (map_id : UInt32) (existing_keys : List DomainRoutingIpKey)

def Call.map_id : Call → UInt32
  | .apply_dns_events map_id _ => map_id
  | .apply_owner_snapshot map_id _ _ => map_id
  | .prepare_reload_map map_id _ => map_id

/-- One call, with a callback that succeeds or not: whether it returns `Ok`, and the
world after it. -/
def step (call : Call) (succeeds : Bool) (world : World) : Bool × World :=
  match call with
  | .apply_dns_events map_id events =>
    let (result, owner, maps) :=
      apply_dns_events_with world.owner map_id events (write_map succeeds) world.maps
    (result.isOk, { owner, maps })
  | .apply_owner_snapshot map_id owner_key snapshot =>
    let (result, owner, maps) :=
      apply_owner_snapshot_with world.owner map_id owner_key snapshot (write_map succeeds) world.maps
    (result.isOk, { owner, maps })
  | .prepare_reload_map map_id existing_keys =>
    let (result, owner, maps) :=
      prepare_reload_map_with world.owner map_id existing_keys
        (fun map_id deletes => write_map succeeds map_id [] deletes) world.maps
    (result.isOk, { owner, maps })

def live_call (live : Live) : Call → Live
  | .apply_dns_events _ events => live_after live events
  | .apply_owner_snapshot _ owner_key snapshot =>
    live_after live [{ owner_key, bitmap := snapshot.bitmap, ips := snapshot.ips }]
  | .prepare_reload_map _ _ => fun _ => none

/-- A map that is not the current one is empty. A reload of the current map names
every key in it. -/
structure Admissible (world : World) (call : Call) : Prop where
  fresh : world.owner.map_id ≠ some call.map_id → (world.maps call.map_id).isEmpty = true
  reload : ∀ existing_keys, call = .prepare_reload_map call.map_id existing_keys →
    world.owner.map_id = some call.map_id →
      ∀ ip : DomainRoutingIpKey, ((world.maps call.map_id)[ip]?).isSome → ip ∈ existing_keys

/-- The worlds of a run, with the owners its successful calls gave. Between two
calls, the maps other than the current one change at will. -/
inductive Run : World → Live → Prop
  | start (maps : Maps) : Run ⟨{}, maps⟩ fun _ => none
  | call {world : World} {live : Live} (h : Run world live) (call : Call) (succeeds : Bool)
      (hcall : Admissible world call) :
      Run (step call succeeds world).2
        (if (step call succeeds world).1 then live_call live call else live)
  | other_maps {world : World} {live : Live} (h : Run world live) (maps : Maps)
      (hcurrent : ∀ id, world.owner.map_id = some id → maps id = world.maps id) :
      Run { world with maps } live

structure WorldInv (world : World) (live : Live) : Prop where
  tracker : TrackerInv world.owner.tracker
  live : ∀ key : String, world.owner.tracker.owners[key]? = live key
  mirrors : ∀ id, world.owner.map_id = some id → Mirrors (world.maps id) world.owner.tracker

/-- `Ok` sets the map id and keeps the invariant, an error changes nothing. -/
structure StepSpec (world : World) (live : Live) (map_id : UInt32) (after : Bool × World) : Prop where
  ok : after.1 = true → after.2.owner.map_id = some map_id ∧ WorldInv after.2 live
  err : after.1 = false → after.2 = world

variable {world : World} {live : Live}

section

variable (hinv : WorldInv world live) (map_id : UInt32)
include hinv

/-- The entries of a batch, difference or replay, bring the map of the call up to date. -/
theorem batch_mirrors (hfresh : world.owner.map_id ≠ some map_id → (world.maps map_id).isEmpty = true)
    (replacements : Table String DomainRoutingOwnerSnapshot) :
    Mirrors (apply_entries (world.maps map_id)
        (if decide (world.owner.map_id ≠ some map_id) = true then
          replay_updates world.owner.tracker (staged_batch world.owner.tracker replacements)
        else staged_updates world.owner.tracker (staged_batch world.owner.tracker replacements)
          (affected_ips world.owner.tracker replacements))
        (if decide (world.owner.map_id ≠ some map_id) = true then []
        else staged_deletes world.owner.tracker (staged_batch world.owner.tracker replacements)
          (affected_ips world.owner.tracker replacements)))
      (commit_staged world.owner.tracker replacements
        (staged_batch world.owner.tracker replacements)) := by
  by_cases hid : world.owner.map_id = some map_id
  · have hsame : decide (world.owner.map_id ≠ some map_id) = false := by simp [hid]
    rw [hsame]
    exact apply_entries_diff_mirrors hinv.tracker replacements (hinv.mirrors map_id hid)
  · have hchanged : decide (world.owner.map_id ≠ some map_id) = true := by simp [hid]
    rw [hchanged]
    exact apply_entries_replay_mirrors replacements _ (hfresh hid)

theorem committed_inv {events : List DomainRoutingDnsEvent}
    {collected : Table String DomainRoutingOwnerSnapshot}
    (hcollect : collect_replacements events {} = .ok collected) {maps : Maps}
    (hmap : Mirrors (maps map_id)
      (commit_staged world.owner.tracker (retain_changes world.owner.tracker collected)
        (staged_batch world.owner.tracker (retain_changes world.owner.tracker collected)))) :
    WorldInv
      ⟨⟨some map_id,
        commit_staged world.owner.tracker (retain_changes world.owner.tracker collected)
          (staged_batch world.owner.tracker (retain_changes world.owner.tracker collected))⟩, maps⟩
      (live_after live events) where
  tracker := commit_staged_inv hinv.tracker _
  live key := by
    -- nothing is replaced before the batch
    have hstart : overlay {} live = live := by
      funext k
      simp [overlay]
    rw [commit_owners_eq_overlay hinv.tracker, funext hinv.live, overlay_collect hcollect, hstart]
  mirrors id hid := by
    rw [← some.inj hid]
    exact hmap

theorem apply_dns_events_step (events : List DomainRoutingDnsEvent) (succeeds : Bool)
    (hfresh : world.owner.map_id ≠ some map_id → (world.maps map_id).isEmpty = true) :
    StepSpec world (live_after live events) map_id
      (step (.apply_dns_events map_id events) succeeds world) := by
  simp only [step, apply_dns_events_with]
  cases hcollect : collect_replacements events {} with
  | error err => exact ⟨fun h => (by cases h), fun _ => rfl⟩
  | ok collected =>
    have hmap := batch_mirrors hinv map_id hfresh (retain_changes world.owner.tracker collected)
    simp only [staged_batch] at hmap
    dsimp only
    generalize hupdates : (if decide (world.owner.map_id ≠ some map_id) = true then
      replay_updates world.owner.tracker _ else _) = updates at hmap ⊢
    generalize hdeletes : (if decide (world.owner.map_id ≠ some map_id) = true then
      ([] : List DomainRoutingIpKey) else _) = deletes at hmap ⊢
    by_cases hskipped : (updates.isEmpty && deletes.isEmpty) = true
    · -- nothing to write: the map already is what the batch asks for
      obtain ⟨hu, hd⟩ := Bool.and_eq_true_iff.mp hskipped
      obtain rfl := List.isEmpty_iff.mp hu
      obtain rfl := List.isEmpty_iff.mp hd
      exact ⟨fun _ => ⟨rfl, committed_inv hinv map_id hcollect hmap⟩, fun h => by cases h⟩
    · rw [if_neg hskipped]
      cases succeeds with
      | false => exact ⟨fun h => (by cases h), fun _ => rfl⟩
      | true =>
        refine ⟨fun _ => ⟨rfl, committed_inv hinv map_id hcollect ?_⟩, fun h => by cases h⟩
        rw [write_map_true]
        dsimp only
        rw [Function.update_self]
        exact hmap

omit hinv in
theorem prepare_reload_step {existing_keys : List DomainRoutingIpKey} (succeeds : Bool)
    (hcall : Admissible world (.prepare_reload_map map_id existing_keys)) :
    StepSpec world (fun _ => none) map_id
      (step (.prepare_reload_map map_id existing_keys) succeeds world) := by
  -- every key of the map is among the deletes
  have hkeys : ∀ ip : DomainRoutingIpKey, ip ∉ normalize_ip_keys existing_keys →
      (world.maps map_id)[ip]? = none := by
    intro ip hip
    by_cases hid : world.owner.map_id = some map_id
    · by_contra hget
      rw [mem_normalize_ip_keys] at hip
      exact hip (hcall.reload existing_keys rfl hid ip (isSome_iff_ne_none.mpr hget))
    · exact (Table.isEmpty_iff _).mp (hcall.fresh hid) ip
  have hempty : Mirrors (apply_entries (world.maps map_id) [] (normalize_ip_keys existing_keys)) {} := by
    intro ip
    rw [apply_entries, getElem?_write_deletes]
    by_cases hmem : ip ∈ normalize_ip_keys existing_keys
    · simp [hmem]
    · rw [if_neg hmem]
      exact hkeys ip hmem
  have hinv' : ∀ maps : Maps, Mirrors (maps map_id) {} →
      WorldInv ⟨⟨some map_id, {}⟩, maps⟩ fun _ => none := by
    intro maps hmap
    refine ⟨trackerInv_empty, fun key => by simp, fun id hid => ?_⟩
    rw [← some.inj hid]
    exact hmap
  simp only [step, prepare_reload_map_with]
  by_cases hnone : (normalize_ip_keys existing_keys).isEmpty = true
  · rw [List.isEmpty_iff.mp hnone] at hempty
    rw [if_pos hnone]
    exact ⟨fun _ => ⟨rfl, hinv' _ hempty⟩, nofun⟩
  · rw [if_neg hnone]
    cases succeeds with
    | false => exact ⟨nofun, fun _ => rfl⟩
    | true =>
      refine ⟨fun _ => ⟨rfl, hinv' _ ?_⟩, nofun⟩
      rw [write_map_true]
      dsimp only
      rw [Function.update_self]
      exact hempty

theorem step_spec {call : Call} (succeeds : Bool) (hcall : Admissible world call) :
    StepSpec world (live_call live call) call.map_id (step call succeeds world) := by
  cases call with
  | apply_dns_events map_id events =>
    exact apply_dns_events_step hinv map_id events succeeds hcall.fresh
  | apply_owner_snapshot map_id owner_key snapshot =>
    exact apply_dns_events_step hinv map_id _ succeeds hcall.fresh
  | prepare_reload_map map_id existing_keys =>
    exact prepare_reload_step map_id succeeds hcall

end

theorem Run.inv (h : Run world live) : WorldInv world live := by
  induction h with
  | start maps => exact ⟨trackerInv_empty, fun key => by simp, nofun⟩
  | @call world live h call succeeds hcall ih =>
    have hstep := step_spec ih succeeds hcall
    -- a failed call left owner and maps alone, and the live owners with them
    by_cases hok : (step call succeeds world).1 = true
    · rw [if_pos hok]
      exact (hstep.ok hok).2
    · rw [if_neg hok, hstep.err (Bool.eq_false_iff.mpr hok)]
      exact ih
  | other_maps h maps hcurrent ih =>
    refine ⟨ih.tracker, ih.live, fun id hid => ?_⟩
    dsimp only
    rw [hcurrent id hid]
    exact ih.mirrors id hid

/-- The map has an entry for exactly the addresses that some owner lists, and its
bits are those of all of these owners together. -/
structure HoldsOwners (map : Table DomainRoutingIpKey DomainBitmap) (live : Live) : Prop where
  entries : ∀ ip : DomainRoutingIpKey,
    (map[ip]?).isSome ↔ ∃ key snapshot, live key = some snapshot ∧ ip ∈ snapshot.ips
  bits : ∀ (ip : DomainRoutingIpKey) (bitmap : DomainBitmap), map[ip]? = some bitmap →
    ∀ (i : Fin 32) (k : Nat), bitmap_bit bitmap i k = true
      ↔ ∃ key snapshot, live key = some snapshot ∧ ip ∈ snapshot.ips
          ∧ bitmap_bit snapshot.bitmap i k = true

theorem listed_eq_some {owners : Table String DomainRoutingOwnerSnapshot} {key : String}
    {bitmap : DomainBitmap} :
    listed owners ip key = some bitmap
      ↔ ∃ snapshot, owners[key]? = some snapshot ∧ ip ∈ snapshot.ips
          ∧ snapshot.bitmap = bitmap := by
  rw [listed, bind_eq_some_iff]
  refine exists_congr fun snapshot => and_congr_right fun _ => ?_
  by_cases hmem : ip ∈ snapshot.ips
  · rw [if_pos hmem, Option.some.injEq]
    exact ⟨fun h => ⟨hmem, h⟩, fun h => h.2⟩
  · rw [if_neg hmem]
    exact ⟨fun h => (by cases h), fun h => absurd h.1 hmem⟩

theorem WorldInv.holds_owners (hinv : WorldInv world live) {map_id : UInt32}
    (hid : world.owner.map_id = some map_id) : HoldsOwners (world.maps map_id) live := by
  have hlive := funext hinv.live
  have hips := hinv.tracker.ips
  subst hlive
  constructor
  · intro ip
    rw [hinv.mirrors map_id hid ip, isSome_map]
    have hdesc := hips ip
    cases hget : world.owner.tracker.ips[ip]? with
    | none =>
      rw [hget] at hdesc
      refine ⟨nofun, fun ⟨key, snapshot, howner, hmem⟩ => ?_⟩
      have := listed_eq_some.mpr ⟨snapshot, howner, hmem, rfl⟩
      rw [hdesc key] at this
      cases this
    | some state =>
      rw [hget] at hdesc
      obtain ⟨hne, -, howners⟩ := hdesc
      refine ⟨fun _ => ?_, fun _ => rfl⟩
      -- the state has an owner, and that owner lists the address
      by_contra hnone
      rw [← Bool.not_eq_true, Table.isEmpty_iff] at hne
      refine hne fun key => ?_
      rw [howners key, eq_none_iff_forall_ne_some]
      intro bitmap hlisted
      obtain ⟨snapshot, howner, hmem, -⟩ := listed_eq_some.mp hlisted
      exact hnone ⟨key, snapshot, howner, hmem⟩
  · intro ip bitmap hget i k
    rw [hinv.mirrors map_id hid ip, map_eq_some_iff] at hget
    obtain ⟨state, hstate, rfl⟩ := hget
    have hdesc := hips ip
    rw [hstate] at hdesc
    obtain ⟨-, hmerged, howners⟩ := hdesc
    -- the merged bitmap is a union over the owners of the state, who are those that list it
    rw [hmerged, bitmap_bit_merge]
    refine exists_congr fun key => ⟨?_, ?_⟩
    · rintro ⟨bitmap, hget, hbit⟩
      rw [howners key] at hget
      obtain ⟨snapshot, howner, hmem, rfl⟩ := listed_eq_some.mp hget
      exact ⟨snapshot, howner, hmem, hbit⟩
    · rintro ⟨snapshot, howner, hmem, hbit⟩
      refine ⟨snapshot.bitmap, ?_, hbit⟩
      rw [howners key]
      exact listed_eq_some.mpr ⟨snapshot, howner, hmem, rfl⟩

/-- What a call has to leave behind: on `Ok` the map of the call holds the live
owners, which are the ones the tracker stores, and the tracker is consistent. On an
error nothing has changed. -/
structure CallCorrect (world : World) (live : Live) (call : Call) (after : Bool × World) : Prop where
  current : after.1 = true → after.2.owner.map_id = some call.map_id
  holds : after.1 = true → HoldsOwners (after.2.maps call.map_id) (live_call live call)
  owners : after.1 = true →
    ∀ key : String, after.2.owner.tracker.owners[key]? = live_call live call key
  tracker : TrackerInv after.2.owner.tracker
  err : after.1 = false → after.2.owner = world.owner

/-- **The current kernel map mirrors the owners in every run.** -/
theorem calls_mirror_owners {world : World} {live : Live} (hrun : Run world live) (call : Call)
    (succeeds : Bool) (hcall : Admissible world call) :
    CallCorrect world live call (step call succeeds world) := by
  have hstep := step_spec hrun.inv succeeds hcall
  refine ⟨fun hok => (hstep.ok hok).1, fun hok => ?_, fun hok => (hstep.ok hok).2.live, ?_,
    fun herr => by rw [hstep.err herr]⟩
  · exact (hstep.ok hok).2.holds_owners (hstep.ok hok).1
  · exact (Run.call hrun call succeeds hcall).inv.tracker

def dns_owner : Call :=
  .apply_owner_snapshot 77 "dns" { bitmap := Vector.replicate 32 1, ips := [7] }

def no_maps : World := { owner := {}, maps := fun _ => {} }

theorem dns_owner_admissible : Admissible no_maps dns_owner :=
  ⟨fun _ => rfl, nofun⟩

theorem calls_mirror_owners_dns :
    (step dns_owner true no_maps).1 = true
      ∧ CallCorrect no_maps (fun _ => none) dns_owner (step dns_owner true no_maps) :=
  ⟨by decide +kernel, calls_mirror_owners (.start _) dns_owner true dns_owner_admissible⟩

/-- A reload of the current map that names no keys deletes nothing, yet forgets every
owner: the entry of the forgotten owner stays. -/
theorem reload_without_keys_keeps_entry :
    Run (step dns_owner true no_maps).2 (live_call (fun _ => none) dns_owner)
      ∧ (step dns_owner true no_maps).2.owner.map_id = some 77
      ∧ (step (.prepare_reload_map 77 []) true (step dns_owner true no_maps).2).1 = true
      ∧ ¬ HoldsOwners
          ((step (.prepare_reload_map 77 []) true (step dns_owner true no_maps).2).2.maps 77)
          (live_call (live_call (fun _ => none) dns_owner) (.prepare_reload_map 77 [])) := by
  refine ⟨?_, by decide +kernel, by decide +kernel, fun h => ?_⟩
  · have hok : (step dns_owner true no_maps).1 = true := by decide +kernel
    have hrun := Run.call (.start _) dns_owner true dns_owner_admissible
    exact (if_pos hok : (if (step dns_owner true no_maps).1 = true
      then live_call (fun _ => none) dns_owner else fun _ => none) = _) ▸ hrun
  · obtain ⟨key, snapshot, hlive, -⟩ := (h.entries 7).mp (by decide +kernel)
    cases hlive

end DaeNext.DomainRoutingMirror
