/-
The owner of the outbound connectivity map, `dae-runtime-control/src/connectivity_owned.rs`.

Each key has the value of its latest event, alive or not. Keys of the usual protocols have
a slot in an array, others are in a hash map. An event that changes nothing is skipped,
and a call with another map id replays all keys into that map.

`Run` is any sequence of calls, with callbacks that succeed or fail after any part of
their entries. On another map a failure does no harm, since the next call there replays
all keys. On the owner's own map it does: the owner keeps the old value of the key, and
an event that asks for it is skipped.
-/
import DaeNext.LibBitWindow
import DaeNext.LibRun
import DaeNext.LibTable

set_option autoImplicit false

namespace DaeNext.ConnectivityOwned

open List
open Std.TreeMap (mem_toList_iff_getElem?_eq_some)

structure ConnectivityKey where
  outbound : UInt8
  l4proto : UInt8
  ipversion : UInt8
  deriving DecidableEq

/-- The key in the kernel map. -/
def ConnectivityKey.bytes (key : ConnectivityKey) : List UInt8 :=
  [key.outbound, key.l4proto, key.ipversion]

/-- The derived order: the fields one after the other. -/
instance : Ord ConnectivityKey := ⟨compareOn ConnectivityKey.bytes⟩

instance : Std.TransOrd ConnectivityKey :=
  inferInstanceAs (Std.TransCmp (compareOn ConnectivityKey.bytes))

instance : Std.LawfulEqOrd ConnectivityKey where
  compare_self {a} := (Std.ReflOrd.compare_self : compare a.bytes a.bytes = .eq)
  eq_of_compare {a b} h := by
    have hbytes : a.bytes = b.bytes := Std.LawfulEqOrd.eq_of_compare h
    cases a
    cases b
    cases hbytes
    rfl

structure ConnectivityEvent where
  key : ConnectivityKey
  alive : Bool
  is_init : Bool := false
  dryrun : Bool := false

namespace ConnectivityEvent

/-- `u32::from(event.alive)`. -/
def value (event : ConnectivityEvent) : UInt32 := if event.alive then 1 else 0

def rejected (event : ConnectivityEvent) : Bool := event.dryrun && !event.is_init

end ConnectivityEvent

structure ConnectivityStateEntry where
  key : ConnectivityKey
  value : UInt32
  deriving DecidableEq

/-- What a call uses of it. -/
structure ConnectivityStateUpdate extends ConnectivityStateEntry where
  accepted : Bool
  changed : Bool

structure ConnectivityOwnerApplyReport where
  map_id : UInt32
  map_id_changed : Bool := false
  accepted : Bool := false
  changed : Bool := false
  skipped : Bool := false
  entries_updated : Nat := 0
  len : Nat

def KNOWN_IP_COUNT : Nat := 2
def KNOWN_SLOTS_PER_OUTBOUND : Nat := 3 * KNOWN_IP_COUNT
def KNOWN_SLOT_COUNT : Nat := 256 * KNOWN_SLOTS_PER_OUTBOUND

def known_slot (key : ConnectivityKey) : Option Nat := do
  let l4 ← match key.l4proto with
    | 6 => some 0
    | 17 => some 1
    | 22 => some 2
    | _ => none
  let ip ← match key.ipversion with
    | 4 => some 0
    | 6 => some 1
    | _ => none
  pure (key.outbound.toNat * KNOWN_SLOTS_PER_OUTBOUND + l4 * KNOWN_IP_COUNT + ip)

/-- The arrays are functions of the slot. -/
structure OutboundConnectivityState where
  known_present : Nat → Bool := fun _ => false
  known_values : Nat → UInt32 := fun _ => 0
  known_len : Nat := 0
  fallback : Table ConnectivityKey UInt32 := {}

namespace OutboundConnectivityState

variable (self : OutboundConnectivityState) (event : ConnectivityEvent)

def preview_update : ConnectivityStateUpdate :=
  let value := event.value
  if event.rejected then { key := event.key, value, accepted := false, changed := false }
  else
    let changed := match known_slot event.key with
      | some slot => !self.known_present slot || self.known_values slot != value
      | none => match self.fallback[event.key]? with
        | some previous => previous != value
        | none => true
    { key := event.key, value, accepted := true, changed }

def apply : OutboundConnectivityState :=
  if event.rejected then self
  else match known_slot event.key with
    | some slot =>
      { self with
        known_present := Function.update self.known_present slot true
        known_len := if self.known_present slot then self.known_len else self.known_len + 1
        known_values := Function.update self.known_values slot event.value }
    | none => { self with fallback := self.fallback.insert event.key event.value }

def get (key : ConnectivityKey) : Option UInt32 :=
  match known_slot key with
  | some slot => if self.known_present slot then some (self.known_values slot) else none
  | none => self.fallback[key]?

/-- The keys of the three loops of `entries`. -/
def known_keys : List ConnectivityKey :=
  (range 256).flatMap fun outbound => [6, 17, 22].flatMap fun l4proto =>
    [4, 6].map fun ipversion => { outbound := .ofNat outbound, l4proto, ipversion }

/-- A table lists its entries in key order. -/
def entries : List ConnectivityStateEntry :=
  (known_keys.filterMap fun key => (self.get key).map (ConnectivityStateEntry.mk key))
    ++ self.fallback.toList.map fun (key, value) => ⟨key, value⟩

def len : Nat := self.known_len + self.fallback.size

/-- The loops go through the slots in order. -/
theorem known_slots : known_keys.map known_slot = (range KNOWN_SLOT_COUNT).map some := by
  decide +kernel

theorem known_slots_nodup : (known_keys.map known_slot).Nodup := by
  rw [known_slots]
  exact nodup_range.map fun _ _ => Option.some.inj

variable {self event}

theorem mem_known_keys {key : ConnectivityKey} :
    key ∈ known_keys ↔ ∃ slot, known_slot key = some slot := by
  constructor
  · intro hkey
    have hmem : known_slot key ∈ known_keys.map known_slot := mem_map_of_mem hkey
    rw [known_slots] at hmem
    obtain ⟨slot, -, hslot⟩ := mem_map.mp hmem
    exact ⟨slot, hslot.symm⟩
  · rintro ⟨slot, h⟩
    obtain ⟨outbound, l4proto, ipversion⟩ := key
    dsimp only [known_slot] at h
    split at h <;> split at h <;> cases h
    all_goals exact mem_flatMap.mpr ⟨_, mem_range.mpr outbound.toNat_lt, by simp⟩

theorem get_apply (h : event.rejected = false) (key : ConnectivityKey) :
    (self.apply event).get key = if key = event.key then some event.value else self.get key := by
  rw [apply, h, if_neg Bool.false_ne_true, get, get]
  split_ifs with hkey
  · rw [hkey]
    cases known_slot event.key with
    | none => exact (Table.getElem?_insert ..).trans (if_pos rfl)
    | some slot => simp
  · cases hslot : known_slot event.key with
    | none => simp only [Table.getElem?_insert, if_neg hkey]
    | some slot =>
      cases hother : known_slot key with
      | none => rfl
      | some other =>
        have hne : other ≠ slot := by
          rintro rfl
          exact hkey (inj_on_of_nodup_map known_slots_nodup (mem_known_keys.mpr ⟨_, hother⟩)
            (mem_known_keys.mpr ⟨_, hslot⟩) (hother.trans hslot.symm))
        simp only [Function.update_of_ne hne]

/-- The counter is right, and keys with a slot are not in the hash map. -/
structure Sound (state : OutboundConnectivityState) : Prop where
  known_len : state.known_len = known_keys.countP fun key => (state.get key).isSome
  fallback : ∀ key value, state.fallback[key]? = some value → known_slot key = none

theorem Sound.apply (h : Sound self) : Sound (self.apply event) := by
  cases hrejected : event.rejected with
  | true => rwa [OutboundConnectivityState.apply, hrejected]
  | false =>
    have hget : ∀ key, ((self.apply event).get key).isSome
        = ((self.get key).isSome || decide (event.key = key)) := fun key => by
      rw [get_apply hrejected]
      split_ifs with heq
      · simp [heq]
      · simp [Ne.symm heq]
    -- the counter stays when the key was there, or has no slot
    have hsame : (∀ key ∈ known_keys, event.key = key → (self.get key).isSome = true) →
        self.known_len = known_keys.countP fun key => ((self.apply event).get key).isSome := by
      intro hpresent
      rw [h.known_len]
      refine countP_congr fun key hkey => ?_
      rw [hget, Bool.or_eq_true, decide_eq_true_eq, or_iff_left_of_imp (hpresent key hkey)]
    have happly : self.apply event = _ := if_neg (ne_true_of_eq_false hrejected)
    cases hslot : known_slot event.key with
    | none =>
      rw [hslot] at happly
      refine ⟨?_, happly ▸ Table.forall_insert hslot h.fallback⟩
      rw [← hsame, happly]
      rintro _ hkey rfl
      obtain ⟨slot, hsome⟩ := mem_known_keys.mp hkey
      cases hslot.symm.trans hsome
    | some slot =>
      rw [hslot] at happly
      refine ⟨?_, happly ▸ h.fallback⟩
      cases hpresent : self.known_present slot with
      | true =>
        rw [← hsame, happly]
        · exact if_pos hpresent
        · rintro _ - rfl
          simp [get, hslot, hpresent]
      | false =>
        have hadd := BitWindow.countP_add_one known_slots_nodup.of_map
          (mem_known_keys.mpr ⟨slot, hslot⟩) (by simp [get, hslot, hpresent]) hget
        rw [hadd, ← h.known_len, happly]
        exact if_neg (ne_true_of_eq_false hpresent)

theorem length_entries (h : Sound self) : self.entries.length = self.len := by
  rw [entries, length_append, length_map, Std.TreeMap.length_toList, length_filterMap_eq_countP]
  simp only [Option.isSome_map, ← h.known_len, len]

theorem mem_entries (h : Sound self) {key : ConnectivityKey} {value : UInt32} :
    ⟨key, value⟩ ∈ self.entries ↔ self.get key = some value := by
  rw [entries, mem_append, mem_filterMap, mem_map]
  constructor
  · rintro (⟨_, -, hentry⟩ | ⟨_, hmem, ⟨⟩⟩)
    · obtain ⟨_, hget, ⟨⟩⟩ := Option.map_eq_some_iff.mp hentry
      exact hget
    · have hlookup := mem_toList_iff_getElem?_eq_some.mp hmem
      rw [get, h.fallback _ _ hlookup]
      exact hlookup
  · intro hget
    cases hslot : known_slot key with
    | some slot => exact .inl ⟨_, mem_known_keys.mpr ⟨_, hslot⟩, by rw [hget]; rfl⟩
    | none =>
      rw [get, hslot] at hget
      exact .inr ⟨(_, _), mem_toList_iff_getElem?_eq_some.mpr hget, rfl⟩

theorem keys_nodup (h : Sound self) : (self.entries.map ConnectivityStateEntry.key).Nodup := by
  rw [entries, map_append, map_map]
  refine Nodup.append (pairwise_map.mpr (pairwise_filterMap.mpr ?_))
    (pairwise_map.mpr (Table.toList_keys_distinct _)) fun key hknown hfallback => ?_
  · refine known_slots_nodup.of_map.imp fun hne entry hentry other hother => ?_
    obtain ⟨_, -, rfl⟩ := Option.map_eq_some_iff.mp hentry
    obtain ⟨_, -, rfl⟩ := Option.map_eq_some_iff.mp hother
    exact hne
  · obtain ⟨entry, hentry, rfl⟩ := mem_map.mp hknown
    obtain ⟨key, hkey, hentry⟩ := mem_filterMap.mp hentry
    obtain ⟨_, -, rfl⟩ := Option.map_eq_some_iff.mp hentry
    obtain ⟨⟨_, value⟩, hmem, rfl⟩ := mem_map.mp hfallback
    obtain ⟨slot, hslot⟩ := mem_known_keys.mp hkey
    cases hslot.symm.trans (h.fallback _ _ (mem_toList_iff_getElem?_eq_some.mp hmem))

theorem preview_update_eq (h : event.rejected = false) : self.preview_update event
    = ⟨⟨event.key, event.value⟩, true, self.get event.key != some event.value⟩ := by
  rw [preview_update, h, if_neg Bool.false_ne_true, get]
  cases known_slot event.key with
  | none => cases self.fallback[event.key]? <;> simp [bne]
  | some slot => cases hp : self.known_present slot <;> simp [hp, bne]

end OutboundConnectivityState

structure OutboundConnectivityOwner where
  map_id : Option UInt32 := none
  state : OutboundConnectivityState := {}

/-- Over any state that the callback changes. -/
def OutboundConnectivityOwner.apply_event_with {κ : Type} (self : OutboundConnectivityOwner)
    (map_id : UInt32) (event : ConnectivityEvent)
    (apply : UInt32 → List ConnectivityStateEntry → κ → Except String Unit × κ) (kernel : κ) :
    Except String ConnectivityOwnerApplyReport × OutboundConnectivityOwner × κ :=
  let update := self.state.preview_update event
  if !update.accepted then
    (.ok { map_id, skipped := true, len := self.state.len }, self, kernel)
  else if self.map_id != some map_id then
    let next := self.state.apply event
    let entries := next.entries
    match if entries.isEmpty then (.ok (), kernel) else apply map_id entries kernel with
    | (.error err, kernel) => (.error err, self, kernel)
    | (.ok (), kernel) =>
      (.ok { map_id, map_id_changed := true, accepted := update.accepted, changed := update.changed,
             skipped := entries.isEmpty, entries_updated := entries.length, len := next.len },
        { map_id := some map_id, state := next }, kernel)
  else if !update.changed then
    (.ok { map_id, accepted := true, changed := update.changed, skipped := true,
           len := self.state.len }, self, kernel)
  else
    match apply map_id [update.toConnectivityStateEntry] kernel with
    | (.error err, kernel) => (.error err, self, kernel)
    | (.ok (), kernel) =>
      let state := self.state.apply event
      (.ok { map_id, accepted := true, changed := true, entries_updated := 1, len := state.len },
        { self with state }, kernel)

/-! ## Runs -/

abbrev Maps := UInt32 → Table ConnectivityKey UInt32

def write (map_id : UInt32) (entries : List ConnectivityStateEntry) (maps : Maps) : Maps :=
  Function.update maps map_id
    (Table.write (maps map_id) (entries.map fun entry => (entry.key, some entry.value)))

structure Call where
  map_id : UInt32
  event : ConnectivityEvent
  /-- what a failing callback writes, as far as it is given -/
  failure : Option (List ConnectivityStateEntry) := none

/-- The callback. -/
def Call.apply (call : Call) (map_id : UInt32) (entries : List ConnectivityStateEntry)
    (maps : Maps) : Except String Unit × Maps :=
  match call.failure with
  | none => (.ok (), write map_id entries maps)
  | some part => (.error "map update failed", write map_id (part.filter (· ∈ entries)) maps)

/-- A failing callback on the owner's own map does not write the event's entry. -/
def Call.keeps (call : Call) (owner : OutboundConnectivityOwner) : Bool :=
  match call.failure with
  | none => true
  | some part => owner.map_id != some call.map_id || ⟨call.event.key, call.event.value⟩ ∉ part

/-- What the last call reported and what all calls so far were like: `latest` has the value of
the latest accepted event of each key. -/
structure World where
  owner : OutboundConnectivityOwner := {}
  maps : Maps
  accepted : Bool := false
  latest : ConnectivityKey → Option UInt32 := fun _ => none
  kept : Bool := true

def step (world : World) (call : Call) : World :=
  let (result, owner, maps) :=
    world.owner.apply_event_with call.map_id call.event call.apply world.maps
  let accepted := result.toOption.any (·.accepted)
  { owner, maps, accepted, kept := world.kept && call.keeps world.owner,
    latest := if accepted then Function.update world.latest call.event.key (some call.event.value)
      else world.latest }

/-- Any calls, from a new owner and any maps. -/
def run (maps : Maps) (calls : List Call) : World := Run.after step { maps } calls

/-- What a call can do. -/
inductive Outcome (world : World) (call : Call) : World → Prop
  | refused {maps : Maps} (hmaps : call.keeps world.owner = true →
      ∀ id, world.owner.map_id = some id → maps id = world.maps id) :
      Outcome world call ⟨world.owner, maps, false, world.latest, world.kept && call.keeps world.owner⟩
  -- each key is written, or it was in the owner's own map and stays
  | accepted {state : OutboundConnectivityState} {maps : Maps} (hsound : state.Sound)
      (hget : ∀ key, state.get key
        = if key = call.event.key then some call.event.value else world.owner.state.get key)
      (hmaps : ∀ key value, state.get key = some value → (maps call.map_id)[key]? = some value
        ∨ world.owner.map_id = some call.map_id ∧ world.owner.state.get key = some value
          ∧ (maps call.map_id)[key]? = (world.maps call.map_id)[key]?) :
      Outcome world call ⟨⟨some call.map_id, state⟩, maps, true,
        Function.update world.latest call.event.key (some call.event.value),
        world.kept && call.keeps world.owner⟩

open OutboundConnectivityState

variable {world : World} {call : Call}

theorem Outcome.failed {part entries : List ConnectivityStateEntry}
    (hfailure : call.failure = some part) (hown : world.owner.map_id = some call.map_id →
      entries = [⟨call.event.key, call.event.value⟩]) :
    Outcome world call ⟨world.owner, write call.map_id (part.filter (· ∈ entries)) world.maps, false,
      world.latest, world.kept && call.keeps world.owner⟩ := by
  refine .refused fun hkeeps id hid => ?_
  by_cases heq : id = call.map_id
  · subst heq
    simp only [Call.keeps, hfailure, hid, bne_self_eq_false, Bool.false_or, decide_eq_true_eq] at hkeeps
    have hnone : part.filter (· ∈ entries) = [] := by
      rw [hown hid, filter_eq_nil_iff]
      rintro entry hentry hmem
      rw [decide_eq_true_eq, mem_singleton] at hmem
      exact hkeeps (hmem ▸ hentry)
    rw [hnone]
    exact Function.update_self ..
  · exact Function.update_of_ne heq ..

theorem step_outcome (hsound : world.owner.state.Sound) : Outcome world call (step world call) := by
  rw [step, OutboundConnectivityOwner.apply_event_with]
  cases hrejected : call.event.rejected with
  | true =>
    rw [preview_update, hrejected]
    exact .refused fun _ _ _ => rfl
  | false =>
    have hnext : (world.owner.state.apply call.event).Sound := hsound.apply
    have hget : ∀ key, (world.owner.state.apply call.event).get key = _ := get_apply hrejected
    simp only [preview_update_eq hrejected, Call.apply, Bool.not_true, Bool.false_eq_true, if_false]
    by_cases hmap : world.owner.map_id = some call.map_id
    · rw [if_neg (by simp [hmap])]
      by_cases hsame : world.owner.state.get call.event.key = some call.event.value
      -- nothing to change
      · rw [if_pos (by simp [hsame])]
        obtain ⟨⟨_, state⟩, _⟩ := world
        cases hmap
        refine .accepted hsound (fun key => ?_) fun key value hkey => .inr ⟨rfl, hkey, rfl⟩
        split_ifs with hkey
        · rw [hkey, hsame]
        · rfl
      · rw [if_neg (by simp [hsame])]
        cases hfailure : call.failure with
        | none =>
          dsimp only
          rw [hmap]
          refine .accepted hnext hget fun key value hkey => ?_
          rw [hget] at hkey
          rw [write, Function.update_self]
          have hlookup :=
            Table.getElem?_insert (world.maps call.map_id) call.event.key key call.event.value
          split_ifs at hkey hlookup with heq
          · exact .inl (hlookup.trans hkey)
          · exact .inr ⟨hmap, hkey, hlookup⟩
        | some part => exact .failed hfailure fun _ => rfl
    · rw [if_pos (bne_iff_ne.mpr hmap)]
      -- the event's own entry is there
      have hmem := (mem_entries hnext).mpr ((hget _).trans (if_pos rfl))
      rw [if_neg (fun hempty => by rw [isEmpty_iff.mp hempty] at hmem; cases hmem)]
      cases hfailure : call.failure with
      | none =>
        dsimp only
        refine .accepted hnext hget fun key value hkey => .inl ?_
        rw [write, Function.update_self]
        exact Table.getElem?_write_map _ ConnectivityStateEntry.key ConnectivityStateEntry.value
          (keys_nodup hnext) ((mem_entries hnext).mpr hkey)
      | some part => exact .failed hfailure fun hown => absurd hown hmap

/-- What every world of a run satisfies. -/
structure Inv (world : World) : Prop where
  sound : world.owner.state.Sound
  latest : ∀ key, world.owner.state.get key = world.latest key
  mirrors : world.kept = true → ∀ id, world.owner.map_id = some id → ∀ key value,
    world.latest key = some value → (world.maps id)[key]? = some value

theorem Inv.step (h : Inv world) : Inv (step world call) := by
  have hout : Outcome world call _ := step_outcome h.sound
  generalize ConnectivityOwned.step world call = next at hout ⊢
  cases hout with
  | refused hmaps =>
    refine ⟨h.sound, h.latest, fun hkept id hid key value hkey => ?_⟩
    obtain ⟨hbefore, hkeeps⟩ := (Bool.and_eq_true _ _).mp hkept
    exact (congrArg (·[key]?) (hmaps hkeeps id hid)).trans (h.mirrors hbefore id hid key value hkey)
  | accepted hsound hget hmaps =>
    have hlatest := fun key => (hget key).trans (by rw [h.latest, ← Function.update_apply])
    refine ⟨hsound, hlatest, fun hkept => ?_⟩
    rintro _ ⟨⟩ key value hkey
    obtain hwritten | ⟨hown, hold, hstays⟩ := hmaps key value ((hlatest key).trans hkey)
    · exact hwritten
    · exact hstays.trans (h.mirrors ((Bool.and_eq_true _ _).mp hkept).1 _ hown key value
        ((h.latest key).symm.trans hold))

theorem run_inv (maps : Maps) (calls : List Call) : Inv (run maps calls) := by
  refine Run.invariant (P := fun _ => Inv) ?_ (fun _ _ _ h => h.step) calls
  have hget : ∀ key, ({} : OutboundConnectivityState).get key = none := fun key => by
    rw [OutboundConnectivityState.get]
    split
    · rfl
    · exact Std.TreeMap.getElem?_emptyc
  exact ⟨⟨by simp [hget], fun _ _ h => absurd h Table.empty_ne_some⟩, hget, nofun⟩

/-- **The map has the latest accepted events**, in every run whose failing callbacks leave
the owner's own map alone. What the owner says about itself is right in every run. -/
theorem connectivity_mirrored (maps : Maps) (calls : List Call) (call : Call) :
    let world := run maps calls
    let next := step world call
    (world.owner.state.entries.map ConnectivityStateEntry.key).Nodup
      ∧ (∀ key value, ⟨key, value⟩ ∈ world.owner.state.entries ↔ world.latest key = some value)
      ∧ world.owner.state.len = world.owner.state.entries.length
      ∧ (next.accepted = false → next.owner = world.owner)
      ∧ (next.kept = true → next.accepted = true → ∀ key value, next.latest key = some value →
        (next.maps call.map_id)[key]? = some value) := by
  intro world next
  have hinv : Inv world := run_inv maps calls
  have hnext : Inv next := hinv.step
  have hout : Outcome world call next := step_outcome hinv.sound
  clear_value next world
  refine ⟨keys_nodup hinv.sound, fun key value => ?_, (length_entries hinv.sound).symm, ?_⟩
  · rw [mem_entries hinv.sound, hinv.latest]
  · cases hout with
    | refused hmaps => exact ⟨fun _ => rfl, nofun⟩
    | accepted hsound hget hmaps => exact ⟨nofun, fun hkept _ => hnext.mirrors hkept _ rfl⟩

def report (alive : Bool) (failure : Option (List ConnectivityStateEntry)) : Call where
  map_id := 1
  event := { key := ⟨0, 6, 4⟩, alive }
  failure := failure

/-- The second call fails after its write. The third asks for the value of the first one, is
accepted and skipped, and the map has the value of the second. -/
theorem connectivity_not_mirrored :
    let world := run (fun _ => {}) [report true none, report false (some [⟨⟨0, 6, 4⟩, 0⟩]),
      report true none]
    world.accepted = true ∧ world.latest ⟨0, 6, 4⟩ = some 1
      ∧ (world.maps 1)[(⟨0, 6, 4⟩ : ConnectivityKey)]? = some 0 := by
  decide +kernel

end DaeNext.ConnectivityOwned
