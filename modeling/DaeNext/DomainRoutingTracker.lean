/-
The tracker by itself, `dae-runtime-control/src/domain_routing/tracker.rs`.

The fence in front of the kernel map keeps a tracker of its own beside those of the generations. It
takes the events of the active generation one by one (`sync_owner`), and when another generation is
activated the difference between two trackers goes to the map (`plan_transition`).

A tracker is determined by its owners: what is kept per address follows from them. So two trackers
with equal owners ask for the same map, however they were reached.
-/
import DaeNext.DomainRoutingMirror

set_option autoImplicit false

namespace DaeNext.DomainRouting.DomainRoutingTracker

open DomainRoutingStaging DomainRoutingMirror

/-! ## The code -/

/-- One address of `remove_owner`. -/
def remove_owner_ip (owner_key : String) (self : DomainRoutingTracker) (ip : DomainRoutingIpKey) :
    DomainRoutingTracker :=
  match self.ips[ip]? with
  | none => self
  | some state =>
    let owners := state.owners.erase owner_key
    if owners.isEmpty then { self with ips := self.ips.erase ip }
    else { self with ips := self.ips.insert ip { owners, merged := merge_owner_bitmaps owners } }

def remove_owner (self : DomainRoutingTracker) (owner_key : String) : DomainRoutingTracker :=
  match self.owners[owner_key]? with
  | none => self
  | some old =>
    old.ips.foldl (remove_owner_ip owner_key) { self with owners := self.owners.erase owner_key }

/-- One address of `apply_owner_ip_state`. -/
def apply_owner_ip (owner_key : String) (bitmap : DomainBitmap) (self : DomainRoutingTracker)
    (ip : DomainRoutingIpKey) : DomainRoutingTracker :=
  let owners := ((self.ips[ip]?).getD {}).owners.insert owner_key bitmap
  { self with ips := self.ips.insert ip { owners, merged := merge_owner_bitmaps owners } }

def apply_owner_ip_state (self : DomainRoutingTracker) (owner_key : String)
    (ips : List DomainRoutingIpKey) (bitmap : DomainBitmap) : DomainRoutingTracker :=
  ips.foldl (apply_owner_ip owner_key bitmap) self

def install_owner (self : DomainRoutingTracker) (owner_key : String)
    (snapshot : DomainRoutingOwnerSnapshot) : DomainRoutingTracker :=
  let self := self.apply_owner_ip_state owner_key snapshot.ips snapshot.bitmap
  { self with owners := self.owners.insert owner_key snapshot }

def apply_owner_snapshot_owned (self : DomainRoutingTracker) (owner_key : String)
    (snapshot : DomainRoutingOwnerSnapshot) : DomainRoutingTracker :=
  if self.owners[owner_key]? = some snapshot then self
  else
    let self := self.remove_owner owner_key
    if snapshot.is_empty then self else self.install_owner owner_key snapshot

/-- `sync_owner`; the plan that `apply_owner_update` makes is dropped. -/
def sync_owner (self : DomainRoutingTracker) (owner_key : String)
    (snapshot : DomainRoutingOwnerSnapshot) : DomainRoutingTracker :=
  if owner_key.isEmpty then self else self.apply_owner_snapshot_owned owner_key snapshot

def entries (self : DomainRoutingTracker) : List DomainRoutingStateEntry :=
  Vec.sort_by (fun left right => compare left.key right.key)
    (self.ips.toList.map fun entry => { key := entry.1, bitmap := entry.2.merged })

def owner_count (self : DomainRoutingTracker) : Nat := self.owners.size

def ip_count (self : DomainRoutingTracker) : Nat := self.ips.size

end DomainRoutingTracker

structure DomainRoutingSyncPlan where
  updates : List DomainRoutingStateEntry
  deletes : List DomainRoutingIpKey
  owner_count : Nat
  ip_count : Nat
deriving DecidableEq

namespace DomainRoutingTracker

open DomainRoutingStaging DomainRoutingMirror

/-- The entry of an address that differs in the next tracker. -/
def transition_update (self next : DomainRoutingTracker) (key : DomainRoutingIpKey) :
    Option DomainRoutingStateEntry :=
  match self.ips[key]?, next.ips[key]? with
  | some current, some next =>
    if current.merged ≠ next.merged then some { key, bitmap := next.merged } else none
  | none, some next => some { key, bitmap := next.merged }
  | _, none => none

def plan_transition (self next : DomainRoutingTracker) : DomainRoutingSyncPlan :=
  let affected := normalize_ip_keys (self.ips.keys ++ next.ips.keys)
  { updates := affected.filterMap (transition_update self next)
    deletes := affected.filter fun key => (self.ips[key]?).isSome && (next.ips[key]?).isNone
    owner_count := next.owner_count
    ip_count := next.ip_count }

/-! ## One address -/

/-- The state of an address has the owners of the view, and there is one only if the view has
any. -/
def Shows (view : String → Option DomainBitmap) : Option IpState → Prop
  | none => ∀ key, view key = none
  | some state => state.owners.isEmpty = false ∧ state.merged = merge_owner_bitmaps state.owners
      ∧ ∀ key : String, state.owners[key]? = view key

variable {ip : DomainRoutingIpKey}

theorem describes_iff {owners : Table String DomainRoutingOwnerSnapshot} {state : Option IpState} :
    Describes owners ip state ↔ Shows (listed owners ip) state := by
  cases state with
  | none | some state => exact Iff.rfl

variable {tracker : DomainRoutingTracker}

section

variable {view : String → Option DomainBitmap} {owner_key : String}

def set_view (view : String → Option DomainBitmap) (owner_key : String) (value : Option DomainBitmap) :
    String → Option DomainBitmap :=
  fun key => if key = owner_key then value else view key

theorem set_view_of_eq {value : Option DomainBitmap} (h : view owner_key = value) :
    set_view view owner_key value = view := by
  funext key
  rw [set_view]
  split_ifs with hkey
  · rw [hkey, h]
  · rfl

theorem set_view_twice (value : Option DomainBitmap) :
    set_view (set_view view owner_key value) owner_key value = set_view view owner_key value :=
  set_view_of_eq (if_pos rfl)

theorem shows_remove_owner_ip (h : Shows view tracker.ips[ip]?) :
    Shows (set_view view owner_key none) (remove_owner_ip owner_key tracker ip).ips[ip]? := by
  rw [remove_owner_ip]
  cases hstate : tracker.ips[ip]? with
  | none =>
    rw [hstate] at h
    rw [hstate]
    intro key
    rw [set_view, h key, ite_self]
  | some state =>
    rw [hstate] at h
    have hview : ∀ key : String, (state.owners.erase owner_key)[key]?
        = set_view view owner_key none key := by
      intro key
      rw [Table.getElem?_erase, h.2.2 key]
      rfl
    dsimp only
    split_ifs with hempty
    · rw [Table.getElem?_erase, if_pos rfl]
      intro key
      rw [← hview key]
      exact (Table.isEmpty_iff _).mp hempty key
    · rw [Table.getElem?_insert, if_pos rfl]
      exact ⟨Bool.eq_false_iff.mpr hempty, rfl, hview⟩

theorem remove_owner_ip_of_ne {other : DomainRoutingIpKey} (hne : ip ≠ other) :
    (remove_owner_ip owner_key tracker other).ips[ip]? = tracker.ips[ip]? := by
  rw [remove_owner_ip]
  cases tracker.ips[other]? with
  | none => rfl
  | some state =>
    dsimp only
    split_ifs with hempty
    · exact (Table.getElem?_erase _ _ _).trans (if_neg hne)
    · exact (Table.getElem?_insert _ _ _ _).trans (if_neg hne)

theorem shows_apply_owner_ip {bitmap : DomainBitmap} (h : Shows view tracker.ips[ip]?) :
    Shows (set_view view owner_key (some bitmap))
      (apply_owner_ip owner_key bitmap tracker ip).ips[ip]? := by
  have hview : ∀ key : String, ((tracker.ips[ip]?).getD {}).owners[key]? = view key := by
    intro key
    cases hstate : tracker.ips[ip]? with
    | none =>
      rw [hstate] at h
      rw [h key]
      exact Std.TreeMap.getElem?_emptyc
    | some state =>
      rw [hstate] at h
      exact h.2.2 key
  rw [apply_owner_ip]
  rw [Table.getElem?_insert, if_pos rfl]
  refine ⟨Std.TreeMap.isEmpty_insert, rfl, ?_⟩
  intro key
  rw [Table.getElem?_insert, hview key]
  rfl

theorem apply_owner_ip_of_ne {bitmap : DomainBitmap} {other : DomainRoutingIpKey} (hne : ip ≠ other) :
    (apply_owner_ip owner_key bitmap tracker other).ips[ip]? = tracker.ips[ip]? :=
  (Table.getElem?_insert _ _ _ _).trans (if_neg hne)

theorem shows_foldl {f : DomainRoutingTracker → DomainRoutingIpKey → DomainRoutingTracker}
    {value : Option DomainBitmap} (hat : ∀ tracker view, Shows view tracker.ips[ip]? →
      Shows (set_view view owner_key value) (f tracker ip).ips[ip]?)
    (hother : ∀ tracker other, ip ≠ other → (f tracker other).ips[ip]? = tracker.ips[ip]?)
    (ips : List DomainRoutingIpKey) (h : Shows view tracker.ips[ip]?) :
    Shows (if ip ∈ ips then set_view view owner_key value else view) (ips.foldl f tracker).ips[ip]? := by
  induction ips generalizing tracker view with
  | nil => exact h
  | cons a ips ih =>
    by_cases hip : ip = a
    · subst hip
      -- the address may come again: the view does not change any more
      have hrest := ih (hat tracker view h)
      rw [set_view_twice, ite_self] at hrest
      rw [if_pos List.mem_cons_self]
      exact hrest
    · have hsame : Shows view (f tracker a).ips[ip]? := by
        rw [hother tracker a hip]
        exact h
      have hrest := ih hsame
      simp only [List.mem_cons, hip, false_or]
      exact hrest

end

/-! ## One owner -/

section

theorem owners_foldl {f : DomainRoutingTracker → DomainRoutingIpKey → DomainRoutingTracker}
    (hf : ∀ tracker ip, (f tracker ip).owners = tracker.owners) (ips : List DomainRoutingIpKey) :
    (ips.foldl f tracker).owners = tracker.owners := by
  induction ips generalizing tracker with
  | nil => rfl
  | cons a ips ih =>
    rw [List.foldl_cons, ih]
    exact hf tracker a

theorem owners_remove_owner_ip (owner_key : String) (tracker : DomainRoutingTracker)
    (ip : DomainRoutingIpKey) : (remove_owner_ip owner_key tracker ip).owners = tracker.owners := by
  rw [remove_owner_ip]
  cases tracker.ips[ip]? with
  | none => rfl
  | some state =>
    dsimp only
    split_ifs with hempty
    · rfl
    · rfl

theorem getElem?_remove_owner (owner_key key : String) :
    (tracker.remove_owner owner_key).owners[key]?
      = if key = owner_key then none else tracker.owners[key]? := by
  rw [remove_owner]
  cases hold : tracker.owners[owner_key]? with
  | none =>
    split_ifs with hkey
    · rw [hkey, hold]
    · rfl
  | some old =>
    rw [owners_foldl (owners_remove_owner_ip owner_key), Table.getElem?_erase]

variable (hinv : TrackerInv tracker)

include hinv

theorem shows_remove_owner (owner_key : String) (ip : DomainRoutingIpKey) :
    Shows (set_view (listed tracker.owners ip) owner_key none) (tracker.remove_owner owner_key).ips[ip]? := by
  have hshows := describes_iff.mp (hinv.ips ip)
  rw [remove_owner]
  cases hold : tracker.owners[owner_key]? with
  | none =>
    rw [set_view_of_eq (by rw [listed, hold]; rfl)]
    exact hshows
  | some old =>
    have hfold : Shows (if ip ∈ old.ips then set_view (listed tracker.owners ip) owner_key none
          else listed tracker.owners ip)
        (old.ips.foldl (remove_owner_ip owner_key)
          { tracker with owners := tracker.owners.erase owner_key }).ips[ip]? :=
      shows_foldl (fun _ _ => shows_remove_owner_ip) (fun _ _ => remove_owner_ip_of_ne) old.ips hshows
    split_ifs at hfold with hmem
    · exact hfold
    · -- the owner was not on this address
      rw [set_view_of_eq (by rw [listed, hold, Option.bind_some, if_neg hmem])]
      exact hfold

theorem remove_owner_inv (owner_key : String) : TrackerInv (tracker.remove_owner owner_key) where
  owners := by
    intro key snapshot hget
    rw [getElem?_remove_owner] at hget
    split_ifs at hget with hkey
    exact hinv.owners key snapshot hget
  ips := by
    intro ip
    have hlisted : listed (tracker.remove_owner owner_key).owners ip
        = set_view (listed tracker.owners ip) owner_key none := by
      funext key
      rw [listed, getElem?_remove_owner, set_view]
      split_ifs with hkey
      · rfl
      · rfl
    rw [describes_iff, hlisted]
    exact shows_remove_owner hinv owner_key ip

omit hinv in
theorem getElem?_install_owner (owner_key : String) (snapshot : DomainRoutingOwnerSnapshot)
    (key : String) : (tracker.install_owner owner_key snapshot).owners[key]?
      = if key = owner_key then some snapshot else tracker.owners[key]? := by
  have howners : (tracker.apply_owner_ip_state owner_key snapshot.ips snapshot.bitmap).owners
      = tracker.owners := by
    apply owners_foldl
    intro _ _
    rfl
  rw [install_owner]
  rw [Table.getElem?_insert, howners]

theorem install_owner_inv {owner_key : String} (hnone : tracker.owners[owner_key]? = none)
    {snapshot : DomainRoutingOwnerSnapshot} (hempty : snapshot.is_empty = false) :
    TrackerInv (tracker.install_owner owner_key snapshot) where
  owners := by
    intro key other hget
    rw [getElem?_install_owner] at hget
    split_ifs at hget with hkey
    · rw [← Option.some.inj hget]
      exact hempty
    · exact hinv.owners key other hget
  ips := by
    intro ip
    have hlisted : listed (tracker.install_owner owner_key snapshot).owners ip
        = if ip ∈ snapshot.ips then set_view (listed tracker.owners ip) owner_key (some snapshot.bitmap)
          else listed tracker.owners ip := by
      funext key
      rw [listed, getElem?_install_owner]
      by_cases hkey : key = owner_key
      · by_cases hmem : ip ∈ snapshot.ips
        · simp [set_view, hkey, hmem]
        · simp [hkey, hmem, listed, hnone]
      · by_cases hmem : ip ∈ snapshot.ips
        · simp [set_view, hkey, hmem, listed]
        · simp [hkey, hmem, listed]
    rw [describes_iff, hlisted]
    exact shows_foldl (fun _ _ => shows_apply_owner_ip) (fun _ _ => apply_owner_ip_of_ne) snapshot.ips
      (describes_iff.mp (hinv.ips ip))

theorem apply_owner_snapshot_owned_inv (owner_key : String) (snapshot : DomainRoutingOwnerSnapshot)
    : TrackerInv (tracker.apply_owner_snapshot_owned owner_key snapshot) := by
  rw [apply_owner_snapshot_owned]
  split_ifs with hsame hempty
  · exact hinv
  · exact remove_owner_inv hinv owner_key
  · apply install_owner_inv (remove_owner_inv hinv owner_key)
    · rw [getElem?_remove_owner, if_pos rfl]
    · exact Bool.eq_false_iff.mpr hempty

theorem getElem?_apply_owner_snapshot_owned (owner_key : String)
    (snapshot : DomainRoutingOwnerSnapshot) (key : String) :
    (tracker.apply_owner_snapshot_owned owner_key snapshot).owners[key]?
      = if key = owner_key then if snapshot.is_empty then none else some snapshot
        else tracker.owners[key]? := by
  rw [apply_owner_snapshot_owned]
  by_cases hsame : tracker.owners[owner_key]? = some snapshot
  · -- a snapshot that is there is not empty
    rw [if_pos hsame, hinv.owners owner_key snapshot hsame, if_neg Bool.false_ne_true]
    split_ifs with hkey
    · rw [hkey, hsame]
    · rfl
  · rw [if_neg hsame]
    cases hempty : snapshot.is_empty with
    | true =>
      exact getElem?_remove_owner owner_key key
    | false =>
      rw [if_neg Bool.false_ne_true, if_neg Bool.false_ne_true]
      rw [getElem?_install_owner, getElem?_remove_owner]
      split_ifs with hkey
      · rfl
      · rfl

/-! ## Events one by one -/

omit hinv in
def sync_event (self : DomainRoutingTracker) (event : DomainRoutingDnsEvent) : DomainRoutingTracker :=
  self.sync_owner event.owner_key event.into_snapshot

omit hinv in
def sync_events (self : DomainRoutingTracker) (events : List DomainRoutingDnsEvent) :
    DomainRoutingTracker :=
  events.foldl sync_event self

/-- The tracker follows the events, whose owner keys the owner has checked. -/
theorem sync_events_live {events : List DomainRoutingDnsEvent}
    (hkeys : ∀ event ∈ events, event.owner_key.isEmpty = false) :
    TrackerInv (tracker.sync_events events) ∧
      ∀ key : String, (tracker.sync_events events).owners[key]?
        = live_after (fun key => tracker.owners[key]?) events key := by
  induction events generalizing tracker with
  | nil => exact ⟨hinv, fun _ => rfl⟩
  | cons event events ih =>
    have hsync : tracker.sync_event event
        = tracker.apply_owner_snapshot_owned event.owner_key event.into_snapshot := by
      rw [sync_event, sync_owner, hkeys event List.mem_cons_self, if_neg Bool.false_ne_true]
    have hone : TrackerInv (tracker.sync_event event) := by
      rw [hsync]
      exact apply_owner_snapshot_owned_inv hinv _ _
    obtain ⟨hrest, howners⟩ := ih hone fun e he => hkeys e (List.mem_cons_of_mem _ he)
    refine ⟨hrest, ?_⟩
    have hlive : (fun key : String => (tracker.sync_event event).owners[key]?)
        = live_event (fun key => tracker.owners[key]?) event := by
      funext key
      rw [hsync, getElem?_apply_owner_snapshot_owned hinv]
      rfl
    intro key
    rw [sync_events, List.foldl_cons, live_after, List.foldl_cons, ← hlive]
    exact howners key

end

/-! ## Trackers with equal owners -/

theorem merge_congr {a b : Table String DomainBitmap} (h : ∀ key : String, a[key]? = b[key]?) :
    merge_owner_bitmaps a = merge_owner_bitmaps b := by
  have hequiv : a.Equiv b := Std.TreeMap.Equiv.of_forall_constGet?_eq h
  rw [merge_owner_bitmaps, merge_owner_bitmaps, hequiv.toList_eq]

section

variable {other : DomainRoutingTracker} (hinv : TrackerInv tracker) (hother : TrackerInv other)
  (h : ∀ key : String, tracker.owners[key]? = other.owners[key]?)

include hinv hother h

/-- **Equal owners ask for equal maps.** -/
theorem merged_eq_of_owners (ip : DomainRoutingIpKey) :
    (tracker.ips[ip]?).map IpState.merged = (other.ips[ip]?).map IpState.merged := by
  have hlisted : ∀ key, listed tracker.owners ip key = listed other.owners ip key := by
    intro key
    rw [listed, listed, h key]
  have hthis := hinv.ips ip
  have hthat := hother.ips ip
  -- an address with a state has an owner that lists it
  have hlive : ∀ (t : DomainRoutingTracker) state, Describes t.owners ip (some state) →
      ¬ ∀ key, listed t.owners ip key = none := by
    intro t state hdesc hnone
    have hempty := (Table.isEmpty_iff state.owners).mpr fun key => (hdesc.2.2 key).trans (hnone key)
    rw [hdesc.1] at hempty
    cases hempty
  cases hstate : tracker.ips[ip]? with
  | none =>
    cases hrival : other.ips[ip]? with
    | none => rfl
    | some rival =>
      rw [hstate] at hthis
      rw [hrival] at hthat
      exact absurd (fun key => (hlisted key).symm.trans (hthis key)) (hlive other rival hthat)
  | some state =>
    rw [hstate] at hthis
    cases hrival : other.ips[ip]? with
    | none =>
      rw [hrival] at hthat
      exact absurd (fun key => (hlisted key).trans (hthat key)) (hlive tracker state hthis)
    | some rival =>
      rw [hrival] at hthat
      rw [Option.map_some, Option.map_some, hthis.2.1, hthat.2.1, merge_congr]
      intro key
      rw [hthis.2.2 key, hthat.2.2 key, hlisted key]

theorem mirrors_congr
    {map : Table DomainRoutingIpKey DomainBitmap} (hmap : Mirrors map tracker) : Mirrors map other := by
  intro ip
  rw [hmap ip]
  exact merged_eq_of_owners hinv hother h ip

end

/-! ## From one tracker to the next -/

variable (map : Table DomainRoutingIpKey DomainBitmap)

theorem getElem?_write_entries (tracker : DomainRoutingTracker) (ip : DomainRoutingIpKey) :
    (apply_entries map tracker.entries [])[ip]?
      = ((tracker.ips[ip]?).map IpState.merged).or map[ip]? := by
  have hfound : ∀ bitmap, { key := ip, bitmap } ∈ tracker.entries
      ↔ (tracker.ips[ip]?).map IpState.merged = some bitmap := by
    intro bitmap
    rw [entries, Vec.mem_sort_by, List.mem_map, Option.map_eq_some_iff]
    constructor
    · rintro ⟨⟨key, state⟩, hmem, heq⟩
      obtain ⟨rfl, rfl⟩ := DomainRoutingStateEntry.mk.inj heq
      exact ⟨state, Std.TreeMap.mem_toList_iff_getElem?_eq_some.mp hmem, rfl⟩
    · rintro ⟨state, hget, rfl⟩
      exact ⟨(ip, state), Std.TreeMap.mem_toList_iff_getElem?_eq_some.mpr hget, rfl⟩
  rw [apply_entries, getElem?_write_deletes, if_neg List.not_mem_nil, getElem?_write_updates map hfound]

/-- **Entries alone bring a map up to date exactly when the tracker has every address in it.** -/
theorem write_entries_mirrors_iff (tracker : DomainRoutingTracker) :
    Mirrors (apply_entries map tracker.entries []) tracker
      ↔ ∀ ip : DomainRoutingIpKey, (map[ip]?).isSome → (tracker.ips[ip]?).isSome := by
  constructor
  · intro h ip hsome
    have hip := h ip
    rw [getElem?_write_entries] at hip
    cases hstate : tracker.ips[ip]? with
    | some state => rfl
    | none =>
      rw [hstate, Option.map_none, Option.none_or] at hip
      rw [hip] at hsome
      cases hsome
  · intro h ip
    rw [getElem?_write_entries]
    cases hstate : tracker.ips[ip]? with
    | some state => rfl
    | none =>
      rw [Option.map_none, Option.none_or, ← Option.not_isSome_iff_eq_none]
      intro hsome
      have hnot := h ip hsome
      rw [hstate] at hnot
      cases hnot

theorem transition_update_key {next : DomainRoutingTracker} {entry : DomainRoutingStateEntry}
    (h : transition_update tracker next ip = some entry) : entry.key = ip := by
  rw [transition_update] at h
  split at h
  · split_ifs at h with hne
    rw [← Option.some.inj h]
  · rw [← Option.some.inj h]
  · cases h

/-- **The difference between two trackers takes the map of the one to that of the other.** -/
theorem plan_transition_mirrors {map : Table DomainRoutingIpKey DomainBitmap}
    {next : DomainRoutingTracker} (hmap : Mirrors map tracker) :
    Mirrors (apply_entries map (tracker.plan_transition next).updates
      (tracker.plan_transition next).deletes) next := by
  intro ip
  have hkeys : ∀ (t : DomainRoutingTracker), ip ∈ t.ips.keys ↔ (t.ips[ip]?).isSome = true := by
    intro t
    rw [Std.TreeMap.mem_keys, Std.TreeMap.mem_iff_isSome_getElem?]
  have haffected : ip ∈ normalize_ip_keys (tracker.ips.keys ++ next.ips.keys)
      ↔ (tracker.ips[ip]?).isSome = true ∨ (next.ips[ip]?).isSome = true := by
    rw [mem_normalize_ip_keys, List.mem_append, hkeys, hkeys]
  have hfound : ∀ bitmap, { key := ip, bitmap } ∈ (tracker.plan_transition next).updates
      ↔ (transition_update tracker next ip).map DomainRoutingStateEntry.bitmap = some bitmap := by
    intro bitmap
    rw [plan_transition, List.mem_filterMap, Option.map_eq_some_iff]
    constructor
    · rintro ⟨a, _, hupdate⟩
      obtain rfl : ip = a := transition_update_key hupdate
      exact ⟨_, hupdate, rfl⟩
    · rintro ⟨entry, hupdate, rfl⟩
      refine ⟨ip, ?_, ?_⟩
      · -- an address with an update is in the next tracker
        rw [haffected]
        right
        cases hnext : next.ips[ip]? with
        | some state => rfl
        | none =>
          rw [transition_update, hnext] at hupdate
          cases htracker : tracker.ips[ip]? with
          | none | some state =>
            rw [htracker] at hupdate
            cases hupdate
      · rw [hupdate, ← transition_update_key hupdate]
  rw [apply_entries, getElem?_write_deletes, getElem?_write_updates map hfound, hmap ip,
    plan_transition]
  simp only [List.mem_filter, haffected]
  cases hstate : tracker.ips[ip]? with
  | none =>
    cases hnext : next.ips[ip]? with
    | none | some state => simp [transition_update, hstate, hnext]
  | some current =>
    cases hnext : next.ips[ip]? with
    | none => simp
    | some state =>
      by_cases hsame : current.merged = state.merged
      · simp [transition_update, hstate, hnext, hsame]
      · simp [transition_update, hstate, hnext, hsame]

end DomainRoutingTracker

end DaeNext.DomainRouting
