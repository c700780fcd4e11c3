/-
The owner of the domain routing map, `dae-runtime-control/src/domain_routing/`.

DNS answers name an owner, the rules its domain matches (a bitmap) and the
addresses it resolved to. The owner keeps these per owner key and, the other way
round, per address; the kernel map has one bitmap per address. A batch of events is
staged on the addresses it touches, the difference goes to the kernel through a
callback, and only when that succeeds do the tracker and the map id change.

Hash maps are tables here; their order shows nowhere, since what is passed on is
sorted. The kernel is a state `κ` that the callback changes.
-/
import DaeNext.LibTable
import DaeNext.LibVec

set_option autoImplicit false

namespace DaeNext.DomainRouting

/-- `[u32; 4]`, the first word on top: as numbers such keys are ordered as the arrays are. -/
abbrev DomainRoutingIpKey := BitVec 128

abbrev DomainBitmap := Vector (BitVec 32) 32

structure DomainRoutingOwnerSnapshot where
  bitmap : DomainBitmap
  ips : List DomainRoutingIpKey
  deriving DecidableEq

def DomainRoutingOwnerSnapshot.is_empty (self : DomainRoutingOwnerSnapshot) : Bool :=
  self.ips.isEmpty || self.bitmap.all fun word => word == 0

structure DomainRoutingDnsEvent where
  owner_key : String
  bitmap : DomainBitmap
  ips : List DomainRoutingIpKey

def DomainRoutingDnsEvent.into_snapshot (self : DomainRoutingDnsEvent) :
    DomainRoutingOwnerSnapshot :=
  { bitmap := self.bitmap, ips := self.ips }

structure IpState where
  owners : Table String DomainBitmap := {}
  merged : DomainBitmap := Vector.replicate 32 0

structure DomainRoutingTracker where
  owners : Table String DomainRoutingOwnerSnapshot := {}
  ips : Table DomainRoutingIpKey IpState := {}

structure DomainRoutingStateEntry where
  key : DomainRoutingIpKey
  bitmap : DomainBitmap
  deriving DecidableEq

structure DomainRoutingOwner where
  map_id : Option UInt32 := none
  tracker : DomainRoutingTracker := {}

structure DomainRoutingOwnerApplyReport where
  map_id : UInt32
  map_id_changed : Bool
  skipped : Bool
  owner_snapshot_changed : Bool
  affected_keys : Nat
  entries_updated : Nat
  entries_deleted : Nat
  owner_count : Nat
  ip_count : Nat
  deriving DecidableEq

structure DomainRoutingReloadClearPlan where
  map_id : UInt32
  map_id_changed : Bool
  deletes : List DomainRoutingIpKey
  owner_count : Nat
  ip_count : Nat
  deriving DecidableEq

/-! ## Bitmaps and keys -/

def or_bitmap (dst src : DomainBitmap) : DomainBitmap := Vector.zipWith (· ||| ·) dst src

def merge_owner_bitmaps (owners : Table String DomainBitmap) : DomainBitmap :=
  owners.toList.foldl (fun merged entry => or_bitmap merged entry.2) (Vector.replicate 32 0)

def normalize_ip_keys (keys : List DomainRoutingIpKey) : List DomainRoutingIpKey :=
  Vec.dedup_by (· == ·) (Vec.sort_by compare keys)

/-! ## Staging a batch -/

/-- The events of a batch by owner key; of several for one owner the last counts. -/
def collect_replacements :
    List DomainRoutingDnsEvent → Table String DomainRoutingOwnerSnapshot →
      Except String (Table String DomainRoutingOwnerSnapshot)
  | [], replacements => .ok replacements
  | event :: events, replacements =>
    if event.owner_key.isEmpty then .error "domain routing owner key is empty"
    else collect_replacements events (replacements.insert event.owner_key event.into_snapshot)

/-- What changes something: another snapshot for a known owner, or a first one. -/
def retain_changes (tracker : DomainRoutingTracker)
    (replacements : Table String DomainRoutingOwnerSnapshot) :
    Table String DomainRoutingOwnerSnapshot :=
  replacements.filter fun key snapshot =>
    match tracker.owners[key]? with
    | some old => old != snapshot
    | none => !snapshot.is_empty

def old_ips (tracker : DomainRoutingTracker) (key : String) : List DomainRoutingIpKey :=
  match tracker.owners[key]? with
  | some old => old.ips
  | none => []

def affected_ips (tracker : DomainRoutingTracker)
    (replacements : Table String DomainRoutingOwnerSnapshot) : List DomainRoutingIpKey :=
  normalize_ip_keys
    (replacements.toList.flatMap fun entry => old_ips tracker entry.1 ++ entry.2.ips)

/-- Change the owners of a staged address. The address is staged, so the `expect` of
the source never fires. -/
def update_owners (f : Table String DomainBitmap → Table String DomainBitmap)
    (staged : Table DomainRoutingIpKey IpState) (ip : DomainRoutingIpKey) :
    Table DomainRoutingIpKey IpState :=
  staged.modify ip fun state => { state with owners := f state.owners }

/-- The body of the staging loop: take the owner off its old addresses, put it on
the new ones. -/
def stage_replacement (tracker : DomainRoutingTracker) (staged : Table DomainRoutingIpKey IpState)
    (entry : String × DomainRoutingOwnerSnapshot) : Table DomainRoutingIpKey IpState :=
  let (key, snapshot) := entry
  let staged := (old_ips tracker key).foldl (update_owners fun owners => owners.erase key) staged
  if snapshot.is_empty then staged
  else snapshot.ips.foldl (update_owners fun owners => owners.insert key snapshot.bitmap) staged

/-- The affected addresses with their owners after the batch. -/
def stage_owners (tracker : DomainRoutingTracker)
    (replacements : Table String DomainRoutingOwnerSnapshot) (affected : List DomainRoutingIpKey) :
    Table DomainRoutingIpKey IpState :=
  let staged : Table DomainRoutingIpKey IpState :=
    Table.write {} (affected.map fun ip => (ip, some ((tracker.ips[ip]?).getD {})))
  replacements.toList.foldl (stage_replacement tracker) staged

/-- `next.merged` for every affected address. -/
def stage_merged (staged : Table DomainRoutingIpKey IpState) (affected : List DomainRoutingIpKey) :
    Table DomainRoutingIpKey IpState :=
  affected.foldl (fun staged ip =>
    staged.modify ip fun state => { state with merged := merge_owner_bitmaps state.owners }) staged

/-- The entry the kernel map lacks for an affected address, or has with another
bitmap. -/
def staged_update (tracker : DomainRoutingTracker) (staged : Table DomainRoutingIpKey IpState)
    (ip : DomainRoutingIpKey) : Option DomainRoutingStateEntry :=
  (staged[ip]?).bind fun next =>
    match tracker.ips[ip]?, next.owners.isEmpty with
    | none, false => some { key := ip, bitmap := next.merged }
    | some old, false =>
      if old.merged != next.merged then some { key := ip, bitmap := next.merged } else none
    | _, true => none

def staged_updates (tracker : DomainRoutingTracker) (staged : Table DomainRoutingIpKey IpState)
    (affected : List DomainRoutingIpKey) : List DomainRoutingStateEntry :=
  affected.filterMap (staged_update tracker staged)

def staged_deletes (tracker : DomainRoutingTracker) (staged : Table DomainRoutingIpKey IpState)
    (affected : List DomainRoutingIpKey) : List DomainRoutingIpKey :=
  affected.filter fun ip =>
    (staged[ip]?).any fun next => (tracker.ips[ip]?).isSome && next.owners.isEmpty

/-- The replay for a new map, untouched addresses included. -/
def replay_updates (tracker : DomainRoutingTracker) (staged : Table DomainRoutingIpKey IpState) :
    List DomainRoutingStateEntry :=
  let untouched := tracker.ips.toList.filter fun entry => !staged.contains entry.1
  let touched := staged.toList.filter fun entry => !entry.2.owners.isEmpty
  Vec.sort_by (fun left right => compare left.key right.key)
    ((untouched ++ touched).map fun entry => { key := entry.1, bitmap := entry.2.merged })

/-- The two loops that make the batch the state. -/
def commit_staged (tracker : DomainRoutingTracker)
    (replacements : Table String DomainRoutingOwnerSnapshot)
    (staged : Table DomainRoutingIpKey IpState) : DomainRoutingTracker where
  owners := Table.write tracker.owners (replacements.toList.map fun entry =>
    (entry.1, if entry.2.is_empty then none else some entry.2))
  ips := Table.write tracker.ips (staged.toList.map fun entry =>
    (entry.1, if entry.2.owners.isEmpty then none else some entry.2))

/-! ## The calls -/

section

variable {κ : Type}

def apply_dns_events_with (self : DomainRoutingOwner) (map_id : UInt32)
    (events : List DomainRoutingDnsEvent)
    (apply : UInt32 → List DomainRoutingStateEntry → List DomainRoutingIpKey → κ →
      Except String Unit × κ) (kernel : κ) :
    Except String DomainRoutingOwnerApplyReport × DomainRoutingOwner × κ :=
  match collect_replacements events {} with
  | .error err => (.error err, self, kernel)
  | .ok replacements =>
    let replacements := retain_changes self.tracker replacements
    let affected := affected_ips self.tracker replacements
    let staged := stage_merged (stage_owners self.tracker replacements affected) affected
    let map_id_changed := decide (self.map_id ≠ some map_id)
    let updates :=
      if map_id_changed then replay_updates self.tracker staged
      else staged_updates self.tracker staged affected
    let deletes := if map_id_changed then [] else staged_deletes self.tracker staged affected
    let skipped := updates.isEmpty && deletes.isEmpty
    let (result, kernel) := if skipped then (.ok (), kernel) else apply map_id updates deletes kernel
    match result with
    | .error err => (.error err, self, kernel)
    | .ok () =>
      let tracker := commit_staged self.tracker replacements staged
      (.ok { map_id, map_id_changed, skipped, owner_snapshot_changed := !replacements.isEmpty,
             affected_keys := affected.length, entries_updated := updates.length,
             entries_deleted := deletes.length, owner_count := tracker.owners.size,
             ip_count := tracker.ips.size },
        { map_id := some map_id, tracker }, kernel)

/-- `apply_owner_snapshot_with`: a batch of one. -/
def apply_owner_snapshot_with (self : DomainRoutingOwner) (map_id : UInt32) (owner_key : String)
    (snapshot : DomainRoutingOwnerSnapshot)
    (apply : UInt32 → List DomainRoutingStateEntry → List DomainRoutingIpKey → κ →
      Except String Unit × κ) (kernel : κ) :
    Except String DomainRoutingOwnerApplyReport × DomainRoutingOwner × κ :=
  apply_dns_events_with self map_id
    [{ owner_key, bitmap := snapshot.bitmap, ips := snapshot.ips }] apply kernel

/-- `prepare_reload_map_with`: delete what the caller found in the map, forget everything. -/
def prepare_reload_map_with (self : DomainRoutingOwner) (map_id : UInt32)
    (existing_keys : List DomainRoutingIpKey)
    (apply : UInt32 → List DomainRoutingIpKey → κ → Except String Unit × κ) (kernel : κ) :
    Except String DomainRoutingReloadClearPlan × DomainRoutingOwner × κ :=
  let deletes := normalize_ip_keys existing_keys
  let (result, kernel) := if deletes.isEmpty then (.ok (), kernel) else apply map_id deletes kernel
  match result with
  | .error err => (.error err, self, kernel)
  | .ok () =>
    (.ok { map_id, map_id_changed := decide (self.map_id ≠ some map_id), deletes,
           owner_count := 0, ip_count := 0 },
      { map_id := some map_id, tracker := {} }, kernel)

end

end DaeNext.DomainRouting
