/-
The publisher of the resident routing maps, `resident_routing.rs` of the daemon.

A call builds the routing plan of a configuration (or takes the one it built last) and
writes it into a routing map and an LPM array map. For each pair of maps the cache has
the checksum and the plan of the last complete write: the same checksum skips the write,
and the plan saves the writes of what did not change. Both are dropped before the first
write and recorded after the last, so that a failed call leaves nothing to trust.

The contract of a map (`ensure_map_contract`) and what becomes of the connectivity map
after the routing write are inputs of the call.
-/
import DaeNext.LibPublish
import DaeNext.LibTable
import DaeNext.ResidentLpmMaps
import DaeNext.RoutingBuild

set_option autoImplicit false

namespace DaeNext.ResidentRouting

open Net ConfigAst RoutingPrefix RoutingDomain RoutingPlan ResidentLpmMaps

/-! ## The cache -/

structure ResidentRoutingApplyKey where
  routing_map_id : UInt32
  lpm_array_map_id : Option UInt32
  deriving DecidableEq

/-- A key as words: by routing map id, then no LPM array before any, then its id. -/
def ResidentRoutingApplyKey.words (key : ResidentRoutingApplyKey) : List UInt32 :=
  key.routing_map_id :: key.lpm_array_map_id.toList

theorem words_injective : Function.Injective ResidentRoutingApplyKey.words := by
  rintro ⟨r, _ | l⟩ ⟨r', _ | l'⟩ h <;> simp_all [ResidentRoutingApplyKey.words]

/-- The derived order: the fields one after the other. -/
instance : Ord ResidentRoutingApplyKey := ⟨fun a b => compare a.words b.words⟩

instance : Std.TransOrd ResidentRoutingApplyKey :=
  inferInstanceAs (Std.TransCmp (compareOn ResidentRoutingApplyKey.words))

instance : Std.LawfulEqOrd ResidentRoutingApplyKey where
  compare_self {a} := (Std.ReflOrd.compare_self : compare a.words a.words = .eq)
  eq_of_compare {a b} h :=
    words_injective (Std.LawfulEqOrd.eq_of_compare (h : compare a.words b.words = .eq))

/-- The cached plan comes with its configuration, the identity of the geodata and its
checksum. -/
structure ResidentRoutingApplyCache where
  applied : Table ResidentRoutingApplyKey UInt64 := {}
  plan : Option (Config × UInt64 × ResidentRoutingPlan × UInt64) := none
  published : Table ResidentRoutingApplyKey ResidentRoutingPlan := {}

def ResidentRoutingApplyCache.is_current (self : ResidentRoutingApplyCache)
    (key : ResidentRoutingApplyKey) (checksum : UInt64) : Bool :=
  self.applied[key]? == some checksum

def ResidentRoutingApplyCache.record (self : ResidentRoutingApplyCache)
    (key : ResidentRoutingApplyKey) (checksum : UInt64) : ResidentRoutingApplyCache :=
  { self with applied := self.applied.insert key checksum }

/-- Forget a key, its plan and its checksum. -/
def ResidentRoutingApplyCache.forget (self : ResidentRoutingApplyCache)
    (key : ResidentRoutingApplyKey) : ResidentRoutingApplyCache :=
  { self with applied := self.applied.erase key, published := self.published.erase key }

/-- The eviction loop, with as many rounds as there are plans: the smallest keys go
until eight are left. -/
def ResidentRoutingApplyCache.evict :
    (rounds : Nat) → ResidentRoutingApplyCache → ResidentRoutingApplyCache
  | 0, self => self
  | rounds + 1, self =>
    if 8 < self.published.size then
      match self.published.minKey? with
      | some key => evict rounds (self.forget key)
      | none => self
    else self

/-! ## The plan of a call -/

/-- What the hook needs of the geodata store. -/
structure ResidentGeodataStore where
  cache_identity : UInt64
  resolver : RoutingOptimize.GeodataResolver

/-- `addr().hash`, `bits().hash`: the discriminant, the octets with their number, the
length of the prefix. -/
def prefix_stream (pfx : IpPrefix) : List UInt8 :=
  match pfx.addr with
  | .V4 addr => Wire.le 8 0 ++ Wire.le 8 4 ++ ipv4_octets addr ++ [UInt8.ofNat pfx.bits]
  | .V6 addr => Wire.le 8 1 ++ Wire.le 8 16 ++ ipv6_octets addr ++ [UInt8.ofNat pfx.bits]

/-- What the hasher of `resident_routing_apply_checksum` is fed. -/
def checksum_stream (plan : ResidentRoutingPlan) : List UInt8 :=
  (plan.match_sets.flatMap fun match_set => Wire.le 8 match_set.bytes.length ++ match_set.bytes)
    ++ plan.lpm_sets.flatMap fun prefixes =>
      Wire.le 8 prefixes.length ++ prefixes.flatMap fun pfx => prefix_stream pfx

def resident_routing_apply_checksum (hash : List UInt8 → UInt64) (plan : ResidentRoutingPlan) :
    UInt64 :=
  hash (checksum_stream plan)

section

variable (engines : TextEngines) (hash : List UInt8 → UInt64)

/-- A new plan, which is then the cached one. -/
def build_plan (cache : ResidentRoutingApplyCache) (config : Config)
    (geodata : ResidentGeodataStore) :
    Except String (ResidentRoutingPlan × UInt64) × ResidentRoutingApplyCache :=
  match RoutingBuild.build_routing_plan_with_geodata_resolver engines geodata.resolver config with
  | .error err => (.error err, cache)
  | .ok plan =>
    let checksum := resident_routing_apply_checksum hash plan
    (.ok (plan, checksum),
      { cache with plan := some (config, geodata.cache_identity, plan, checksum) })

/-- The cached plan if it is of this configuration and geodata. -/
def routing_plan (cache : ResidentRoutingApplyCache) (config : Config)
    (geodata : ResidentGeodataStore) :
    Except String (ResidentRoutingPlan × UInt64) × ResidentRoutingApplyCache :=
  match cache.plan with
  | some (previous, identity, plan, checksum) =>
    if previous = config ∧ identity = geodata.cache_identity then (.ok (plan, checksum), cache)
    else build_plan engines hash cache config geodata
  | none => build_plan engines hash cache config geodata

/-! ## The writes -/

/-- The slots of the routing maps and of the LPM array maps, by map id. -/
structure Maps where
  routing : UInt32 → Publish.Slots (List UInt8)
  lpm : UInt32 → Publish.Slots (List Lpm.Key)

/-- An open map and whether it has the expected name and sizes. -/
structure RuntimeMap where
  id : UInt32
  contract : Except String Unit

def update_lpm_array_map (lpm_array : RuntimeMap) (lpm_sets : List (List IpPrefix))
    (previous : Option (List (List IpPrefix))) (failure : Publish.Failure) (maps : Maps) :
    Except String Publish.Failure × Maps :=
  let (result, slots) :=
    Publish.publish create_lpm_map (previous.getD []) lpm_sets failure (maps.lpm lpm_array.id)
  (result, { maps with lpm := Function.update maps.lpm lpm_array.id slots })

/-- The LPM part of the write, left out for a plan without prefix sets. -/
def write_lpm_sets (lpm_array : Option RuntimeMap) (plan : ResidentRoutingPlan)
    (previous : Option ResidentRoutingPlan) (failure : Publish.Failure) (maps : Maps) :
    Except String Publish.Failure × Maps :=
  if plan.lpm_sets.isEmpty then (.ok failure, maps)
  else
    match lpm_array with
    | none => (.error "resident routing needs lpm_array_map but it was not found", maps)
    | some lpm_array =>
      match lpm_array.contract with
      | .error err => (.error err, maps)
      | .ok () =>
        update_lpm_array_map lpm_array plan.lpm_sets (previous.map ResidentRoutingPlan.lpm_sets)
          failure maps

def write_match_sets (routing_map_id : UInt32) (plan : ResidentRoutingPlan)
    (previous : Option ResidentRoutingPlan) (failure : Publish.Failure) (maps : Maps) :
    Except String Publish.Failure × Maps :=
  let (result, slots) :=
    Publish.publish MatchSetBytes.bytes ((previous.map ResidentRoutingPlan.match_sets).getD [])
      plan.match_sets failure (maps.routing routing_map_id)
  (result, { maps with routing := Function.update maps.routing routing_map_id slots })

/-- The body of `if !routing_update_skipped`. -/
def write_plan (key : ResidentRoutingApplyKey) (lpm_array : Option RuntimeMap)
    (plan : ResidentRoutingPlan) (checksum : UInt64) (failure : Publish.Failure)
    (cache : ResidentRoutingApplyCache) (maps : Maps) :
    Except String Unit × ResidentRoutingApplyCache × Maps :=
  let previous := cache.published[key]?
  -- a write that stops half way leaves the key without a claim
  let cache := cache.forget key
  match write_lpm_sets lpm_array plan previous failure maps with
  | (.error err, maps) => (.error err, cache, maps)
  | (.ok failure, maps) =>
    match write_match_sets key.routing_map_id plan previous failure maps with
    | (.error err, maps) => (.error err, cache, maps)
    | (.ok _, maps) =>
      let cache := cache.record key checksum
      let cache := { cache with published := cache.published.insert key plan }
      (.ok (), cache.evict cache.published.size, maps)

/-! ## The call -/

structure Request where
  routing_map : RuntimeMap
  lpm_array : Option RuntimeMap
  /-- the connectivity map, if there is one, and what its update returns -/
  connectivity : Option (Except String Unit)
  config : Config
  geodata : ResidentGeodataStore
  /-- the element write that fails, if one does -/
  failure : Publish.Failure

def Request.apply_key (request : Request) : ResidentRoutingApplyKey where
  routing_map_id := request.routing_map.id
  lpm_array_map_id := request.lpm_array.map RuntimeMap.id

/-- The part of the report that is about the write. -/
structure RoutingUpdate where
  plan : ResidentRoutingPlan
  routing_plan_checksum : UInt64
  routing_map_update_skipped : Bool

/-- The call up to and including the routing write. -/
def write_routing (request : Request) (cache : ResidentRoutingApplyCache) (maps : Maps) :
    Except String RoutingUpdate × ResidentRoutingApplyCache × Maps :=
  match request.routing_map.contract with
  | .error err => (.error err, cache, maps)
  | .ok () =>
    match routing_plan engines hash cache request.config request.geodata with
    | (.error err, cache) => (.error err, cache, maps)
    | (.ok (plan, checksum), cache) =>
      -- the checksum alone decides
      if cache.is_current request.apply_key checksum then (.ok ⟨plan, checksum, true⟩, cache, maps)
      else
        match write_plan request.apply_key request.lpm_array plan checksum request.failure cache
            maps with
        | (.error err, cache, maps) => (.error err, cache, maps)
        | (.ok (), cache, maps) => (.ok ⟨plan, checksum, false⟩, cache, maps)

def update_resident_routing_map_fd (request : Request) (cache : ResidentRoutingApplyCache)
    (maps : Maps) : Except String (RoutingUpdate × UInt32) × ResidentRoutingApplyCache × Maps :=
  match write_routing engines hash request cache maps with
  | (.error err, cache, maps) => (.error err, cache, maps)
  | (.ok update, cache, maps) =>
    match request.connectivity with
    -- the routing write stays, whatever becomes of the connectivity map
    | some (.error err) => (.error err, cache, maps)
    | _ => (.ok (update, request.routing_map.id), cache, maps)

end

end DaeNext.ResidentRouting
