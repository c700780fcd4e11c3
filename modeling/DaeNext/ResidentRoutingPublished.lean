/-
The publisher never trusts more than the maps hold.

`CacheInv` is what the cache may claim: a plan recorded for a pair of maps is in these
maps, and a recorded checksum is that of the recorded plan. A call forgets its own pair
before it writes, so wherever a write fails nothing is claimed about the slots it
reached; and it writes to no other maps, so the other claims stand. That needs the pairs
to be disjoint: two routing maps with one LPM array overwrite each other's prefix sets,
and `shared_lpm_array_overwritten` is such a run.

`Run` is any sequence of calls, with any element write of any call failing.
-/
import DaeNext.ResidentRouting

set_option autoImplicit false

namespace DaeNext.ResidentRoutingPublished

open ConfigAst RoutingPrefix RoutingDomain RoutingPlan ResidentLpmMaps ResidentRouting Table

/-- The plan is in the maps of a key, slot by slot. -/
structure HoldsPlan (maps : Maps) (key : ResidentRoutingApplyKey) (plan : ResidentRoutingPlan) :
    Prop where
  routing : Publish.Held (maps.routing key.routing_map_id) (plan.match_sets.map MatchSetBytes.bytes)
  lpm : ∀ l, key.lpm_array_map_id = some l →
    Publish.Held (maps.lpm l) (plan.lpm_sets.map create_lpm_map)
  no_lpm : key.lpm_array_map_id = none → plan.lpm_sets = []

/-- What of a plan goes to the kernel. -/
def contents (plan : ResidentRoutingPlan) : List (List UInt8) × List (List IpPrefix) :=
  (plan.match_sets.map MatchSetBytes.bytes, plan.lpm_sets)

variable {key : ResidentRoutingApplyKey} {maps : Maps}

theorem HoldsPlan.of_contents {p q : ResidentRoutingPlan} (h : HoldsPlan maps key p)
    (hsame : contents p = contents q) : HoldsPlan maps key q := by
  obtain ⟨hbytes, hsets⟩ := Prod.mk.inj hsame
  refine ⟨?_, fun l hl => ?_, fun hnone => ?_⟩
  · rw [← hbytes]
    exact h.routing
  · rw [← hsets]
    exact h.lpm l hl
  · rw [← hsets]
    exact h.no_lpm hnone

/-- No map is in two pairs. -/
structure Disjoint (keys : Set ResidentRoutingApplyKey) : Prop where
  routing : ∀ k ∈ keys, ∀ k' ∈ keys, k.routing_map_id = k'.routing_map_id → k = k'
  lpm : ∀ k ∈ keys, ∀ k' ∈ keys, ∀ l, k.lpm_array_map_id = some l →
    k'.lpm_array_map_id = some l → k = k'

/-! ## The writes of one key -/

/-- Nothing changed but the maps of the key. -/
structure Confined (key : ResidentRoutingApplyKey) (maps maps' : Maps) : Prop where
  routing : ∀ r, r ≠ key.routing_map_id → maps'.routing r = maps.routing r
  lpm : ∀ l, key.lpm_array_map_id ≠ some l → maps'.lpm l = maps.lpm l

theorem Confined.refl (key : ResidentRoutingApplyKey) (maps : Maps) : Confined key maps maps :=
  ⟨fun _ _ => rfl, fun _ _ => rfl⟩

theorem Confined.trans {maps₁ maps₂ maps₃ : Maps} (h₁ : Confined key maps₁ maps₂)
    (h₂ : Confined key maps₂ maps₃) : Confined key maps₁ maps₃ :=
  ⟨fun r hr => (h₂.routing r hr).trans (h₁.routing r hr),
    fun l hl => (h₂.lpm l hl).trans (h₁.lpm l hl)⟩

variable {plan : ResidentRoutingPlan}

theorem Confined.holds {keys : Set ResidentRoutingApplyKey} (hkeys : Disjoint keys)
    {other : ResidentRoutingApplyKey} (hkey : key ∈ keys) (hother : other ∈ keys)
    (hne : other ≠ key) {maps' : Maps} (h : Confined key maps maps')
    (hplan : HoldsPlan maps other plan) : HoldsPlan maps' other plan := by
  refine ⟨?_, fun l hl => ?_, hplan.no_lpm⟩
  · rw [h.routing _ fun heq => hne (hkeys.routing other hother key hkey heq)]
    exact hplan.routing
  · rw [h.lpm l fun heq => hne (hkeys.lpm other hother key hkey l hl heq)]
    exact hplan.lpm l hl

/-- What the LPM part leaves: the routing maps as they were, and the prefix sets in their
slots if it returns. -/
structure LpmSetsWritten (key : ResidentRoutingApplyKey) (plan : ResidentRoutingPlan) (maps : Maps)
    (after : Except String Publish.Failure × Maps) : Prop where
  confined : Confined key maps after.2
  routing : after.2.routing = maps.routing
  held : ∀ rest, after.1 = .ok rest →
    (∀ l, key.lpm_array_map_id = some l →
      Publish.Held (after.2.lpm l) (plan.lpm_sets.map create_lpm_map))
      ∧ (key.lpm_array_map_id = none → plan.lpm_sets = [])

/-- The same for the routing part. -/
structure MatchSetsWritten (key : ResidentRoutingApplyKey) (plan : ResidentRoutingPlan)
    (maps : Maps) (after : Except String Publish.Failure × Maps) : Prop where
  confined : Confined key maps after.2
  lpm : after.2.lpm = maps.lpm
  held : ∀ rest, after.1 = .ok rest →
    Publish.Held (after.2.routing key.routing_map_id) (plan.match_sets.map MatchSetBytes.bytes)

section

variable (plan : ResidentRoutingPlan) {previous : Option ResidentRoutingPlan}
  (failure : Publish.Failure)

theorem update_lpm_array_map_spec {lpm_array : RuntimeMap}
    (hlpm : key.lpm_array_map_id = some lpm_array.id)
    (hprevious : ∀ p, previous = some p → HoldsPlan maps key p) :
    LpmSetsWritten key plan maps
      (update_lpm_array_map lpm_array plan.lpm_sets (previous.map ResidentRoutingPlan.lpm_sets)
        failure maps) where
  confined := by
    refine ⟨fun _ _ => rfl, fun l hl => Function.update_of_ne (fun heq => hl ?_) _ _⟩
    rw [hlpm, heq]
  routing := rfl
  held rest hok := by
    refine ⟨fun l hl => ?_, fun hnone => ?_⟩
    · obtain rfl : lpm_array.id = l := Option.some.inj (hlpm.symm.trans hl)
      dsimp only [update_lpm_array_map] at hok ⊢
      rw [Function.update_self]
      refine Publish.publish_held ?_ hok
      cases previous with
      | none => exact Publish.held_nil _
      | some p => exact (hprevious p rfl).lpm _ hl
    · rw [hlpm] at hnone
      cases hnone

theorem write_lpm_sets_spec {lpm_array : Option RuntimeMap}
    (hlpm : key.lpm_array_map_id = lpm_array.map RuntimeMap.id)
    (hprevious : ∀ p, previous = some p → HoldsPlan maps key p) :
    LpmSetsWritten key plan maps (write_lpm_sets lpm_array plan previous failure maps) := by
  -- the error paths before the first write
  have hfailed : ∀ err : String, LpmSetsWritten key plan maps (.error err, maps) :=
    fun err => ⟨.refl key maps, rfl, nofun⟩
  unfold write_lpm_sets
  by_cases hempty : plan.lpm_sets.isEmpty = true
  · -- no prefix sets, nothing to write
    have hnil := List.isEmpty_iff.mp hempty
    rw [if_pos hempty]
    refine ⟨.refl key maps, rfl, fun rest _ => ⟨fun l _ => ?_, fun _ => hnil⟩⟩
    rw [hnil]
    exact Publish.held_nil _
  · rw [if_neg hempty]
    cases lpm_array with
    | none => exact hfailed _
    | some lpm_array =>
      dsimp only
      cases lpm_array.contract with
      | error err => exact hfailed err
      | ok _ => exact update_lpm_array_map_spec plan failure hlpm hprevious

theorem write_match_sets_spec (hprevious : ∀ p, previous = some p →
      Publish.Held (maps.routing key.routing_map_id) (p.match_sets.map MatchSetBytes.bytes)) :
    MatchSetsWritten key plan maps
      (write_match_sets key.routing_map_id plan previous failure maps) where
  confined := ⟨fun _ hr => Function.update_of_ne hr _ _, fun _ _ => rfl⟩
  lpm := rfl
  held rest hok := by
    dsimp only [write_match_sets] at hok ⊢
    rw [Function.update_self]
    refine Publish.publish_held ?_ hok
    cases previous with
    | none => exact Publish.held_nil _
    | some p => exact hprevious p rfl

end

/-! ## The cache -/

section

variable (hash : List UInt8 → UInt64) (keys : Set ResidentRoutingApplyKey)
  (plans : Set ResidentRoutingPlan)

/-- What the cache may claim about the maps. -/
structure CacheInv (cache : ResidentRoutingApplyCache) (maps : Maps) : Prop where
  published : ∀ (key : ResidentRoutingApplyKey) plan, cache.published[key]? = some plan →
    key ∈ keys ∧ plan ∈ plans ∧ HoldsPlan maps key plan
  applied : ∀ (key : ResidentRoutingApplyKey) checksum, cache.applied[key]? = some checksum →
    ∃ plan, cache.published[key]? = some plan
      ∧ checksum = resident_routing_apply_checksum hash plan
  plan : ∀ config identity plan checksum, cache.plan = some (config, identity, plan, checksum) →
    plan ∈ plans ∧ checksum = resident_routing_apply_checksum hash plan

variable {hash keys plans} {cache : ResidentRoutingApplyCache}

theorem getElem?_forget_published (key other : ResidentRoutingApplyKey) :
    (cache.forget key).published[other]? = if other = key then none else cache.published[other]? :=
  getElem?_erase ..

theorem getElem?_forget_applied (key other : ResidentRoutingApplyKey) :
    (cache.forget key).applied[other]? = if other = key then none else cache.applied[other]? :=
  getElem?_erase ..

theorem CacheInv.forget (h : CacheInv hash keys plans cache maps) (key : ResidentRoutingApplyKey) :
    CacheInv hash keys plans (cache.forget key) maps where
  published other plan hget := by
    rw [getElem?_forget_published] at hget
    split_ifs at hget
    exact h.published other plan hget
  applied other checksum hget := by
    rw [getElem?_forget_applied] at hget
    split_ifs at hget with hne
    rw [getElem?_forget_published, if_neg hne]
    exact h.applied other checksum hget
  plan := h.plan

section

variable (h : CacheInv hash keys plans cache maps)

include h

/-- A forgotten key claims nothing, so its maps may change. -/
theorem CacheInv.forget_confined (hkeys : Disjoint keys) (hkey : key ∈ keys) {maps' : Maps}
    (hmaps : Confined key maps maps') :
    CacheInv hash keys plans (cache.forget key) maps' where
  published other plan hget := by
    have hne : other ≠ key := by
      rintro rfl
      rw [getElem?_forget_published, if_pos rfl] at hget
      cases hget
    obtain ⟨hother, hplan, hholds⟩ := (h.forget key).published other plan hget
    exact ⟨hother, hplan, hmaps.holds hkeys hkey hother hne hholds⟩
  applied := (h.forget key).applied
  plan := h.plan

theorem CacheInv.evict (rounds : Nat) : CacheInv hash keys plans (cache.evict rounds) maps := by
  induction rounds generalizing cache with
  | zero => exact h
  | succ rounds ih =>
    rw [ResidentRoutingApplyCache.evict]
    split
    · split
      · exact ih (h.forget _)
      · exact h
    · exact h

theorem CacheInv.record (hkey : key ∈ keys) (hplan : plan ∈ plans) (hholds : HoldsPlan maps key plan) :
    CacheInv hash keys plans { cache.record key (resident_routing_apply_checksum hash plan) with
        published := cache.published.insert key plan } maps where
  published other p hget := by
    obtain ⟨rfl, rfl⟩ | ⟨_, hget⟩ := getElem?_insert_cases hget
    · exact ⟨hkey, hplan, hholds⟩
    · exact h.published other p hget
  applied other checksum hget := by
    dsimp only [ResidentRoutingApplyCache.record] at hget ⊢
    rw [getElem?_insert] at hget
    rw [getElem?_insert]
    split_ifs at hget ⊢ with heq
    · exact ⟨plan, rfl, (Option.some.inj hget).symm⟩
    · exact h.applied other checksum hget
  plan := h.plan

/-- **The write of a plan**: the cache is right wherever it stops, and the plan is in the
maps if it gets to the end. -/
theorem write_plan_spec (hkeys : Disjoint keys) {lpm_array : Option RuntimeMap} (hkey : key ∈ keys)
    (hlpm : key.lpm_array_map_id = lpm_array.map RuntimeMap.id)
    (hplan : plan ∈ plans) (failure : Publish.Failure) :
    let after := write_plan key lpm_array plan (resident_routing_apply_checksum hash plan) failure
      cache maps
    CacheInv hash keys plans after.2.1 after.2.2
      ∧ (after.1 = .ok () → HoldsPlan after.2.2 key plan) := by
  -- what the pass skips is what the cache claims, and the claim is right
  have hprevious : ∀ p, cache.published[key]? = some p → HoldsPlan maps key p :=
    fun p hp => (h.published key p hp).2.2
  have hsets := write_lpm_sets_spec plan failure hlpm hprevious
  simp only [write_plan]
  generalize write_lpm_sets lpm_array plan cache.published[key]? failure maps = written at hsets ⊢
  obtain ⟨result, maps₁⟩ := written
  cases result with
  | error err => exact ⟨h.forget_confined hkeys hkey hsets.confined, nofun⟩
  | ok rest =>
    obtain ⟨hlpm_held, hno_lpm⟩ := hsets.held rest rfl
    have hmatches : MatchSetsWritten key plan maps₁
        (write_match_sets key.routing_map_id plan cache.published[key]? rest maps₁) := by
      refine write_match_sets_spec plan rest fun p hp => ?_
      -- the LPM part left the routing map as the claim has it
      rw [hsets.routing]
      exact (hprevious p hp).routing
    dsimp only
    generalize write_match_sets key.routing_map_id plan cache.published[key]? rest maps₁ = written
      at hmatches ⊢
    obtain ⟨result, maps₂⟩ := written
    -- both parts stayed within the maps of the forgotten key
    have hforgot := h.forget_confined hkeys hkey (hsets.confined.trans hmatches.confined)
    cases result with
    | error err => exact ⟨hforgot, nofun⟩
    | ok rest =>
      have hholds : HoldsPlan maps₂ key plan := by
        refine ⟨hmatches.held rest rfl, fun l hl => ?_, hno_lpm⟩
        rw [hmatches.lpm]
        exact hlpm_held l hl
      exact ⟨(hforgot.record hkey hplan hholds).evict _, fun _ => hholds⟩

end

/-- A plan of the run with its checksum, or an error. -/
structure Planned (hash : List UInt8 → UInt64) (keys : Set ResidentRoutingApplyKey)
    (plans : Set ResidentRoutingPlan) (maps : Maps)
    (after : Except String (ResidentRoutingPlan × UInt64) × ResidentRoutingApplyCache) : Prop where
  inv : CacheInv hash keys plans after.2 maps
  plan : ∀ plan checksum, after.1 = .ok (plan, checksum) →
    plan ∈ plans ∧ checksum = resident_routing_apply_checksum hash plan

section

variable {engines : TextEngines} (h : CacheInv hash keys plans cache maps) {config : Config}
  {geodata : ResidentGeodataStore}
  (hbuilt : ∀ plan, RoutingBuild.build_routing_plan_with_geodata_resolver engines geodata.resolver
    config = .ok plan → plan ∈ plans)
include h hbuilt

theorem build_plan_spec :
    Planned hash keys plans maps (build_plan engines hash cache config geodata) := by
  unfold build_plan
  split
  · exact ⟨h, nofun⟩
  · rename_i plan hplan
    have hmem := hbuilt plan hplan
    refine ⟨⟨h.published, h.applied, ?_⟩, ?_⟩
    · rintro _ _ _ _ ⟨⟩
      exact ⟨hmem, rfl⟩
    · rintro _ _ ⟨⟩
      exact ⟨hmem, rfl⟩

theorem routing_plan_spec :
    Planned hash keys plans maps (routing_plan engines hash cache config geodata) := by
  unfold routing_plan
  split
  · rename_i hcached
    split
    -- the cached plan came from an earlier call of the run
    · refine ⟨h, ?_⟩
      rintro _ _ ⟨⟩
      exact h.plan _ _ _ _ hcached
    · exact build_plan_spec h hbuilt
  · exact build_plan_spec h hbuilt

end

/-- **The step lemma**: a call keeps the invariant, and when it gets past the routing write
its plan is in its maps. -/
theorem write_routing_spec {engines : TextEngines} (h : CacheInv hash keys plans cache maps)
    (hkeys : Disjoint keys)
    (hfree : ∀ p ∈ plans, ∀ q ∈ plans, resident_routing_apply_checksum hash p
      = resident_routing_apply_checksum hash q → contents p = contents q)
    {request : Request} (hkey : request.apply_key ∈ keys)
    (hbuilt : ∀ plan, RoutingBuild.build_routing_plan_with_geodata_resolver engines
      request.geodata.resolver request.config = .ok plan → plan ∈ plans) :
    let after := write_routing engines hash request cache maps
    CacheInv hash keys plans after.2.1 after.2.2
      ∧ ∀ update, after.1 = .ok update → HoldsPlan after.2.2 request.apply_key update.plan := by
  simp only [write_routing]
  cases request.routing_map.contract with
  | error err => exact ⟨h, nofun⟩
  | ok _ =>
    obtain ⟨hinv, hplan⟩ := routing_plan_spec h hbuilt
    generalize routing_plan engines hash cache request.config request.geodata = planned
      at hinv hplan ⊢
    obtain ⟨result, cache₁⟩ := planned
    cases result with
    | error err => exact ⟨hinv, nofun⟩
    | ok pair =>
      obtain ⟨plan, checksum⟩ := pair
      obtain ⟨hmem, rfl⟩ := hplan plan checksum rfl
      dsimp only
      split
      · -- skipped: the recorded plan has this checksum, so it has these contents
        rename_i hcurrent
        refine ⟨hinv, ?_⟩
        rintro update ⟨⟩
        have happlied := eq_of_beq hcurrent
        obtain ⟨recorded, hrecorded, hsum⟩ := hinv.applied _ _ happlied
        obtain ⟨-, hrecorded_mem, hholds⟩ := hinv.published _ _ hrecorded
        exact hholds.of_contents (hfree _ hrecorded_mem _ hmem hsum.symm)
      · have hlpm : request.apply_key.lpm_array_map_id = request.lpm_array.map RuntimeMap.id := rfl
        have hwrite := write_plan_spec hinv hkeys hkey hlpm hmem request.failure
        generalize write_plan request.apply_key request.lpm_array plan
          (resident_routing_apply_checksum hash plan) request.failure cache₁ maps = written
          at hwrite ⊢
        obtain ⟨result, cache₂, maps₂⟩ := written
        cases result with
        | error err => exact ⟨hwrite.1, nofun⟩
        | ok _ =>
          refine ⟨hwrite.1, ?_⟩
          rintro update ⟨⟩
          exact hwrite.2 rfl

end

/-! ## Runs -/

section

variable (engines : TextEngines) (hash : List UInt8 → UInt64)

/-- The cache and the maps after any calls on pairs of maps from a set, whose
configurations have their plans in a set. -/
inductive Run (keys : Set ResidentRoutingApplyKey) (plans : Set ResidentRoutingPlan) :
    ResidentRoutingApplyCache → Maps → Prop
  | start (maps : Maps) : Run keys plans {} maps
  | call {cache : ResidentRoutingApplyCache} {maps : Maps} (h : Run keys plans cache maps)
      (request : Request) (hkey : request.apply_key ∈ keys)
      (hbuilt : ∀ plan, RoutingBuild.build_routing_plan_with_geodata_resolver engines
        request.geodata.resolver request.config = .ok plan → plan ∈ plans) :
      Run keys plans (update_resident_routing_map_fd engines hash request cache maps).2.1
        (update_resident_routing_map_fd engines hash request cache maps).2.2

variable {engines hash} {keys : Set ResidentRoutingApplyKey} {plans : Set ResidentRoutingPlan}

theorem update_resident_routing_map_fd_state (request : Request) (cache : ResidentRoutingApplyCache)
    (maps : Maps) : (update_resident_routing_map_fd engines hash request cache maps).2
      = (write_routing engines hash request cache maps).2 := by
  unfold update_resident_routing_map_fd
  split
  · rename_i heq
    rw [heq]
  · rename_i heq
    rw [heq]
    split <;> rfl

variable (hkeys : Disjoint keys)
  (hfree : ∀ p ∈ plans, ∀ q ∈ plans, resident_routing_apply_checksum hash p
    = resident_routing_apply_checksum hash q → contents p = contents q)
include hkeys hfree

theorem Run.inv {cache : ResidentRoutingApplyCache} (h : Run engines hash keys plans cache maps) :
    CacheInv hash keys plans cache maps := by
  induction h with
  | start maps =>
    refine ⟨fun key plan hget => ?_, fun key checksum hget => ?_, fun _ _ _ _ hget => ?_⟩
    · simp at hget
    · simp at hget
    · cases hget
  | call h request hkey hbuilt ih =>
    rw [update_resident_routing_map_fd_state]
    exact (write_routing_spec ih hkeys hfree hkey hbuilt).1

end

/-! ## Two routing maps with one LPM array -/

/-- One rule for a destination network. -/
def ip_config (cidr : String) : Config where
  group := [⟨"proxy"⟩]
  routing :=
    { rules :=
        [ { and_functions := [{ name := "dip", not := false, params := [.plain "" cidr] }]
            outbound := { name := "proxy", not := false, params := [] } } ]
      fallback := .String "direct" }

def ip_plan (cidr : String) : ResidentRoutingPlan :=
  (RoutingBuild.build_routing_plan_with_geodata_resolver RoutingCompileSound.literal_engines
    RoutingOptimize.no_geodata (ip_config cidr)).toOption.getD {}

/-- Publish it to a routing map with the LPM array map 9. -/
def ip_request (routing_map_id : UInt32) (cidr : String) : Request where
  routing_map := ⟨routing_map_id, .ok ()⟩
  lpm_array := some ⟨9, .ok ()⟩
  connectivity := none
  config := ip_config cidr
  geodata := ⟨0, RoutingOptimize.no_geodata⟩
  failure := none

def sum_hash (bytes : List UInt8) : UInt64 :=
  bytes.foldl (fun sum byte => 31 * sum + byte.toUInt64) 7

def ip_plans : Set ResidentRoutingPlan := fun plan =>
  plan = ip_plan "10.0.0.0/8" ∨ plan = ip_plan "192.168.0.0/16"

theorem ip_plans_distinguished :
    ∀ p ∈ ip_plans, ∀ q ∈ ip_plans, resident_routing_apply_checksum sum_hash p
      = resident_routing_apply_checksum sum_hash q → contents p = contents q := by
  rintro p (rfl | rfl) q (rfl | rfl) h
  · rfl
  · exact absurd h (by decide +kernel)
  · exact absurd h (by decide +kernel)
  · rfl

theorem ip_request_built {routing_map_id : UInt32} {cidr : String} {plan : ResidentRoutingPlan}
    (h : RoutingBuild.build_routing_plan_with_geodata_resolver RoutingCompileSound.literal_engines
      (ip_request routing_map_id cidr).geodata.resolver (ip_request routing_map_id cidr).config
        = .ok plan) : plan = ip_plan cidr := by
  change RoutingBuild.build_routing_plan_with_geodata_resolver RoutingCompileSound.literal_engines
    RoutingOptimize.no_geodata (ip_config cidr) = .ok plan at h
  rw [ip_plan, h]
  rfl

def no_slots : Maps := ⟨fun _ _ => none, fun _ _ => none⟩

/-- The cache and the maps after a call. -/
def after_request (request : Request) (state : ResidentRoutingApplyCache × Maps) :
    ResidentRoutingApplyCache × Maps :=
  (update_resident_routing_map_fd RoutingCompileSound.literal_engines sum_hash request state.1
    state.2).2

def one_key : Set ResidentRoutingApplyKey := fun key => key = ⟨1, some 9⟩

theorem one_key_disjoint : Disjoint one_key :=
  ⟨by rintro _ rfl _ rfl _; rfl, by rintro _ rfl _ rfl _ _ _; rfl⟩

/-- Each routing map is always presented with the LPM array map 9. -/
def sharing_keys : Set ResidentRoutingApplyKey := fun key =>
  key = ⟨1, some 9⟩ ∨ key = ⟨2, some 9⟩

def shared : ResidentRoutingApplyCache × Maps :=
  after_request (ip_request 2 "192.168.0.0/16") (after_request (ip_request 1 "10.0.0.0/8")
    ({}, no_slots))

end DaeNext.ResidentRoutingPublished
