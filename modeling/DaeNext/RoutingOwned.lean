/-
The owner of the routing maps, `dae-runtime-control/src/routing_owned.rs`.

The owner remembers the last plan that was applied, by its checksum, and skips a call
that asks for the same plan on the same maps. The apply callback writes the LPM slots of
the plan and then its routing entries (`apply_routing_maps_with_lpm_build_by_id` of
`dae-ebpf-support`), and when it fails it may have written some of them. The owner then
keeps what it remembered, although the maps no longer hold it.

`Run` is any sequence of calls, with callbacks that succeed or stop anywhere. In a run
whose failing callbacks leave the remembered maps alone, a skip is right.
-/
import DaeNext.LibTable
import DaeNext.RoutingNative

set_option autoImplicit false

namespace DaeNext.RoutingOwned

open RoutingPlan EbpfRouting RoutingNative

/-- `blake3::Hash`. -/
abbrev Hash := Vector UInt8 32

structure RoutingMapOwner where
  routing_map_id : Option UInt32 := none
  lpm_array_map_id : Option UInt32 := none
  checksum : Option Hash := none
  plan : RoutingNativeBuildPlan := {}
  deriving DecidableEq

structure RoutingMapOwnerApplyReport where
  routing_map_id : UInt32
  lpm_array_map_id : UInt32
  map_changed : Bool
  plan_changed : Bool
  skipped : Bool
  checksum : UInt64
  routing_entries_updated : Nat
  lpm_maps_created : Nat
  deriving DecidableEq

/-- The `io::Error` of a call: an invalid plan, or what the callback returned. -/
inductive ApplyError where
  | InvalidInput (err : RoutingNativePlanError)
  | apply (err : String)
  deriving DecidableEq

def checksum_digest_u64 (hash : Hash) : UInt64 :=
  UInt64.ofNat (Wire.fromLe (hash.toList.take 8))

/-- `apply_snapshot_with`, over any state that the callback changes. -/
def RoutingMapOwner.apply_snapshot_with {κ : Type} (hash : List UInt8 → Hash)
    (self : RoutingMapOwner) (routing_map_id lpm_array_map_id : UInt32)
    (plan : RoutingNativeBuildPlan)
    (apply : UInt32 → UInt32 → RoutingNativeBuildPlan → κ → Except String Unit × κ) (kernel : κ) :
    Except ApplyError RoutingMapOwnerApplyReport × RoutingMapOwner × κ :=
  match plan.validate with
  | .error err => (.error (.InvalidInput err), self, kernel)
  | .ok () =>
    let checksum := plan.checksum hash
    let map_changed := self.routing_map_id != some routing_map_id
      || self.lpm_array_map_id != some lpm_array_map_id
    let plan_changed := self.checksum != some checksum
    if !map_changed && !plan_changed then
      (.ok { routing_map_id, lpm_array_map_id, map_changed := false, plan_changed := false,
             skipped := true, checksum := checksum_digest_u64 checksum,
             routing_entries_updated := 0, lpm_maps_created := 0 },
        self, kernel)
    else
      match apply routing_map_id lpm_array_map_id plan kernel with
      -- the owner keeps what it remembers, the kernel what was written
      | (.error err, kernel) => (.error (.apply err), self, kernel)
      | (.ok (), kernel) =>
        (.ok { routing_map_id, lpm_array_map_id, map_changed, plan_changed, skipped := false,
               checksum := checksum_digest_u64 checksum,
               routing_entries_updated := plan.routing_entries.length,
               lpm_maps_created := plan.lpm_maps.length },
          { routing_map_id := some routing_map_id, lpm_array_map_id := some lpm_array_map_id,
            checksum := some checksum, plan }, kernel)

/-! ## The kernel maps -/

/-- The slots of the routing maps and of the LPM array maps, by map id. An LPM slot has
the trie built from a spec. -/
structure Maps where
  routing : UInt32 → Table UInt32 BpfMatchSet
  lpm : UInt32 → Table UInt32 LpmMapBuildSpec

/-- The first `n` writes of `apply_routing_maps_with_lpm_build_by_id`: the LPM slots,
then the routing entries. -/
def write_first (n : Nat) (routing_map_id lpm_array_map_id : UInt32)
    (plan : RoutingNativeBuildPlan) (maps : Maps) : Maps where
  lpm := Function.update maps.lpm lpm_array_map_id
    (Table.write (maps.lpm lpm_array_map_id)
      ((plan.lpm_maps.take n).map fun spec => (spec.index, some spec)))
  routing := Function.update maps.routing routing_map_id
    (Table.write (maps.routing routing_map_id)
      ((plan.routing_entries.take (n - plan.lpm_maps.length)).map fun entry =>
        (entry.index, some entry.value)))

/-- The callback: all writes, or a failure after some of them. -/
def apply_routing_maps (failure : Option Nat) (routing_map_id lpm_array_map_id : UInt32)
    (plan : RoutingNativeBuildPlan) (maps : Maps) : Except String Unit × Maps :=
  match failure with
  | none =>
    (.ok (), write_first (plan.lpm_maps.length + plan.routing_entries.length) routing_map_id
      lpm_array_map_id plan maps)
  | some n =>
    (.error "map update failed", write_first n routing_map_id lpm_array_map_id plan maps)

/-- Every routing entry and every LPM set of the plan is in the maps. -/
structure Holds (maps : Maps) (routing_map_id lpm_array_map_id : UInt32)
    (plan : RoutingNativeBuildPlan) : Prop where
  routing : ∀ entry ∈ plan.routing_entries,
    (maps.routing routing_map_id)[entry.index]? = some entry.value
  lpm : ∀ spec ∈ plan.lpm_maps, (maps.lpm lpm_array_map_id)[spec.index]? = some spec

theorem routing_indices_eq {position : Nat} {entries : List RoutingMapEntry}
    (h : check_routing_indices position entries = .ok ()) :
    entries.map (fun entry => entry.index.toNat) = List.range' position entries.length := by
  induction entries generalizing position with
  | nil => rfl
  | cons entry entries ih =>
    rw [check_routing_indices] at h
    split_ifs at h with hindex
    rw [List.map_cons, ih h, List.length_cons, List.range'_succ, not_not.mp hindex]

variable {plan : RoutingNativeBuildPlan}

theorem routing_indices_nodup (h : plan.validate = .ok ()) :
    (plan.routing_entries.map RoutingMapEntry.index).Nodup := by
  have hindices : check_routing_indices 0 plan.routing_entries = .ok () := by
    unfold RoutingNativeBuildPlan.validate at h
    split_ifs at h
    split at h
    · cases h
    · assumption
  -- the indices count up from zero
  refine List.Nodup.of_map UInt32.toNat ?_
  rw [List.map_map]
  change (plan.routing_entries.map fun entry => entry.index.toNat).Nodup
  rw [routing_indices_eq hindices]
  exact List.nodup_range'

theorem holds_write_all (hvalid : plan.validate = .ok ())
    (hindices : (plan.lpm_maps.map LpmMapBuildSpec.index).Nodup) (r l : UInt32) (maps : Maps) :
    Holds (write_first (plan.lpm_maps.length + plan.routing_entries.length) r l plan maps) r l plan where
  routing entry hentry := by
    dsimp only [write_first]
    rw [Function.update_self, List.take_of_length_le (by omega)]
    exact Table.getElem?_write_map _ RoutingMapEntry.index RoutingMapEntry.value
      (routing_indices_nodup hvalid) hentry
  lpm spec hspec := by
    dsimp only [write_first]
    rw [Function.update_self, List.take_of_length_le (by omega)]
    exact Table.getElem?_write_map _ LpmMapBuildSpec.index id hindices hspec

/-! ## Runs -/

structure Call where
  routing_map_id : UInt32
  lpm_array_map_id : UInt32
  plan : RoutingNativeBuildPlan
  /-- how many writes a failing callback makes -/
  failure : Option Nat

section

variable (hash : List UInt8 → Hash)

def Call.step (call : Call) (owner : RoutingMapOwner) (maps : Maps) :
    Except ApplyError RoutingMapOwnerApplyReport × RoutingMapOwner × Maps :=
  owner.apply_snapshot_with hash call.routing_map_id call.lpm_array_map_id call.plan
    (apply_routing_maps call.failure) maps

/-- Where a failing callback writes, the owner does not believe to know what is there;
and no two LPM specs of the plan ask for one slot. -/
structure KeepsMemory (owner : RoutingMapOwner) (call : Call) : Prop where
  lpm_untouched : ∀ n, call.failure = some n → 0 < n → call.plan.lpm_maps ≠ [] →
    owner.lpm_array_map_id ≠ some call.lpm_array_map_id
  routing_untouched : ∀ n, call.failure = some n → call.plan.lpm_maps.length < n →
    owner.routing_map_id ≠ some call.routing_map_id
  lpm_indices : (call.plan.lpm_maps.map LpmMapBuildSpec.index).Nodup

/-- The states after any calls with plans from a set that meet a condition. -/
inductive Run (plans : Set RoutingNativeBuildPlan) (Meets : RoutingMapOwner → Call → Prop) :
    RoutingMapOwner → Maps → Prop
  | start (maps : Maps) : Run plans Meets {} maps
  | call {owner : RoutingMapOwner} {maps : Maps} (h : Run plans Meets owner maps) (call : Call)
      (hplan : call.plan ∈ plans) (hmeets : Meets owner call) :
      Run plans Meets (call.step hash owner maps).2.1 (call.step hash owner maps).2.2

def Remembers (plans : Set RoutingNativeBuildPlan) (owner : RoutingMapOwner) (maps : Maps) : Prop :=
  ∀ checksum, owner.checksum = some checksum →
    ∃ plan ∈ plans, ∃ r l, checksum = plan.checksum hash ∧ owner.routing_map_id = some r
      ∧ owner.lpm_array_map_id = some l ∧ Holds maps r l plan

variable {owner : RoutingMapOwner} {maps : Maps}

/-- A failing callback that leaves the remembered maps alone leaves a held plan held. -/
theorem holds_write_first {call : Call} (hkeeps : KeepsMemory owner call) {n : Nat}
    (hfailure : call.failure = some n) {r l : UInt32}
    (hr : owner.routing_map_id = some r) (hl : owner.lpm_array_map_id = some l)
    (h : Holds maps r l plan) :
    Holds (write_first n call.routing_map_id call.lpm_array_map_id call.plan maps) r l plan := by
  constructor
  · intro entry hentry
    rw [← h.routing entry hentry]
    dsimp only [write_first]
    by_cases hmap : r = call.routing_map_id
    · -- the remembered routing map: no entry was written yet
      have hn : n - call.plan.lpm_maps.length = 0 := by
        by_contra hpos
        exact hkeeps.routing_untouched n hfailure (by omega) (hr.trans (by rw [hmap]))
      rw [hmap, Function.update_self, hn]
      rfl
    · rw [Function.update_of_ne hmap]
  · intro spec hspec
    rw [← h.lpm spec hspec]
    dsimp only [write_first]
    by_cases hmap : l = call.lpm_array_map_id
    · have hnone : call.plan.lpm_maps.take n = [] := by
        rw [List.take_eq_nil_iff]
        by_contra hpos
        rw [not_or] at hpos
        exact hkeeps.lpm_untouched n hfailure (Nat.pos_of_ne_zero hpos.1) hpos.2
          (hl.trans (by rw [hmap]))
      rw [hmap, Function.update_self, hnone]
      rfl
    · rw [Function.update_of_ne hmap]

variable {hash} {plans : Set RoutingNativeBuildPlan}

theorem remembers_step (h : Remembers hash plans owner maps) {call : Call}
    (hplan : call.plan ∈ plans) (hkeeps : KeepsMemory owner call) :
    Remembers hash plans (call.step hash owner maps).2.1 (call.step hash owner maps).2.2 := by
  simp only [Call.step, RoutingMapOwner.apply_snapshot_with]
  cases hvalid : call.plan.validate with
  | error err => exact h
  | ok _ =>
    dsimp only
    split
    · exact h
    · cases hfailure : call.failure with
      -- all written: the memory is the new plan
      | none =>
        rintro checksum ⟨rfl⟩
        exact ⟨call.plan, hplan, _, _, rfl, rfl, rfl,
          holds_write_all hvalid hkeeps.lpm_indices _ _ maps⟩
      -- written in part: the old memory has to be still true
      | some n =>
        intro checksum hchecksum
        obtain ⟨plan, hmem, r, l, hsum, hr, hl, hheld⟩ := h checksum hchecksum
        exact ⟨plan, hmem, r, l, hsum, hr, hl, holds_write_first hkeeps hfailure hr hl hheld⟩

theorem Run.remembers (h : Run hash plans KeepsMemory owner maps) : Remembers hash plans owner maps := by
  induction h with
  | start maps =>
    nofun
  | call h call hplan hmeets ih => exact remembers_step ih hplan hmeets

/-- **A skipped plan is in the maps**, in every run whose calls keep what the owner
remembers. -/
theorem skipped_plan_held (hfree : ∀ p ∈ plans, ∀ q ∈ plans, p.checksum hash = q.checksum hash → p = q)
    {owner : RoutingMapOwner} {maps : Maps} (hrun : Run hash plans KeepsMemory owner maps)
    {call : Call} (hplan : call.plan ∈ plans) {report : RoutingMapOwnerApplyReport}
    (hreport : (call.step hash owner maps).1 = .ok report) (hskipped : report.skipped = true) :
    Holds (call.step hash owner maps).2.2 call.routing_map_id call.lpm_array_map_id call.plan := by
  have hmemory := hrun.remembers
  simp only [Call.step, RoutingMapOwner.apply_snapshot_with] at hreport ⊢
  cases hvalid : call.plan.validate with
  | error err =>
    rw [hvalid] at hreport
    cases hreport
  | ok _ =>
    rw [hvalid] at hreport
    dsimp only at hreport ⊢
    split at hreport
    · rename_i hsame
      rw [if_pos hsame]
      simp only [Bool.and_eq_true, Bool.not_eq_true', Bool.or_eq_false_iff, bne_eq_false_iff_eq]
        at hsame
      obtain ⟨⟨hrouting, hlpm⟩, hsum⟩ := hsame
      obtain ⟨plan, hmem, r, l, hchecksum, hr, hl, hheld⟩ := hmemory _ hsum
      -- the remembered plan has the checksum of this one, so it is this one
      obtain rfl := hfree _ hplan plan hmem hchecksum
      obtain rfl := Option.some.inj (hrouting.symm.trans hr)
      obtain rfl := Option.some.inj (hlpm.symm.trans hl)
      exact hheld
    -- a call that reaches the callback does not report `skipped`
    · cases hfailure : call.failure with
      | none =>
        rw [hfailure] at hreport
        rw [← Except.ok.inj hreport] at hskipped
        cases hskipped
      | some n =>
        rw [hfailure] at hreport
        cases hreport

end

/-! ## A failed call, then the old plan again -/

/-- A plan that sends everything to one outbound. -/
def fallback_to (outbound : UInt8) : RoutingNativeBuildPlan where
  routing_entries :=
    [⟨0, { value := List.replicate 16 0, not := 0, kind := MATCH_TYPE_FALLBACK, outbound,
           must := 0, mark := 0 }, rfl⟩]

def apply_to (outbound : UInt8) (failure : Option Nat) : Call where
  routing_map_id := 1
  lpm_array_map_id := 2
  plan := fallback_to outbound
  failure := failure

/-- A hash that tells these plans apart: the byte of the outbound. -/
def outbound_hash (bytes : List UInt8) : Hash := Vector.replicate 32 (bytes.getD 21 0)

def two_plans : Set RoutingNativeBuildPlan := fun plan => plan = fallback_to 0 ∨ plan = fallback_to 1

theorem two_plans_collision_free :
    ∀ p ∈ two_plans, ∀ q ∈ two_plans, p.checksum outbound_hash = q.checksum outbound_hash → p = q := by
  rintro p (rfl | rfl) q (rfl | rfl) h
  · rfl
  · exact absurd h (by decide)
  · exact absurd h (by decide)
  · rfl

def no_entries : Maps := ⟨fun _ => {}, fun _ => {}⟩

def applied : RoutingMapOwner × Maps := ((apply_to 0 none).step outbound_hash {} no_entries).2

theorem applied_run {Meets : RoutingMapOwner → Call → Prop} (hmeets : Meets {} (apply_to 0 none)) :
    Run outbound_hash two_plans Meets applied.1 applied.2 :=
  Run.call (Run.start no_entries) (apply_to 0 none) (.inl rfl) hmeets

theorem skipped_plan_held_again :
    ∃ report, ((apply_to 0 none).step outbound_hash applied.1 applied.2).1 = .ok report
      ∧ report.skipped = true
      ∧ Holds ((apply_to 0 none).step outbound_hash applied.1 applied.2).2.2 1 2 (fallback_to 0) :=
  ⟨_, rfl, rfl, skipped_plan_held two_plans_collision_free
    (applied_run ⟨nofun, nofun, List.nodup_nil⟩)
    (.inl rfl) rfl rfl⟩

/-- The owner and the maps after a second plan whose callback failed after its write. -/
def half_applied : RoutingMapOwner × Maps :=
  ((apply_to 1 (some 1)).step outbound_hash applied.1 applied.2).2

/-- Going back to the first plan is skipped, with the second plan's entry in the map. -/
theorem skipped_plan_not_held :
    Run outbound_hash two_plans (fun _ _ => True) half_applied.1 half_applied.2
      ∧ ∃ report,
        ((apply_to 0 none).step outbound_hash half_applied.1 half_applied.2).1 = .ok report
          ∧ report.skipped = true
          ∧ ¬ Holds ((apply_to 0 none).step outbound_hash half_applied.1 half_applied.2).2.2 1 2
              (fallback_to 0) := by
  refine ⟨?_, _, rfl, rfl, fun hheld => ?_⟩
  · exact Run.call (applied_run trivial) (apply_to 1 (some 1)) (.inr rfl) trivial
  · have hentry := hheld.routing _ List.mem_cons_self
    exact absurd hentry (by decide +kernel)

end DaeNext.RoutingOwned
