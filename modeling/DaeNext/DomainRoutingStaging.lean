/-
A batch keeps the tracker consistent.

Two tables have to agree: what the owners list, and what is kept per address. `listed`
reads the second off the first, and `TrackerInv` says that the tracker keeps exactly
that, with no empty entries. A batch is staged address by address, so the argument is
about one address and one owner key at a time (`owner_view`): after staging, a
replaced owner is on the address if its new snapshot lists it, and every other owner
is where it was. The commit then keeps the invariant.
-/
import DaeNext.DomainRouting

set_option autoImplicit false

namespace DaeNext.DomainRoutingStaging

open DomainRouting Table
open List hiding getElem?_modify
open Std.TreeMap hiding getElem?_modify

/-! ## Merged bitmaps -/

def bitmap_bit (bitmap : DomainBitmap) (i : Fin 32) (k : Nat) : Bool := (bitmap.get i).getLsbD k

theorem bitmap_bit_or (a b : DomainBitmap) (i : Fin 32) (k : Nat) :
    bitmap_bit (or_bitmap a b) i k = (bitmap_bit a i k || bitmap_bit b i k) := by
  have hget : (or_bitmap a b).get i = a.get i ||| b.get i := Vector.getElem_zipWith i.isLt
  rw [bitmap_bit, hget, BitVec.getLsbD_or]
  rfl

theorem bitmap_bit_foldl (entries : List (String × DomainBitmap)) (start : DomainBitmap)
    (i : Fin 32) (k : Nat) :
    bitmap_bit (entries.foldl (fun merged entry => or_bitmap merged entry.2) start) i k
      = (bitmap_bit start i k || entries.any fun entry => bitmap_bit entry.2 i k) := by
  induction entries generalizing start with
  | nil => simp
  | cons entry entries ih =>
    rw [List.foldl_cons, ih, bitmap_bit_or, any_cons, Bool.or_assoc]

theorem bitmap_bit_merge (owners : Table String DomainBitmap) (i : Fin 32) (k : Nat) :
    bitmap_bit (merge_owner_bitmaps owners) i k = true
      ↔ ∃ (key : String) (bitmap : DomainBitmap), owners[key]? = some bitmap
          ∧ bitmap_bit bitmap i k = true := by
  have hzero : bitmap_bit (Vector.replicate 32 0) i k = false := by
    have hget : (Vector.replicate 32 (0 : BitVec 32)).get i = 0 := Vector.getElem_replicate i.isLt
    rw [bitmap_bit, hget]
    exact BitVec.getLsbD_zero
  rw [merge_owner_bitmaps, bitmap_bit_foldl, hzero, Bool.false_or, any_eq_true]
  constructor
  · rintro ⟨⟨key, bitmap⟩, hmem, hbit⟩
    exact ⟨key, bitmap, mem_toList_iff_getElem?_eq_some.mp hmem, hbit⟩
  · rintro ⟨key, bitmap, hget, hbit⟩
    exact ⟨(key, bitmap), mem_toList_iff_getElem?_eq_some.mpr hget, hbit⟩

/-! ## The invariant of the tracker -/

/-- What an address owes to an owner, read off the owner's snapshot. -/
def listed (owners : Table String DomainRoutingOwnerSnapshot) (ip : DomainRoutingIpKey)
    (key : String) : Option DomainBitmap :=
  (owners[key]?).bind fun snapshot => if ip ∈ snapshot.ips then some snapshot.bitmap else none

/-- The state of an address is what the owners list for it, and there is one only
if some owner does. -/
def Describes (owners : Table String DomainRoutingOwnerSnapshot) (ip : DomainRoutingIpKey) :
    Option IpState → Prop
  | none => ∀ key, listed owners ip key = none
  | some state => state.owners.isEmpty = false ∧ state.merged = merge_owner_bitmaps state.owners
      ∧ ∀ key : String, state.owners[key]? = listed owners ip key

structure TrackerInv (tracker : DomainRoutingTracker) : Prop where
  owners : ∀ (key : String) snapshot, tracker.owners[key]? = some snapshot →
    snapshot.is_empty = false
  ips : ∀ ip, Describes tracker.owners ip tracker.ips[ip]?

theorem trackerInv_empty : TrackerInv {} where
  owners key snapshot h := by simp at h
  ips ip key := by simp [listed]

/-! ## Staging, one address and one owner at a time -/

section

variable {tracker : DomainRoutingTracker} {staged : Table DomainRoutingIpKey IpState}
  {ip : DomainRoutingIpKey}

/-- The bitmap of an owner on a staged address. -/
def owner_view (staged : Table DomainRoutingIpKey IpState) (ip : DomainRoutingIpKey)
    (key : String) : Option (Option DomainBitmap) :=
  (staged[ip]?).map fun state => state.owners[key]?

variable {key : String}

theorem owner_view_foldl_update {f : Table String DomainBitmap → Table String DomainBitmap}
    {r : Option DomainBitmap} (hf : ∀ (owners : Table String DomainBitmap) (k : String),
      (f owners)[k]? = if k = key then r else owners[k]?)
    (ips : List DomainRoutingIpKey) (k : String) :
    owner_view (ips.foldl (update_owners f) staged) ip k
      = if ip ∈ ips ∧ k = key then (owner_view staged ip k).map fun _ => r
        else owner_view staged ip k := by
  induction ips generalizing staged with
  | nil => simp
  | cons a ips ih =>
    -- one address; an address that is not staged has no view to change
    have hstep : owner_view (update_owners f staged a) ip k
        = if ip = a ∧ k = key then (owner_view staged ip k).map fun _ => r
          else owner_view staged ip k := by
      rw [owner_view, update_owners, getElem?_modify]
      by_cases hip : ip = a
      · subst hip
        cases hstate : staged[ip]? with
        | none => simp [owner_view, hstate]
        | some state => by_cases hk : k = key <;> simp [owner_view, hstate, hf, hk]
      · simp [owner_view, hip]
    rw [List.foldl_cons, ih, hstep]
    by_cases hk : k = key
    · by_cases hip : ip = a
      · subst hip
        by_cases hmem : ip ∈ ips <;> simp [hk, hmem, Function.comp_def]
      · simp [hk, hip]
    · simp [hk]

/-- What a new snapshot puts on an address. -/
def assigned (snapshot : DomainRoutingOwnerSnapshot) (ip : DomainRoutingIpKey) :
    Option DomainBitmap :=
  if snapshot.is_empty = false ∧ ip ∈ snapshot.ips then some snapshot.bitmap else none

theorem listed_of_not_mem_old_ips (h : ip ∉ old_ips tracker key) :
    listed tracker.owners ip key = none := by
  unfold old_ips at h
  unfold listed
  cases howner : tracker.owners[key]? with
  | none => rfl
  | some old =>
    rw [howner] at h
    simp [h]

theorem owner_view_stage_replacement (snapshot : DomainRoutingOwnerSnapshot)
    (hview : owner_view staged ip key = some (listed tracker.owners ip key)) (k : String) :
    owner_view (stage_replacement tracker staged (key, snapshot)) ip k
      = if k = key then some (assigned snapshot ip) else owner_view staged ip k := by
  -- the owner is off the address, because it was taken off or was never on it
  have herase : owner_view ((old_ips tracker key).foldl
      (update_owners fun owners => owners.erase key) staged) ip k
        = if k = key then some none else owner_view staged ip k := by
    rw [owner_view_foldl_update (fun owners k => getElem?_erase owners key k)]
    by_cases hk : k = key
    · rw [hk, hview]
      by_cases hmem : ip ∈ old_ips tracker key
      · simp [hmem]
      · simp [hmem, listed_of_not_mem_old_ips hmem]
    · simp [hk]
  unfold stage_replacement
  dsimp only
  cases hempty : snapshot.is_empty with
  | true =>
    rw [if_pos rfl, herase, assigned, hempty]
    simp
  | false =>
    rw [if_neg (by decide),
      owner_view_foldl_update (fun owners k => getElem?_insert owners key k _), herase,
      assigned, hempty]
    by_cases hk : k = key
    · by_cases hmem : ip ∈ snapshot.ips <;> simp [hk, hmem]
    · simp [hk]

theorem owner_view_stage_list {entries : List (String × DomainRoutingOwnerSnapshot)}
    (hdistinct : entries.Pairwise fun a b => a.1 ≠ b.1)
    (hview : ∀ entry ∈ entries, owner_view staged ip entry.1
      = some (listed tracker.owners ip entry.1)) :
    (∀ entry ∈ entries, owner_view (entries.foldl (stage_replacement tracker) staged) ip entry.1
        = some (assigned entry.2 ip))
      ∧ ∀ k, (∀ entry ∈ entries, entry.1 ≠ k) →
          owner_view (entries.foldl (stage_replacement tracker) staged) ip k
            = owner_view staged ip k := by
  induction entries generalizing staged with
  | nil => exact ⟨by simp, fun _ _ => rfl⟩
  | cons entry entries ih =>
    obtain ⟨key, snapshot⟩ := entry
    obtain ⟨hhead, htail⟩ := pairwise_cons.mp hdistinct
    have hstep := owner_view_stage_replacement snapshot (hview _ mem_cons_self)
    -- the owners of a batch are distinct, so a turn leaves the views of the others alone
    have hrest : ∀ e ∈ entries, owner_view (stage_replacement tracker staged (key, snapshot)) ip e.1
        = some (listed tracker.owners ip e.1) := by
      intro e he
      rw [hstep, if_neg (fun heq => hhead e he heq.symm)]
      exact hview e (mem_cons_of_mem _ he)
    obtain ⟨hin, hout⟩ := ih htail hrest
    refine ⟨fun e he => ?_, fun k hk => ?_⟩
    · rcases mem_cons.mp he with rfl | he
      · rw [List.foldl_cons, hout key (fun e he heq => hhead e he heq.symm), hstep, if_pos rfl]
      · exact hin e he
    · rw [List.foldl_cons, hout k (fun e he => hk e (mem_cons_of_mem _ he)), hstep,
        if_neg (fun heq => hk _ mem_cons_self heq.symm)]

theorem stage_list_of_none (entries : List (String × DomainRoutingOwnerSnapshot))
    (hnone : staged[ip]? = none) : (entries.foldl (stage_replacement tracker) staged)[ip]? = none := by
  have hloop : ∀ (f : Table String DomainBitmap → Table String DomainBitmap)
      (ips : List DomainRoutingIpKey) (s : Table DomainRoutingIpKey IpState), s[ip]? = none →
      (ips.foldl (update_owners f) s)[ip]? = none := by
    intro f ips
    induction ips with
    | nil => exact fun s h => h
    | cons a ips ih =>
      intro s h
      refine ih _ ?_
      rw [update_owners, getElem?_modify, h]
      simp
  induction entries generalizing staged with
  | nil => exact hnone
  | cons entry entries ih =>
    refine ih ?_
    unfold stage_replacement
    dsimp only
    split
    · exact hloop _ _ _ hnone
    · exact hloop _ _ _ (hloop _ _ _ hnone)

theorem getElem?_stage_merged (affected : List DomainRoutingIpKey) :
    (stage_merged staged affected)[ip]?
      = if ip ∈ affected then
          (staged[ip]?).map fun state => { state with merged := merge_owner_bitmaps state.owners }
        else staged[ip]? := by
  unfold stage_merged
  induction affected generalizing staged with
  | nil => simp
  | cons a affected ih =>
    rw [List.foldl_cons, ih, getElem?_modify]
    by_cases hip : ip = a
    · subst hip
      by_cases hmem : ip ∈ affected <;> simp [hmem, Function.comp_def]
    · simp [hip]

end

/-! ## A batch keeps the invariant -/

section

variable {tracker : DomainRoutingTracker} (hinv : TrackerInv tracker)
  (replacements : Table String DomainRoutingOwnerSnapshot) (ip : DomainRoutingIpKey)

def staged_batch (tracker : DomainRoutingTracker)
    (replacements : Table String DomainRoutingOwnerSnapshot) : Table DomainRoutingIpKey IpState :=
  let affected := affected_ips tracker replacements
  stage_merged (stage_owners tracker replacements affected) affected

theorem mem_normalize_ip_keys (keys : List DomainRoutingIpKey) :
    ip ∈ normalize_ip_keys keys ↔ ip ∈ keys := by
  -- neither the sort nor the removal of neighbours loses a key
  have hany := Vec.dedup_by_any (fun a b : DomainRoutingIpKey => a == b) (· == ip)
    (fun a b hab => by rw [beq_iff_eq.mp hab]) (Vec.sort_by compare keys)
  rw [Vec.sort_by_any, Bool.eq_iff_iff, List.any_beq', List.any_beq', List.contains_iff_mem,
    List.contains_iff_mem] at hany
  exact hany

theorem mem_affected_ips :
    ip ∈ affected_ips tracker replacements ↔ ∃ (key : String) (snapshot : DomainRoutingOwnerSnapshot),
      replacements[key]? = some snapshot ∧ (ip ∈ old_ips tracker key ∨ ip ∈ snapshot.ips) := by
  rw [affected_ips, mem_normalize_ip_keys, mem_flatMap]
  constructor
  · rintro ⟨⟨key, snapshot⟩, hmem, hip⟩
    exact ⟨key, snapshot, mem_toList_iff_getElem?_eq_some.mp hmem,
      mem_append.mp hip⟩
  · rintro ⟨key, snapshot, hget, hip⟩
    exact ⟨(key, snapshot), mem_toList_iff_getElem?_eq_some.mpr hget,
      mem_append.mpr hip⟩

variable (staged : Table DomainRoutingIpKey IpState)

theorem getElem?_commit_owners (key : String) :
    (commit_staged tracker replacements staged).owners[key]?
      = match replacements[key]? with
        | some snapshot => if snapshot.is_empty then none else some snapshot
        | none => tracker.owners[key]? := by
  have hwrite := getElem?_write_toList tracker.owners replacements
    (fun snapshot => if snapshot.is_empty then none else some snapshot) key
  rw [commit_staged, hwrite]
  cases replacements[key]? <;> rfl

theorem getElem?_commit_ips :
    (commit_staged tracker replacements staged).ips[ip]?
      = match staged[ip]? with
        | some state => if state.owners.isEmpty then none else some state
        | none => tracker.ips[ip]? := by
  have hwrite := getElem?_write_toList tracker.ips staged
    (fun state => if state.owners.isEmpty then none else some state) ip
  rw [commit_staged, hwrite]
  cases staged[ip]? <;> rfl

theorem listed_commit (key : String) :
    listed (commit_staged tracker replacements staged).owners ip key
      = match replacements[key]? with
        | some snapshot => assigned snapshot ip
        | none => listed tracker.owners ip key := by
  rw [listed, getElem?_commit_owners]
  cases replacements[key]? with
  | none => rfl
  | some snapshot =>
    cases hempty : snapshot.is_empty <;> simp [assigned, hempty]

include hinv

theorem owner_view_initial (key : String) :
    ((tracker.ips[ip]?).getD {}).owners[key]? = listed tracker.owners ip key := by
  have hip := hinv.ips ip
  cases hstate : tracker.ips[ip]? with
  | none =>
    rw [hstate] at hip
    rw [hip key]
    simp
  | some state =>
    rw [hstate] at hip
    exact hip.2.2 key

/-- **A staged address has the owners that list it after the batch.** -/
theorem staged_batch_of_mem (hmem : ip ∈ affected_ips tracker replacements) :
    ∃ state, (staged_batch tracker replacements)[ip]? = some state
      ∧ state.merged = merge_owner_bitmaps state.owners
      ∧ ∀ key : String, state.owners[key]?
          = listed (commit_staged tracker replacements (staged_batch tracker replacements)).owners ip key := by
  -- the address with its current owners
  set current := write (β := IpState) {} ((affected_ips tracker replacements).map fun ip =>
    (ip, some ((tracker.ips[ip]?).getD {}))) with hcurrent
  have hinit : current[ip]? = some ((tracker.ips[ip]?).getD {}) := by
    refine getElem?_write_of_mem ⟨_, mem_map.mpr ⟨ip, hmem, rfl⟩, rfl⟩ fun entry he heq => ?_
    obtain ⟨a, -, rfl⟩ := mem_map.mp he
    rw [show a = ip from heq]
  have hview : ∀ key, owner_view current ip key = some (listed tracker.owners ip key) := by
    intro key
    rw [owner_view, hinit, Option.map_some, owner_view_initial hinv ip key]
  obtain ⟨hin, hout⟩ := owner_view_stage_list (toList_keys_distinct replacements)
    (fun entry _ => hview entry.1)
  -- named by the batch or not, the owner lists what it will list after the commit
  have hstaged : ∀ key : String, owner_view (stage_owners tracker replacements
      (affected_ips tracker replacements)) ip key
        = some (listed (commit_staged tracker replacements (staged_batch tracker replacements)).owners
            ip key) := by
    intro key
    rw [listed_commit, stage_owners]
    cases hget : replacements[key]? with
    | some snapshot =>
      exact hin (key, snapshot) (mem_toList_iff_getElem?_eq_some.mpr hget)
    | none =>
      refine (hout key fun entry he heq => ?_).trans (hview key)
      rw [← heq, mem_toList_iff_getElem?_eq_some.mp he] at hget
      cases hget
  obtain ⟨state, hstate, -⟩ := Option.map_eq_some_iff.mp (hstaged "")
  refine ⟨{ state with merged := merge_owner_bitmaps state.owners }, ?_, rfl, fun key => ?_⟩
  · rw [staged_batch, getElem?_stage_merged, if_pos hmem, hstate]
    rfl
  · have := hstaged key
    rw [owner_view, hstate, Option.map_some] at this
    exact Option.some.inj this

omit hinv in
theorem staged_batch_of_not_mem (hmem : ip ∉ affected_ips tracker replacements) :
    (staged_batch tracker replacements)[ip]? = none := by
  rw [staged_batch, getElem?_stage_merged, if_neg hmem, stage_owners]
  refine stage_list_of_none _ ?_
  rw [getElem?_write_of_not_mem]
  · simp
  · rintro entry he rfl
    obtain ⟨a, ha, rfl⟩ := mem_map.mp he
    exact hmem ha

omit hinv in
theorem listed_commit_of_not_mem (hmem : ip ∉ affected_ips tracker replacements) (key : String) :
    listed (commit_staged tracker replacements (staged_batch tracker replacements)).owners ip key
      = listed tracker.owners ip key := by
  rw [listed_commit]
  cases hget : replacements[key]? with
  | none => rfl
  | some snapshot =>
    have hout : ip ∉ old_ips tracker key ∧ ip ∉ snapshot.ips := by
      rw [mem_affected_ips] at hmem
      exact ⟨fun h => hmem ⟨key, snapshot, hget, .inl h⟩,
        fun h => hmem ⟨key, snapshot, hget, .inr h⟩⟩
    dsimp only
    rw [listed_of_not_mem_old_ips hout.1, assigned, if_neg (fun h => hout.2 h.2)]

/-- **The commit keeps the invariant.** -/
theorem commit_staged_inv :
    TrackerInv (commit_staged tracker replacements (staged_batch tracker replacements)) where
  owners key snapshot h := by
    rw [getElem?_commit_owners] at h
    cases hget : replacements[key]? with
    | none =>
      rw [hget] at h
      exact hinv.owners key snapshot h
    | some s =>
      rw [hget] at h
      dsimp only at h
      split at h
      · cases h
      · rename_i hempty
        cases h
        exact Bool.eq_false_iff.mpr hempty
  ips ip := by
    rw [getElem?_commit_ips]
    -- reached by the batch: the staged state is stored, or dropped when nobody is left
    by_cases hmem : ip ∈ affected_ips tracker replacements
    · obtain ⟨state, hstate, hmerged, howners⟩ := staged_batch_of_mem hinv replacements ip hmem
      rw [hstate]
      dsimp only
      cases hempty : state.owners.isEmpty with
      | true =>
        intro key
        rw [← howners key]
        exact (isEmpty_iff state.owners).mp hempty key
      | false =>
        exact ⟨hempty, hmerged, howners⟩
    -- out of reach: neither the state nor what the owners list has moved
    · rw [staged_batch_of_not_mem replacements ip hmem]
      have hip := hinv.ips ip
      cases hstate : tracker.ips[ip]? with
      | none =>
        rw [hstate] at hip
        intro key
        rw [listed_commit_of_not_mem replacements ip hmem key, hip key]
      | some state =>
        rw [hstate] at hip
        refine ⟨hip.1, hip.2.1, fun key => ?_⟩
        rw [listed_commit_of_not_mem replacements ip hmem key, hip.2.2 key]

end

end DaeNext.DomainRoutingStaging
