/-
From a plan to a matcher: `typed_matcher.rs` and `RoutingMatcher`, put together.

The matcher decodes the 24-byte match sets, indexes the prefix sets by `u32` and
the domain sets by bit. What a single match set then answers can be said on the
plan itself (`kind_hit`): a domain match set asks the domain sets of its position,
an LPM match set the prefix set of its index. `plan_matcher_spec` is that
translation for whole plans, and everything after it is about plans.
-/
import DaeNext.RoutingPlan

set_option autoImplicit false

namespace DaeNext.RoutingPlanMatcher

open CoreTypes Net RoutingPrefix RoutingDomain RoutingUserspace RoutingPlan Fallible RoutingMatcher
open List hiding set

def userspace_matcher_typed_sets (plan : ResidentRoutingPlan) :
    Except String
      (List RoutingSharedDomainSet × List RoutingSharedLpmSet × List RoutingMatchSet) := do
  let domain_sets := plan.domain_sets.map fun set =>
    ({ bit := set.rule_index, patterns := set.values } : RoutingSharedDomainSet)
  let lpm_sets := plan.lpm_sets.mapIdx fun index prefixes =>
    ({ index := UInt32.ofNat index, prefixes := .new prefixes } : RoutingSharedLpmSet)
  let match_sets ← plan.match_sets.mapM match_set_typed
  return (domain_sets, lpm_sets, match_sets)

def plan_matcher (plan : ResidentRoutingPlan) : Except String RoutingMatcher := do
  let (domain_sets, lpm_sets, match_sets) ← userspace_matcher_typed_sets plan
  return .from_shared_typed_sets domain_sets lpm_sets match_sets

theorem plan_matcher_match_sets {plan : ResidentRoutingPlan} {matcher : RoutingMatcher}
    (h : plan_matcher plan = .ok matcher) :
    ∃ typed, plan.match_sets.mapM match_set_typed = .ok typed
      ∧ matcher.match_sets = typed.map MatchSet.from_typed_set := by
  obtain ⟨_, h', h⟩ := bind_ok h
  obtain ⟨typed, htyped, h'⟩ := bind_ok h'
  obtain rfl := Except.ok.inj h'
  cases h
  exact ⟨typed, htyped, rfl⟩

/-! ## What a match set answers, on the plan -/

/-- A prefix set of the plan and an address the packet may lack. -/
def plan_lpm_hit (plan : ResidentRoutingPlan) (lpm_index : UInt32) (addr : Option IpAddr) : Bool :=
  (plan.lpm_sets[lpm_index.toNat]?).any fun prefixes =>
    addr.any fun addr => prefixes.any (·.contains addr)

def port_between (start last : UInt16) (port : Option UInt16) : Bool :=
  port.any fun port => start ≤ port && port ≤ last

def kind_hit (plan : ResidentRoutingPlan) (query : Query) (index : Nat) :
    RoutingMatchKind → Bool
  | .DomainSet => !query.domain.isEmpty && plan.domain_sets.any fun set =>
    decide (set.rule_index = index) && set.values.matches query.domain
  | .IpSet lpm_index => plan_lpm_hit plan lpm_index (some query.dest)
  | .SourceIpSet lpm_index => plan_lpm_hit plan lpm_index query.source
  | .Mac lpm_index => plan_lpm_hit plan lpm_index query.mac_addr
  | .Port start last => port_between start last (some query.dest_port)
  | .SourcePort start last => port_between start last query.source_port
  | .L4Proto value => query.l4proto.any fun got => got &&& value != 0
  | .IpVersion value => query.effective_ip_version &&& value != 0
  | .ProcessName value => query.process_name_bytes.any fun got => got.head? != some 0 && value = got
  | .Dscp value => query.dscp.any fun got => got = value
  | .Fallback => true

/-- The link of a match set by its outbound. -/
def spec_link (outbound : OutboundIndex) (mark : UInt32) (must : Bool) :
    MatchChain.Link MatchOutcome :=
  if outbound = .LOGICAL_OR then .or
  else if outbound = .LOGICAL_AND then .and
  else if outbound = .MUST_RULES then .done none
  else .done (some { outbound, mark, must })

/-- The cell of one match set at a position of a plan. -/
def plan_cell (plan : ResidentRoutingPlan) (query : Query) (index : Nat) (set : MatchSetBytes) :
    MatchChain.Cell MatchOutcome :=
  match match_set_typed set with
  | .ok typed =>
    ⟨kind_hit plan query index typed.kind, typed.not,
      spec_link typed.outbound typed.mark typed.must⟩
  | .error _ => ⟨false, false, .or⟩

def plan_cells (plan : ResidentRoutingPlan) (query : Query) (index : Nat) :
    List MatchSetBytes → List (MatchChain.Cell MatchOutcome)
  | [] => []
  | set :: sets => plan_cell plan query index set :: plan_cells plan query (index + 1) sets

theorem plan_cells_append (plan : ResidentRoutingPlan) (query : Query) (index : Nat)
    (sets more : List MatchSetBytes) :
    plan_cells plan query index (sets ++ more)
      = plan_cells plan query index sets ++ plan_cells plan query (index + sets.length) more := by
  induction sets generalizing index with
  | nil => rfl
  | cons set sets ih =>
    have hindex : index + 1 + sets.length = index + (set :: sets).length := by
      rw [length_cons]
      omega
    rw [cons_append, plan_cells, plan_cells, ih, cons_append, hindex]

/-! ## The prefix index -/

/-- Sets numbered in order are found under their numbers, as long as the numbers
do not wrap. -/
theorem getElem?_ofList_mapIdx {α β : Type} (g : α → β) {l : List α} (hlen : l.length ≤ 2 ^ 32)
    (k : UInt32) : (Std.TreeMap.ofList (l.mapIdx fun i a => (UInt32.ofNat i, g a)) compare)[k]?
      = (l[k.toNat]?).map g := by
  -- below the bound the numbering is injective
  have hnat : ∀ i < l.length, (UInt32.ofNat i).toNat = i := by
    intro i hi
    rw [UInt32.toNat_ofNat', Nat.mod_eq_of_lt (by omega)]
  by_cases hk : k.toNat < l.length
  · rw [getElem?_eq_getElem hk, Option.map_some]
    refine Std.TreeMap.getElem?_ofList_of_mem (k := k) Std.ReflCmp.compare_self ?_ ?_
    · rw [pairwise_iff_getElem]
      intro i j hi hj hij
      simp only [length_mapIdx] at hi hj
      simp only [getElem_mapIdx, Std.LawfulEqOrd.compare_eq_iff_eq]
      intro heq
      have := congrArg UInt32.toNat heq
      rw [hnat i hi, hnat j hj] at this
      omega
    · rw [mem_mapIdx]
      exact ⟨k.toNat, hk, by rw [UInt32.ofNat_toNat]⟩
  · rw [getElem?_eq_none (by omega), Option.map_none]
    refine Std.TreeMap.getElem?_ofList_of_contains_eq_false ?_
    rw [← Bool.not_eq_true, contains_iff_mem, mem_map]
    -- a key of the map is the number of some element
    rintro ⟨⟨key, a⟩, hmem, rfl⟩
    obtain ⟨i, hi, heq⟩ := mem_mapIdx.mp hmem
    cases heq
    rw [hnat i hi] at hk
    exact hk hi

/-! ## The matcher answers as the plan -/

theorem link_eq_spec_link (set : RoutingMatchSet) :
    (MatchSet.from_typed_set set).link = spec_link set.outbound set.mark set.must := by
  obtain ⟨kind, outbound, not, mark, must⟩ := set
  cases kind <;> rfl

theorem not_from_typed_set (set : RoutingMatchSet) : (MatchSet.from_typed_set set).not = set.not := by
  obtain ⟨kind, outbound, not, mark, must⟩ := set
  cases kind <;> rfl

section

/-! The two assumptions are what the matcher was built to have. -/

variable {plan : ResidentRoutingPlan} {query : Query} {domain_bitmap : List (BitVec 32)}
  {lpm_sets : LpmSets} {bound : Nat}
  (hbits : ∀ bit < bound, Bitmap.has domain_bitmap bit = kind_hit plan query bit .DomainSet)
  (hlpm : ∀ k addr, lpm_matches lpm_sets (some k) addr = plan_lpm_hit plan k addr)

include hbits hlpm

/-- One match set. -/
theorem matches_eq_kind_hit (set : RoutingMatchSet) (index : Nat) (hindex : index < bound) :
    (MatchSet.from_typed_set set).matches index query domain_bitmap lpm_sets
      = kind_hit plan query index set.kind := by
  obtain ⟨kind, outbound, not, mark, must⟩ := set
  -- a kind reads its own optional field, which the decoder filled
  cases kind with
  | DomainSet => exact hbits index hindex
  | IpSet k | SourceIpSet k | Mac k => exact hlpm k _
  | Port start last | IpVersion value | Fallback => rfl
  | SourcePort start last =>
    simp only [MatchSet.matches, MatchSet.from_typed_set, port_matches, kind_hit, port_between]
    cases query.source_port <;> rfl
  | L4Proto value =>
    simp only [MatchSet.matches, MatchSet.from_typed_set, kind_hit]
    cases query.l4proto <;> rfl
  | ProcessName value =>
    simp only [MatchSet.matches, MatchSet.from_typed_set, kind_hit]
    cases query.process_name_bytes <;> rfl
  | Dscp value =>
    simp only [MatchSet.matches, MatchSet.from_typed_set, kind_hit]
    cases query.dscp <;> rfl

theorem chain_cells_eq_plan_cells (sets : List MatchSetBytes) (typed : List RoutingMatchSet)
    (htyped : sets.mapM match_set_typed = .ok typed) (index : Nat)
    (hbound : index + sets.length ≤ bound) :
    chain_cells (fun i s => s.matches i query domain_bitmap lpm_sets) index
        (typed.map MatchSet.from_typed_set)
      = plan_cells plan query index sets := by
  induction sets generalizing typed index with
  | nil =>
    rw [mapM_nil_ok htyped]
    rfl
  | cons set sets ih =>
    obtain ⟨t, ts, ht, hts, rfl⟩ := mapM_cons_ok htyped
    rw [length_cons] at hbound
    rw [map_cons, chain_cells, plan_cells, ih ts hts (index + 1) (by omega),
      matches_eq_kind_hit hbits hlpm t index (by omega), link_eq_spec_link, not_from_typed_set,
      plan_cell, ht]

end

/-- **A plan's matcher, on the plan.** For a plan whose match sets all decode. -/
theorem plan_matcher_spec (plan : ResidentRoutingPlan)
    (hdecode : ∀ set ∈ plan.match_sets, ∃ typed, match_set_typed set = .ok typed)
    (hlen : plan.lpm_sets.length ≤ 2 ^ 32) (query : Query) :
    ∃ matcher, plan_matcher plan = .ok matcher
      ∧ matcher.match_query_detail query
          = chain_outcome (MatchChain.eval false false false
              (plan_cells plan query 0 plan.match_sets)) := by
  obtain ⟨typed, htyped⟩ := mapM_ok_of_forall hdecode
  have htlen := mapM_length htyped
  let matcher := from_shared_typed_sets
    (plan.domain_sets.map fun set => ⟨set.rule_index, set.values⟩)
    (plan.lpm_sets.mapIdx fun index prefixes => ⟨UInt32.ofNat index, .new prefixes⟩) typed
  refine ⟨matcher, by rw [plan_matcher, userspace_matcher_typed_sets, htyped]; rfl, ?_⟩
  obtain ⟨domain_bitmap, hbits, hdetail⟩ := match_query_detail_eq matcher query
  rw [hdetail]
  -- every position of the plan has a bit
  have hbits' : ∀ bit < plan.match_sets.length,
      Bitmap.has domain_bitmap bit = kind_hit plan query bit .DomainSet := by
    intro bit hbit
    rw [hbits bit (by simp only [matcher, from_shared_typed_sets]; omega)]
    simp only [matcher, from_shared_typed_sets, map_map, any_map, kind_hit]
    rfl
  -- and every prefix set is found under its index, linear or indexed
  have hlpm : ∀ k addr, lpm_matches matcher.lpm_sets (some k) addr = plan_lpm_hit plan k addr := by
    intro k addr
    have hget := getElem?_ofList_mapIdx SharedIpPrefixSet.new hlen k
    rw [mapIdx_eq_zipIdx_map] at hget
    simp only [lpm_matches, matcher, from_shared_typed_sets, mapIdx_eq_zipIdx_map,
      map_map, Option.bind_some, plan_lpm_hit, Function.comp_def]
    rw [hget]
    cases plan.lpm_sets[k.toNat]? with
    | none => rfl
    | some prefixes =>
      cases addr with
      | none => rfl
      | some addr => exact SharedIpPrefixSet.contains_eq prefixes addr
  rw [← chain_cells_eq_plan_cells hbits' hlpm plan.match_sets typed htyped 0 (by omega)]
  rfl

end DaeNext.RoutingPlanMatcher
