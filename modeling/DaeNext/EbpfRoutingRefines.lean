/-
The kernel's walk refines the userspace matcher.

Both walk the same match sets with the same three flags; the kernel keeps them in
one byte and a word of the domain bitmap beside them. `Tracks` relates a kernel
context to the three flags of `match_loop`. One lemma for each part of the
callback says what it does to them, and the walks then go in step: where the
userspace loop returns an outcome, `route` returns it packed.
-/
import DaeNext.EbpfRouting
import DaeNext.RoutingCompileSound

set_option autoImplicit false

namespace DaeNext.EbpfRoutingRefines

open ConfigAst CoreTypes RoutingDomain RoutingUserspace RoutingPlan RoutingPlanMatcher List
open RoutingCompile RoutingEmit RoutingCompileSound EbpfRouting

/-! ## The flags in one byte -/

def state_bits (bad good must dns : Bool) : UInt8 :=
  (if bad then ROUTE_BAD_RULE else 0) ||| (if good then ROUTE_GOOD_SUBRULE else 0)
    ||| (if must then ROUTE_MUST else 0) ||| (if dns then ROUTE_IS_DNS else 0)

section

variable (bad good must dns : Bool)

theorem state_bits_open : (state_bits bad good must dns &&& (ROUTE_GOOD_SUBRULE ||| ROUTE_BAD_RULE) = 0)
    ↔ (good = false ∧ bad = false) := by
  decide +revert

theorem state_bits_good : (state_bits bad good must dns &&& ROUTE_GOOD_SUBRULE != 0) = good := by
  decide +revert

theorem state_bits_bad : (state_bits bad good must dns &&& ROUTE_BAD_RULE = 0) ↔ bad = false := by
  decide +revert

theorem state_bits_must : (state_bits bad good must dns &&& ROUTE_MUST != 0) = must := by
  decide +revert

theorem state_bits_dns : (state_bits bad good must dns &&& ROUTE_IS_DNS != 0) = dns := by
  decide +revert

theorem state_bits_or_good : state_bits bad good must dns ||| ROUTE_GOOD_SUBRULE
    = state_bits bad true must dns := by
  decide +revert

theorem state_bits_or_bad : state_bits bad good must dns ||| ROUTE_BAD_RULE
    = state_bits true good must dns := by
  decide +revert

theorem state_bits_or_must : state_bits bad good must dns ||| ROUTE_MUST
    = state_bits bad good true dns := by
  decide +revert

theorem state_bits_clear_good : state_bits bad good must dns &&& ~~~ ROUTE_GOOD_SUBRULE
    = state_bits bad false must dns := by
  decide +revert

theorem state_bits_clear_bad : state_bits bad good must dns &&& ~~~ ROUTE_BAD_RULE
    = state_bits false good must dns := by
  decide +revert

end

/-! ## Contexts -/

/-- A context of a walk for `params` with these flags. The domain word is that of
the destination's bitmap, and the address has none once a lookup has missed. -/
structure Tracks (maps : KernelMaps) (params : RouteParams) (bad good must : Bool)
    (ctx : RouteCtx) : Prop where
  params_eq : ctx.params = params
  dport : ctx.h_dport = params.h_dport
  sport : ctx.h_sport = params.h_sport
  saddr : ctx.lpm_key_saddr = set_lpm_key params.saddr
  daddr : ctx.lpm_key_daddr = set_lpm_key params.daddr
  mac : ctx.lpm_key_mac = set_lpm_key params.mac
  state : ctx.state = state_bits bad good must (is_dns params)
  absent : ctx.domain_absent ≠ 0 → maps.domain_routing_map params.daddr = none
  word : ctx.domain_word_index ≠ DOMAIN_WORD_NONE →
    ∃ domain word_index, maps.domain_routing_map params.daddr = some domain ∧ word_index < 32
      ∧ ctx.domain_word_index = UInt16.ofNat word_index
      ∧ ctx.domain_word = domain_word_of domain word_index

variable {maps : KernelMaps} {params : RouteParams} {bad good must : Bool} {ctx : RouteCtx}

theorem tracks_init (maps : KernelMaps) (params : RouteParams) :
    Tracks maps params false false false (init_route_ctx params) where
  params_eq := rfl
  dport := rfl
  sport := rfl
  saddr := rfl
  daddr := rfl
  mac := rfl
  state := by
    rw [init_route_ctx]
    cases is_dns params <;> rfl
  absent h := absurd rfl h
  word h := absurd rfl h

section

variable (h : Tracks maps params bad good must ctx)

include h

theorem Tracks.set_state {bad' good' must' : Bool} {state : UInt8}
    (hstate : state = state_bits bad' good' must' (is_dns params)) :
    Tracks maps params bad' good' must' { ctx with state } :=
  { h with state := hstate }

/-- **The cache never changes a verdict**, and keeps its invariant. -/
theorem domain_bitmap_hit_cached_eq (index : Nat) :
    (domain_bitmap_hit_cached maps index ctx).1 = domain_bitmap_hit maps params.daddr index
      ∧ Tracks maps params bad good must (domain_bitmap_hit_cached maps index ctx).2 := by
  have hword : (index >>> 5) &&& 31 < 32 :=
    Nat.lt_of_le_of_lt Nat.and_le_right (by decide)
  unfold domain_bitmap_hit_cached domain_bitmap_hit
  split
  · -- a lookup has missed before
    rename_i habsent
    rw [h.absent (by simpa using habsent)]
    exact ⟨rfl, h⟩
  · dsimp only
    split
    · have hlookup : maps.domain_routing_map ctx.params.daddr
          = maps.domain_routing_map params.daddr := by rw [h.params_eq]
      cases hdomain : maps.domain_routing_map params.daddr with
      | none =>
        rw [hlookup, hdomain]
        exact ⟨rfl, { h with absent := fun _ => hdomain }⟩
      | some domain =>
        rw [hlookup, hdomain]
        exact ⟨rfl, { h with word := fun _ => ⟨domain, _, hdomain, hword, rfl, rfl⟩ }⟩
    · -- the word is there already
      rename_i hindex
      have hindex : ctx.domain_word_index = UInt16.ofNat ((index >>> 5) &&& 31) := by
        simpa using hindex
      have hnat : ∀ {i : Nat}, i < 32 → (UInt16.ofNat i).toNat = i := by
        intro i hi
        rw [UInt16.toNat_ofNat', Nat.mod_eq_of_lt (by omega)]
      -- a word index is below 32, so it is not the one that says "no word yet"
      have hnone : ctx.domain_word_index ≠ DOMAIN_WORD_NONE := by
        intro heq
        have := congrArg UInt16.toNat (hindex.symm.trans heq)
        rw [hnat hword, show DOMAIN_WORD_NONE.toNat = 65535 from rfl] at this
        omega
      obtain ⟨domain, word_index, hdomain, hlt, hi, hw⟩ := h.word hnone
      -- below 32 the index is not truncated, so the stored word is the one asked for
      have hsame : word_index = (index >>> 5) &&& 31 := by
        have := congrArg UInt16.toNat (hi.symm.trans hindex)
        rwa [hnat hlt, hnat hword] at this
      rw [hdomain, hw, hsame]
      exact ⟨rfl, h⟩

/-! ## The parts of the callback -/

omit h in
/-- The verdict of one slot of the routing map on a packet, each match set for
itself: no flags, no cache. -/
def kernel_verdict (maps : KernelMaps) (params : RouteParams) (index : Nat) : Option Bool :=
  (maps.routing_map index).bind fun match_set =>
    (match_hit maps (init_route_ctx params) match_set
      (domain_bitmap_hit maps params.daddr index)).toOption

theorem match_hit_eq (set : BpfMatchSet) (domain_hit : Bool) :
    match_hit maps ctx set domain_hit = match_hit maps (init_route_ctx params) set domain_hit := by
  obtain ⟨_, _, _, _, _, _, _, _, _, _, _⟩ := ctx
  obtain ⟨hparams, hdport, hsport, hsaddr, hdaddr, hmac, -, -, -⟩ := h
  dsimp only at hparams hdport hsport hsaddr hdaddr hmac
  subst hparams hdport hsport hsaddr hdaddr hmac
  rfl

end

variable {set : BpfMatchSet}

theorem match_hit_domain_hit (hkind : set.kind ≠ MATCH_TYPE_DOMAIN_SET) (a b : Bool) :
    match_hit maps ctx set a = match_hit maps ctx set b := by
  simp only [match_hit, if_neg hkind]

theorem test_match_set_tracks {index : Nat} {hit : Bool}
    (hhit : match_hit maps (init_route_ctx params) set (domain_bitmap_hit maps params.daddr index)
      = .ok hit) (h : Tracks maps params bad good must ctx) :
    ∃ ctx', test_match_set maps index set ctx = .ok ctx'
      ∧ Tracks maps params bad (good || (!bad && !good && hit)) must ctx' := by
  unfold test_match_set
  rw [h.state]
  by_cases hopen : good = false ∧ bad = false
  · rw [if_pos ((state_bits_open bad good must _).mpr hopen)]
    -- whatever the kind, the test answers `hit` and the context still tracks
    have htest : ∃ ctx', Tracks maps params bad good must ctx' ∧
        (if set.kind = MATCH_TYPE_DOMAIN_SET then domain_bitmap_hit_cached maps index ctx
          else (false, ctx)).2 = ctx' ∧
        match_hit maps ctx' set (if set.kind = MATCH_TYPE_DOMAIN_SET then
          domain_bitmap_hit_cached maps index ctx else (false, ctx)).1 = .ok hit := by
      by_cases hkind : set.kind = MATCH_TYPE_DOMAIN_SET
      · obtain ⟨hcached, htracks⟩ := domain_bitmap_hit_cached_eq h index
        refine ⟨_, htracks, by rw [if_pos hkind], ?_⟩
        rw [if_pos hkind, hcached, match_hit_eq htracks, hhit]
      · refine ⟨ctx, h, by rw [if_neg hkind], ?_⟩
        rw [if_neg hkind, match_hit_eq h, match_hit_domain_hit hkind _
          (domain_bitmap_hit maps params.daddr index), hhit]
    obtain ⟨ctx', htracks, hctx, hmatch⟩ := htest
    dsimp only
    rw [hctx, hmatch]
    refine ⟨_, rfl, ?_⟩
    rw [hopen.1, hopen.2] at htracks ⊢
    cases hit with
    | false => exact htracks
    | true =>
      refine htracks.set_state ?_
      rw [htracks.state, state_bits_or_good]
      rfl
  · rw [if_neg (fun hstate => hopen ((state_bits_open bad good must _).mp hstate))]
    refine ⟨ctx, rfl, ?_⟩
    -- the flags settle it: the kernel does not test, the matcher ignores the test
    have hsame : (good || (!bad && !good && hit)) = good := by
      cases good <;> cases bad <;> simp_all
    rwa [hsame]

theorem close_subrule_or (hor : set.outbound = OUTBOUND_LOGICAL_OR) : close_subrule set ctx = ctx := by
  rw [close_subrule, hor]
  rfl

theorem close_subrule_tracks (hor : set.outbound ≠ OUTBOUND_LOGICAL_OR)
    (h : Tracks maps params bad good must ctx) :
    Tracks maps params (bad || good == (set.not != 0)) false must (close_subrule set ctx) := by
  unfold close_subrule
  rw [if_pos (bne_iff_ne.mpr hor), h.state]
  dsimp only
  rw [state_bits_good]
  by_cases hlost : good = (set.not != 0)
  · rw [if_pos hlost]
    refine h.set_state ?_
    rw [route_state_or, h.state, state_bits_or_bad, state_bits_clear_good,
      beq_iff_eq.mpr hlost, Bool.or_true]
  · rw [if_neg hlost]
    refine h.set_state ?_
    rw [h.state, state_bits_clear_good, beq_eq_false_iff_ne.mpr hlost, Bool.or_false]

variable {outbound : OutboundIndex}

/-- A rule goes on: the third part does nothing. -/
theorem close_rule_logical (hout : set.outbound = outbound.value) (hends : outbound.ends_rule = false) :
    close_rule set ctx = (ctx, false) := by
  have hmask : (set.outbound &&& OUTBOUND_LOGICAL_MASK != OUTBOUND_LOGICAL_MASK) = false := by
    rw [hout]
    exact hends
  rw [close_rule, hmask]
  rfl

/-- A lost rule: the next one starts clean. -/
theorem close_rule_lost (hout : set.outbound = outbound.value) (hends : outbound.ends_rule = true)
    (h : Tracks maps params true good must ctx) : (close_rule set ctx).2 = false
      ∧ Tracks maps params false good must (close_rule set ctx).1 := by
  have hmask : (set.outbound &&& OUTBOUND_LOGICAL_MASK != OUTBOUND_LOGICAL_MASK) = true := by
    rw [hout]
    exact hends
  have hbad : ¬ ctx.state &&& ROUTE_BAD_RULE = 0 := by
    rw [h.state, state_bits_bad]
    decide
  rw [close_rule, if_pos hmask, if_neg hbad]
  refine ⟨rfl, h.set_state ?_⟩
  rw [h.state, state_bits_clear_bad]

/-- The packed result for an outcome: `must` keeps a DNS packet on its outbound. -/
def packed_outcome (params : RouteParams) (outcome : MatchOutcome) : Int :=
  pack_result
    (if !outcome.must && is_dns params then OUTBOUND_CONTROL_PLANE_ROUTING
      else outcome.outbound.value)
    outcome.mark outcome.must

/-- A rule that holds: `must_rules` leaves its mark and the walk goes on, any other
outbound ends it. -/
theorem close_rule_holds (hout : set.outbound = outbound.value) (hends : outbound.ends_rule = true)
    (h : Tracks maps params false good must ctx) :
    if outbound = .MUST_RULES then
      (close_rule set ctx).2 = false ∧ Tracks maps params false good true (close_rule set ctx).1
    else
      (close_rule set ctx).2 = true
        ∧ (close_rule set ctx).1.result = packed_outcome params
            { outbound, mark := set.mark, must := set.must != 0 || must } := by
  have hmask : (set.outbound &&& OUTBOUND_LOGICAL_MASK != OUTBOUND_LOGICAL_MASK) = true := by
    rw [hout]
    exact hends
  have hbad : ctx.state &&& ROUTE_BAD_RULE = 0 := by
    rw [h.state, state_bits_bad]
  rw [close_rule, if_pos hmask, if_pos hbad]
  split
  · rename_i hmust
    rw [if_pos (by rw [hout, hmust]; rfl)]
    refine ⟨rfl, h.set_state ?_⟩
    rw [route_state_or, h.state, state_bits_or_must, state_bits_clear_bad]
  · rename_i hmust
    have hmust' : set.outbound ≠ OUTBOUND_MUST_RULES := by
      rw [hout]
      exact fun heq => hmust (OutboundIndex.mk.injEq _ _ ▸ heq)
    rw [if_neg hmust']
    refine ⟨rfl, ?_⟩
    rw [h.state, state_bits_must, state_bits_dns, packed_outcome, hout, Bool.or_comm]

/-! ## The walk -/

/-- A slot of the routing map holds what a match set of the matcher holds, and
answers `hit`. -/
structure SlotAgrees (maps : KernelMaps) (params : RouteParams) (hit : Bool) (index : Nat)
    (set : MatchSet) (slot : BpfMatchSet) : Prop where
  found : maps.routing_map index = some slot
  outbound : slot.outbound = set.outbound.value
  not : (slot.not != 0) = set.not
  mark : slot.mark = set.mark
  must : (slot.must != 0) = set.must
  hit : match_hit maps (init_route_ctx params) slot (domain_bitmap_hit maps params.daddr index)
    = .ok hit

theorem route_loop_cb_eq {hit : Bool} {index : Nat} {set : MatchSet} {slot : BpfMatchSet}
    (hslot : SlotAgrees maps params hit index set slot) (hindex : index < MAX_MATCH_SET_LEN)
    (h : Tracks maps params bad good must ctx) :
    ∃ ctx', route_loop_cb maps index ctx = close_rule slot (close_subrule slot ctx')
      ∧ Tracks maps params bad (good || (!bad && !good && hit)) must ctx' := by
  obtain ⟨ctx', htest, htracks⟩ := test_match_set_tracks hslot.hit h
  refine ⟨ctx', ?_, htracks⟩
  rw [route_loop_cb, if_neg (Nat.not_le.mpr hindex), hslot.found]
  dsimp only
  rw [htest]

/-- **The walks go in step.** The induction is on the match sets that are left; the
cases are the links of a match set. -/
theorem loop_refines {query : Query} {bitmap : List (BitVec 32)} {lpm_sets : LpmSets}
    {outcome : MatchOutcome} {sets : List MatchSet} {index left : Nat}
    (hlen : sets.length ≤ left) (hend : index + left = MAX_MATCH_SET_LEN)
    (hslots : ∀ j set, sets[j]? = some set →
      ∃ slot, SlotAgrees maps params (set.matches (index + j) query bitmap lpm_sets) (index + j)
        set slot)
    (h : Tracks maps params bad good must ctx)
    (hloop : match_loop query bitmap lpm_sets index good bad must sets = .ok outcome) :
    (bpf_loop_from (route_loop_cb maps) left index ctx).2.result = packed_outcome params outcome := by
  induction sets generalizing index left bad good must ctx with
  | nil => cases hloop
  | cons set rest ih =>
    obtain ⟨left, rfl⟩ : ∃ n, left = n + 1 := ⟨left - 1, by rw [length_cons] at hlen; omega⟩
    obtain ⟨slot, hslot⟩ := hslots 0 set rfl
    rw [Nat.add_zero] at hslot
    obtain ⟨ctx', hcb, htracks⟩ := route_loop_cb_eq hslot (by omega) h
    have hrest : ∀ j set, rest[j]? = some set →
        ∃ slot, SlotAgrees maps params (set.matches (index + 1 + j) query bitmap lpm_sets)
          (index + 1 + j) set slot := by
      intro j s hs
      rw [Nat.add_assoc, Nat.add_comm 1 j]
      exact hslots (j + 1) s hs
    have hlen' : rest.length ≤ left := by rw [length_cons] at hlen; omega
    -- where the callback asks to go on, the rest of the walk is the induction hypothesis
    have hcontinue : ∀ {b g m : Bool}, (route_loop_cb maps index ctx).2 = false →
        Tracks maps params b g m (route_loop_cb maps index ctx).1 →
        match_loop query bitmap lpm_sets (index + 1) g b m rest = .ok outcome →
        (bpf_loop_from (route_loop_cb maps) (left + 1) index ctx).2.result
          = packed_outcome params outcome := by
      intro b g m hgo htr hl
      rw [bpf_loop_from, ← Prod.eta (route_loop_cb maps index ctx), hgo]
      exact ih hlen' (by omega) hrest htr hl
    rw [match_loop] at hloop
    simp only [raise_flag] at hloop
    generalize (good || (!bad && !good && set.matches index query bitmap lpm_sets)) = g at *
    -- an open disjunction, an open rule, a lost rule, a rule that holds
    by_cases hor : set.outbound = .LOGICAL_OR
    · have hends : (OutboundIndex.LOGICAL_OR).ends_rule = false := by decide
      have hout : slot.outbound = OutboundIndex.LOGICAL_OR.value := by rw [hslot.outbound, hor]
      rw [close_subrule_or hout, close_rule_logical hout hends] at hcb
      rw [hor] at hloop
      exact hcontinue (by rw [hcb]) (by rw [hcb]; exact htracks) hloop
    · have hne : slot.outbound ≠ OUTBOUND_LOGICAL_OR := by
        rw [hslot.outbound]
        exact fun heq => hor (OutboundIndex.mk.injEq _ _ ▸ heq)
      have hsub := close_subrule_tracks hne htracks
      rw [hslot.not] at hsub
      simp only [bne_iff_ne.mpr hor, if_true] at hloop
      generalize (bad || g == set.not) = lost at *
      cases hends : set.outbound.ends_rule with
      | false =>
        rw [close_rule_logical hslot.outbound hends] at hcb
        rw [hends] at hloop
        exact hcontinue (by rw [hcb]) (by rw [hcb]; exact hsub) hloop
      | true =>
        rw [if_pos hends] at hloop
        cases lost with
        | true =>
          obtain ⟨hgo, htr⟩ := close_rule_lost hslot.outbound hends hsub
          rw [← hcb] at hgo htr
          exact hcontinue hgo htr hloop
        | false =>
          have hholds := close_rule_holds hslot.outbound hends hsub
          rw [← hcb] at hholds
          split at hholds
          · rename_i hmust
            rw [Bool.not_false, if_pos rfl, if_pos hmust] at hloop
            exact hcontinue hholds.1 hholds.2 hloop
          · rename_i hmust
            rw [Bool.not_false, if_pos rfl, if_neg hmust] at hloop
            cases hloop
            rw [bpf_loop_from, ← Prod.eta (route_loop_cb maps index ctx), hholds.1]
            rw [hslot.mark, hslot.must] at hholds
            exact hholds.2

/-! ## Plans -/

/-- The kernel reads from the bytes of a match set what userspace reads from the
record and the bytes. -/
theorem slot_of_written {set : MatchSetBytes} (hwritten : Written set) {typed : RoutingMatchSet}
    (htyped : match_set_typed set = .ok typed) :
    (BpfMatchSet.from_bytes set.bytes).outbound = (MatchSet.from_typed_set typed).outbound.value
      ∧ ((BpfMatchSet.from_bytes set.bytes).not != 0) = (MatchSet.from_typed_set typed).not
      ∧ (BpfMatchSet.from_bytes set.bytes).mark = (MatchSet.from_typed_set typed).mark
      ∧ ((BpfMatchSet.from_bytes set.bytes).must != 0) = (MatchSet.from_typed_set typed).must := by
  obtain ⟨raw, not, match_type, outbound, kind, hraw, hkind, rfl⟩ := hwritten
  rw [match_set_typed_match_set hraw hkind] at htyped
  cases htyped
  have hflag : ∀ b : Bool, (b.toUInt8 != 0) = b := by decide
  -- the 24 bytes, field by field
  have hfrom : BpfMatchSet.from_bytes (match_set raw not match_type outbound).bytes
      = ⟨raw, not.toUInt8, match_type, outbound.id, outbound.must.toUInt8, outbound.mark⟩ := by
    have hdrop : raw.drop 20 = [] := drop_eq_nil_of_le (by omega)
    rw [BpfMatchSet.from_bytes, match_set]
    simp [hraw, drop_append, hdrop, take_of_length_le (Wire.le_length 4 _).le,
      Wire.ofNat_fromLe_u32]
  rw [hfrom]
  cases kind <;> exact ⟨rfl, hflag not, rfl, hflag outbound.must⟩

theorem pack_result_fields (outbound : UInt8) (mark : UInt32) (must : Bool) :
    0 ≤ pack_result outbound mark must
      ∧ (pack_result outbound mark must).toNat % 2 ^ 8 = outbound.toNat
      ∧ (pack_result outbound mark must).toNat / 2 ^ 8 % 2 ^ 32 = mark.toNat
      ∧ (pack_result outbound mark must).toNat.testBit 40 = must := by
  have hout : outbound.toNat < 2 ^ 8 := outbound.toNat_lt
  have hmark : mark.toNat < 2 ^ 32 := mark.toNat_lt
  have hlow : outbound.toNat ||| mark.toNat <<< 8 = mark.toNat <<< 8 + outbound.toNat := by
    rw [Nat.shiftLeft_add_eq_or_of_lt hout, Nat.or_comm]
  -- the three fields do not overlap, so the disjunction is a sum
  have hsum : outbound.toNat ||| mark.toNat <<< 8 ||| must.toNat <<< 40
      = must.toNat * 2 ^ 40 + (mark.toNat * 2 ^ 8 + outbound.toNat) := by
    rw [hlow, Nat.or_comm, ← Nat.shiftLeft_add_eq_or_of_lt (i := 40)
      (by rw [Nat.shiftLeft_eq]; omega), Nat.shiftLeft_eq, Nat.shiftLeft_eq]
  rw [pack_result, hsum]
  refine ⟨Int.natCast_nonneg _, ?_, ?_, ?_⟩
  · omega
  · omega
  · rw [Int.toNat_natCast, Nat.testBit_eq_decide_div_mod_eq]
    cases must <;> simp <;> omega

/-- **The kernel refines the matcher.** The plan is the compiler's, its last match
set a fallback other than `must_rules`; the routing map holds its match sets; and
each match set for itself gets the same verdict on both sides. -/
theorem route_refines_match_query_detail {engines : TextEngines} (hdoc : engines.Documented)
    {config : Config} {groups : OutboundGroups} (hgroups : outbound_groups config = .ok groups)
    {rules : List RoutingRule} {plan : ResidentRoutingPlan}
    (hplan : compile_rules engines groups 0 {} rules = .ok plan) {fallback : Function}
    {spec : OutboundSpec} (hspec : parse_outbound fallback groups = .ok spec)
    (hfallback : spec.id ≠ OutboundIndex.MUST_RULES.value)
    (hlen : (push_fallback plan spec).match_sets.length ≤ MAX_MATCH_SET_LEN)
    {matcher : RoutingMatcher} (hmatcher : plan_matcher (push_fallback plan spec) = .ok matcher)
    (hmaps : ∀ index set, (push_fallback plan spec).match_sets[index]? = some set →
      maps.routing_map index = some (BpfMatchSet.from_bytes set.bytes))
    {query : Query} (hverdict : ∀ index < (push_fallback plan spec).match_sets.length,
      kernel_verdict maps params index = matcher.verdict query index) :
    ∃ outcome, matcher.match_query_detail query = .ok outcome
      ∧ 0 ≤ route maps params
      ∧ (route maps params).toNat % 2 ^ 8
          = (if !outcome.must && is_dns params then OUTBOUND_CONTROL_PLANE_ROUTING
              else outcome.outbound.value).toNat
      ∧ (route maps params).toNat / 2 ^ 8 % 2 ^ 32 = outcome.mark.toNat
      ∧ (route maps params).toNat.testBit 40 = outcome.must := by
  obtain ⟨matcher', hmatcher', hdetail⟩ :=
    @match_query_detail_plan query engines hdoc _ _ hgroups _ _ hplan _ _ hspec hlen
  obtain rfl : matcher = matcher' := Except.ok.inj (hmatcher.symm.trans hmatcher')
  obtain ⟨outcome, houtcome⟩ := @source_outcome_ok engines query groups
    (rules.filter has_functions) spec hfallback
  rw [houtcome] at hdetail
  refine ⟨outcome, hdetail, ?_⟩
  obtain ⟨typed, htyped, hsets⟩ := plan_matcher_match_sets hmatcher
  obtain ⟨bitmap, hbitmap, hloop⟩ := Fallible.bind_ok hdetail
  have htlen := Fallible.mapM_length htyped
  -- the map holds the bytes of the plan, and verdicts agree slot by slot
  have hslots : ∀ j set, matcher.match_sets[j]? = some set →
      ∃ slot, SlotAgrees maps params (set.matches (0 + j) query bitmap matcher.lpm_sets) (0 + j)
        set slot := by
    intro j set hset
    rw [Nat.zero_add]
    have hv := hset
    rw [hsets, getElem?_map, Option.map_eq_some_iff] at hset
    obtain ⟨t, ht, rfl⟩ := hset
    obtain ⟨bytes, hbytes, hdecoded⟩ := Fallible.mapM_getElem? htyped ht
    have hwritten := push_fallback_written hdoc hgroups hplan hspec bytes
      (mem_of_getElem? hbytes)
    obtain ⟨hout, hnot, hmark, hmust⟩ := slot_of_written hwritten hdecoded
    have hfound := hmaps j bytes hbytes
    refine ⟨_, hfound, hout, hnot, hmark, hmust, ?_⟩
    have hagree := hverdict j (List.getElem?_eq_some_iff.mp hbytes).1
    rw [RoutingMatcher.verdict, hbitmap] at hagree
    dsimp only at hagree
    rw [hv, kernel_verdict, hfound, Option.bind_some, Option.map_some] at hagree
    generalize match_hit _ _ _ _ = hit at hagree ⊢
    cases hit with
    | error code => cases hagree
    | ok b => exact congrArg Except.ok (Option.some.inj hagree)
  have hfits : matcher.match_sets.length ≤ MAX_MATCH_SET_LEN := by
    rw [hsets, length_map, htlen]
    exact hlen
  have hresult := loop_refines hfits (Nat.zero_add _) hslots (tracks_init maps params) hloop
  obtain ⟨hnonneg, hbyte, hmark, hmust⟩ := pack_result_fields
    (if !outcome.must && is_dns params then OUTBOUND_CONTROL_PLANE_ROUTING
      else outcome.outbound.value) outcome.mark outcome.must
  change 0 ≤ packed_outcome params outcome at hnonneg
  -- the walk fits the limit of `bpf_loop` and its result is not negative
  have hroute : route maps params = packed_outcome params outcome := by
    have hlimit : ¬ 2 ^ 23 < MAX_MATCH_SET_LEN := by decide
    rw [route, bpf_loop, if_neg hlimit]
    dsimp only
    rw [if_neg (by omega), hresult, if_pos hnonneg]
  rw [hroute]
  exact ⟨hnonneg, hbyte, hmark, hmust⟩

/-! The rule `domain(full: a.example) -> proxy(mark: 5)` with `direct` as fallback, and
maps in which the destination has the bit of that rule. -/

def host_rules : List RoutingRule :=
  [ { and_functions := [{ name := "domain", not := false, params := [.plain "full" "a.example"] }]
      outbound := { name := "proxy", not := false, params := [.plain "mark" "5"] } } ]

def host_plan : ResidentRoutingPlan :=
  ((compile_rules literal_engines dns_groups 0 {} host_rules).toOption).getD {}

def host_full_plan : ResidentRoutingPlan := push_fallback host_plan ⟨0, 0, false⟩

def host_matcher : RoutingMatcher :=
  ((plan_matcher host_full_plan).toOption).getD ⟨{}, ⟨1, []⟩, []⟩

def host_maps : KernelMaps where
  routing_map index :=
    (host_full_plan.match_sets[index]?).map fun set => BpfMatchSet.from_bytes set.bytes
  lpm_array_map _ := none
  domain_routing_map _ := some (Vector.ofFn fun word => if word = 0 then 1 else 0)

def host_params : RouteParams where
  l4proto_type := L4_PROTO_TCP_MATCH
  ipversion_type := 1
  is_wan := 0
  pname := List.replicate 16 0
  dscp := 0
  h_sport := 40000
  h_dport := 443
  saddr := List.replicate 16 0
  daddr := List.replicate 16 0
  mac := List.replicate 16 0

theorem route_refines_match_query_detail_host :
    ∃ outcome, host_matcher.match_query_detail { domain := "a.example", dest_port := 443 }
        = .ok outcome
      ∧ 0 ≤ route host_maps host_params
      ∧ (route host_maps host_params).toNat % 2 ^ 8
          = (if !outcome.must && is_dns host_params then OUTBOUND_CONTROL_PLANE_ROUTING
              else outcome.outbound.value).toNat
      ∧ (route host_maps host_params).toNat / 2 ^ 8 % 2 ^ 32 = outcome.mark.toNat
      ∧ (route host_maps host_params).toNat.testBit 40 = outcome.must := by
  have hgroups : outbound_groups ⟨[⟨"proxy"⟩], ⟨host_rules, .String "direct"⟩⟩ = .ok dns_groups := rfl
  have hplan : compile_rules literal_engines dns_groups 0 {} host_rules = .ok host_plan := rfl
  have hspec : parse_outbound ⟨"direct", false, []⟩ dns_groups = .ok ⟨0, 0, false⟩ := rfl
  have hlen : host_full_plan.match_sets.length = 2 := rfl
  refine route_refines_match_query_detail literal_engines_documented hgroups hplan hspec
    (by decide) (by decide) rfl (fun index set hset => ?_) (fun index hindex => ?_)
  · exact congrArg (Option.map fun set : MatchSetBytes => BpfMatchSet.from_bytes set.bytes) hset
  · change index < host_full_plan.match_sets.length at hindex
    obtain rfl | rfl : index = 0 ∨ index = 1 := by omega
    · decide
    · decide

end DaeNext.EbpfRoutingRefines
