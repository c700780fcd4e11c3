/-
Compilation preserves meaning.

One lemma for each loop of the compiler, inside out: the groups of a function are
one disjunction, the functions of a rule its conjunction, the rules a decision
list. With the fallback behind them, the matcher of the plan decides every query
as first match on the source rules does.
-/
import DaeNext.RoutingCompileFunction

set_option autoImplicit false

namespace DaeNext.RoutingCompileSound

open ConfigAst CoreTypes Net RoutingPrefix RoutingDomain RoutingUserspace RoutingPlan Fallible MatchChain List RoutingOptimize
open RoutingPlanMatcher RoutingCompile RoutingEmit RoutingCompileFunction

/-! ## Grouping -/

/-- Some value of some group has the property. -/
def group_any (f : String → String → Bool) (groups : List (String × List String)) : Bool :=
  groups.any fun group => group.2.any (f group.1)

variable (f : String → String → Bool)

theorem group_any_add_grouped (groups : List (String × List String)) (param : Param) :
    group_any f (add_grouped groups param) = (group_any f groups || f param.key param.val) := by
  unfold add_grouped
  split
  · rename_i hkey
    -- the group of the key has one value more, the others are as they were
    have hgroup : ∀ group : String × List String,
        ((if group.1 = param.key then (group.1, group.2 ++ [param.val]) else group).2.any
          (f (if group.1 = param.key then (group.1, group.2 ++ [param.val]) else group).1))
        = (group.2.any (f group.1) || (decide (group.1 = param.key) && f param.key param.val)) := by
      intro group
      by_cases h : group.1 = param.key
      · simp [h]
      · simp [h]
    rw [group_any, any_map, group_any]
    simp only [Function.comp_def, hgroup]
    -- a value that does not match adds nothing; one that does is found in its group
    generalize f param.key param.val = b
    cases b with
    | false => simp
    | true =>
      simp only [Bool.and_true, Bool.or_true, any_eq_true] at hkey ⊢
      obtain ⟨group, hmem, heq⟩ := hkey
      exact ⟨group, hmem, by simp [of_decide_eq_true heq]⟩
  · simp [group_any, any_append]

variable {groups : List (String × List String)}

theorem add_grouped_values (h : ∀ group ∈ groups, group.2 ≠ []) (param : Param) :
    ∀ group ∈ add_grouped groups param, group.2 ≠ [] := by
  intro group hgroup
  unfold add_grouped at hgroup
  split at hgroup
  · obtain ⟨g, hg, rfl⟩ := mem_map.mp hgroup
    split
    · simp
    · exact h g hg
  · rcases mem_append.mp hgroup with hg | hg
    · exact h group hg
    · rw [mem_singleton.mp hg]
      simp

/-- Grouping keeps every parameter and makes no empty group. -/
theorem foldl_add_grouped (params : List Param) (hvalues : ∀ group ∈ groups, group.2 ≠ []) :
    group_any f (params.foldl add_grouped groups)
        = (group_any f groups || params.any fun p => f p.key p.val)
      ∧ ∀ group ∈ params.foldl add_grouped groups, group.2 ≠ [] := by
  induction params generalizing groups with
  | nil => simpa using hvalues
  | cons param params ih =>
    obtain ⟨hany, hne⟩ := ih (add_grouped_values hvalues param)
    refine ⟨?_, hne⟩
    rw [foldl_cons, hany, group_any_add_grouped, any_cons, Bool.or_assoc]

theorem grouped_params_spec (params : List Param) :
    group_any f (grouped_params params) = (params.any fun p => f p.key p.val)
      ∧ ∀ group ∈ grouped_params params, group.2 ≠ [] :=
  foldl_add_grouped f params (by simp)

/-! ## The loops -/

section

variable {query : Query} {engines : TextEngines} (hdoc : engines.Documented)
include hdoc

variable {function : Function} {outbound : OutboundSpec}

theorem compile_groups_compiles {groups : List (String × List String)} (hne : groups ≠ [])
    (hvalues : ∀ group ∈ groups, group.2 ≠ []) {plan later : ResidentRoutingPlan}
    (hscoped : Scoped plan) (h : compile_groups engines function outbound plan groups = .ok later) :
    Compiles query plan later function.not outbound
      (group_any (param_holds engines query function.name) groups) := by
  induction groups generalizing plan with
  | nil => exact absurd rfl hne
  | cons group groups ih =>
    obtain ⟨key, values⟩ := group
    have hhead := hvalues (key, values) mem_cons_self
    cases groups with
    | nil =>
      rw [group_any, any_cons, any_nil, Bool.or_false]
      exact add_function_compiles hscoped hdoc hhead h
    | cons next groups =>
      obtain ⟨mid, hmid, h⟩ := bind_ok h
      obtain ⟨front, -, hfront, hemit⟩ := add_function_compiles hscoped hdoc hhead hmid
      obtain ⟨hits, hhits, hany, hemits⟩ := ih (by simp)
        (fun g hg => hvalues g (mem_cons_of_mem _ hg)) hemit.in_scope h
      -- two keys of one function are one longer disjunction
      refine ⟨front ++ hits, by simp [hhits], ?_, ?_⟩
      · rw [any_append, hfront, hany]
        rfl
      · rw [block_append _ _ _ hhits]
        exact hemit.append hemits

/-- A function holds when some parameter under some key matches, unless negated. -/
theorem compile_function_compiles {plan later : ResidentRoutingPlan} (hscoped : Scoped plan)
    (h : compile_function engines outbound plan function = .ok later) :
    ∃ clause : MatchChain.Clause, clause.hits ≠ []
      ∧ clause.holds = function_holds (param_holds engines query) function
      ∧ Emits query plan later (block clause.not (out_link outbound) clause.hits) := by
  simp only [compile_function] at h
  split at h
  · cases h
  · rename_i hempty
    obtain ⟨hany, hvalues⟩ := grouped_params_spec (param_holds engines query function.name)
      function.params
    obtain ⟨hits, hhits, hholds, hemits⟩ := @compile_groups_compiles query engines hdoc _ _ _
      (by simpa using hempty) hvalues _ _ hscoped h
    refine ⟨⟨hits, function.not⟩, hhits, ?_, hemits⟩
    rw [MatchChain.Clause.holds, hholds, function_holds, hany]

/-- The verdict of an outbound. -/
def spec_outcome (outbound : OutboundSpec) : Option MatchOutcome :=
  if outbound.id = OutboundIndex.MUST_RULES.value then none
  else some { outbound := ⟨outbound.id⟩, mark := outbound.mark, must := outbound.must }

theorem compile_functions_compiles (hlink : out_link outbound = .done (spec_outcome outbound))
    {functions : List Function} {plan later : ResidentRoutingPlan} (hscoped : Scoped plan)
    (h : compile_functions engines outbound plan functions = .ok later) :
    ∃ clauses : List MatchChain.Clause, clauses.length = functions.length
      ∧ (∀ clause ∈ clauses, clause.hits ≠ [])
      ∧ clauses.all MatchChain.Clause.holds
          = functions.all (function_holds (param_holds engines query))
      ∧ Emits query plan later (ruleCells (spec_outcome outbound) clauses) := by
  induction functions generalizing plan with
  | nil =>
    cases h
    exact ⟨[], rfl, by simp, rfl, .nil query hscoped⟩
  | cons function functions ih =>
    cases functions with
    | nil =>
      obtain ⟨clause, hhits, hholds, hemits⟩ := compile_function_compiles hdoc hscoped h
      rw [hlink] at hemits
      exact ⟨[clause], rfl, by simpa using hhits, by simp [hholds], hemits⟩
    | cons next functions =>
      obtain ⟨mid, hmid, h⟩ := bind_ok h
      obtain ⟨clause, hhits, hholds, hemit⟩ := compile_function_compiles hdoc hscoped hmid
      obtain ⟨clauses, hlen, hall, hfires, hemits⟩ := ih hemit.in_scope h
      -- the rule goes on, so the clause just compiled is closed by `and`
      have hne : clauses ≠ [] := by
        intro hnil
        rw [hnil] at hlen
        cases hlen
      refine ⟨clause :: clauses, by rw [length_cons, hlen]; rfl, ?_, ?_, ?_⟩
      · simpa using ⟨hhits, hall⟩
      · rw [all_cons, all_cons, hholds, hfires]
      · rw [ruleCells_cons _ _ hne]
        exact hemit.append hemits

variable {config : Config} {groups : OutboundGroups}

omit hdoc in
/-- The ids of parsed outbounds are no logical markers, so they end a rule. -/
theorem out_link_parsed (hgroups : outbound_groups config = .ok groups) {spec : OutboundSpec}
    (h : parse_outbound function groups = .ok spec) : out_link spec = .done (spec_outcome spec) := by
  -- the markers are the two greatest bytes, above `must_rules` and all groups
  have hid : spec.id.toNat ≤ OutboundIndex.MUST_RULES.value.toNat := by
    rcases parse_outbound_ok hgroups h with ⟨-, hid⟩ | ⟨-, hof⟩
    · rw [hid]
    · have hle := hof.le
      have : OutboundIndex.USER_DEFINED_MAX.value.toNat ≤ OutboundIndex.MUST_RULES.value.toNat := by
        decide
      omega
  have hor : (⟨spec.id⟩ : OutboundIndex) ≠ .LOGICAL_OR := by
    rintro heq
    rw [OutboundIndex.mk.inj heq] at hid
    exact absurd hid (by decide)
  have hand : (⟨spec.id⟩ : OutboundIndex) ≠ .LOGICAL_AND := by
    rintro heq
    rw [OutboundIndex.mk.inj heq] at hid
    exact absurd hid (by decide)
  rw [out_link, spec_link, if_neg hor, if_neg hand, spec_outcome]
  by_cases hmust : spec.id = OutboundIndex.MUST_RULES.value
  · rw [if_pos (by rw [hmust]), if_pos hmust]
  · rw [if_neg (fun heq => hmust (OutboundIndex.mk.inj heq)), if_neg hmust]

/-! ## Rule lists -/

/-- What a rule decides when it fires. -/
def rule_outcome (groups : OutboundGroups) (rule : RoutingRule) : Option MatchOutcome :=
  match parse_outbound rule.outbound groups with
  | .ok spec => spec_outcome spec
  | .error _ => none

def has_functions (rule : RoutingRule) : Bool := !rule.and_functions.isEmpty

/-- A rule list compiles to the cells of its rules. A rule without functions would
compile to nothing, so it is none of them. -/
theorem compile_rules_compiles (hgroups : outbound_groups config = .ok groups)
    {rules : List RoutingRule} {index : Nat} {plan later : ResidentRoutingPlan}
    (hscoped : Scoped plan) (h : compile_rules engines groups index plan rules = .ok later) :
    ∃ chain : List (MatchChain.Rule MatchOutcome), (∀ r ∈ chain, r.Proper)
      ∧ List.Forall₂ (fun rule r => rule_fires (param_holds engines query) rule = r.fires
          ∧ rule_outcome groups rule = r.verdict) (rules.filter has_functions) chain
      ∧ Emits query plan later (chain.flatMap fun r => ruleCells r.verdict r.clauses) := by
  induction rules generalizing plan index with
  | nil =>
    cases h
    exact ⟨[], by simp, .nil, .nil query hscoped⟩
  | cons rule rules ih =>
    obtain ⟨mid, hmid, h⟩ := bind_ok h
    obtain ⟨spec, hspec, hmid⟩ := bind_ok (map_err_ok hmid)
    obtain ⟨clauses, hlen, hhits, hfires, hemit⟩ :=
      @compile_functions_compiles query engines hdoc _ (out_link_parsed hgroups hspec) _ _ _
        hscoped hmid
    obtain ⟨chain, hproper, hrel, hemits⟩ := ih hemit.in_scope h
    -- a rule with no function appends nothing, so the filter drops it
    cases hfunctions : has_functions rule with
    | false =>
      have hnil : clauses = [] := by
        rw [← length_eq_zero_iff, hlen, length_eq_zero_iff]
        simpa [has_functions] using hfunctions
      rw [hnil] at hemit
      refine ⟨chain, hproper, ?_, hemit.append hemits⟩
      rwa [filter_cons_of_neg (by simp [hfunctions])]
    | true =>
      have hne : clauses ≠ [] := by
        intro hnil
        rw [hnil, length_nil] at hlen
        simp [has_functions, length_eq_zero_iff.mp hlen.symm] at hfunctions
      refine ⟨⟨clauses, spec_outcome spec⟩ :: chain, ?_, ?_, hemit.append hemits⟩
      · simpa using ⟨⟨hne, hhits⟩, hproper⟩
      · rw [filter_cons_of_pos hfunctions]
        refine .cons ⟨hfires.symm, ?_⟩ hrel
        rw [rule_outcome, hspec]

/-- The decision of the source: the first rule that fires, else the fallback, with
`must` set as well when a `must_rules` rule fired on the way. -/
def source_outcome (engines : TextEngines) (query : Query) (groups : OutboundGroups)
    (rules : List RoutingRule) (fallback : OutboundSpec) : Except RoutingError MatchOutcome :=
  match DecisionList.firstMatch (RoutingOptimize.rule_fires (param_holds engines query))
      (rule_outcome groups) false rules with
  | (some outcome, note) => .ok { outcome with must := outcome.must || note }
  | (none, note) =>
    match spec_outcome fallback with
    | some outcome => .ok { outcome with must := outcome.must || note }
    | none => .error (.InvalidFixture "no match set hit")

omit hdoc in
theorem source_outcome_ok (query : Query) (groups : OutboundGroups) (rules : List RoutingRule)
    {spec : OutboundSpec} (hspec : spec.id ≠ OutboundIndex.MUST_RULES.value) :
    ∃ outcome, source_outcome engines query groups rules spec = .ok outcome := by
  unfold source_outcome
  split
  · exact ⟨_, rfl⟩
  · rw [spec_outcome, if_neg hspec]
    exact ⟨_, rfl⟩

variable (hgroups : outbound_groups config = .ok groups) {rules : List RoutingRule}
  {plan : ResidentRoutingPlan} (hplan : compile_rules engines groups 0 {} rules = .ok plan)
  {fallback : Function} {spec : OutboundSpec} (hspec : parse_outbound fallback groups = .ok spec)

include hgroups hplan hspec

theorem push_fallback_emits :
    ∃ chain : List (MatchChain.Rule MatchOutcome), (∀ r ∈ chain, r.Proper)
      ∧ List.Forall₂ (fun rule r => rule_fires (param_holds engines query) rule = r.fires
          ∧ rule_outcome groups rule = r.verdict) (rules.filter has_functions) chain
      ∧ Emits query {} (push_fallback plan spec)
          (chain.flatMap (fun r => ruleCells r.verdict r.clauses)
            ++ [⟨true, false, .done (spec_outcome spec)⟩]) := by
  have hempty : Scoped {} := ⟨by simp, le_rfl⟩
  obtain ⟨chain, hproper, hrel, hemits⟩ :=
    @compile_rules_compiles query engines hdoc _ _ hgroups _ _ _ _ hempty hplan
  refine ⟨chain, hproper, hrel, hemits.append ?_⟩
  rw [← out_link_parsed hgroups hspec]
  exact @emits_alternatives plan query false MATCH_TYPE_FALLBACK spec Unit hemits.in_scope
    (fun _ => List.replicate 16 0) (fun _ => true) (fun _ => ⟨length_replicate, .Fallback, rfl, fun _ _ => rfl⟩) [()]

theorem push_fallback_written : ∀ set ∈ (push_fallback plan spec).match_sets, Written set := by
  obtain ⟨chain, -, -, hemits⟩ := @push_fallback_emits {} engines hdoc _ _ hgroups _ _ hplan _ _ hspec
  obtain ⟨sets, hsets, hwritten, -⟩ := hemits.sets
  intro set hset
  rw [hsets, nil_append] at hset
  exact hwritten set hset

/-- A plan that decides like its source, for rules of any shape. -/
theorem match_query_detail_plan (hlen : (push_fallback plan spec).match_sets.length ≤ MAX_MATCH_SET_LEN) :
    ∃ matcher, plan_matcher (push_fallback plan spec) = .ok matcher
      ∧ matcher.match_query_detail query
          = source_outcome engines query groups (rules.filter has_functions) spec := by
  obtain ⟨chain, hproper, hrel, hemits⟩ :=
    @push_fallback_emits query engines hdoc _ _ hgroups _ _ hplan _ _ hspec
  have hlpm : (push_fallback plan spec).lpm_sets.length ≤ 2 ^ 32 := by
    have hmax : MAX_MATCH_SET_LEN ≤ 2 ^ 32 := by decide
    exact hemits.in_scope.lpm_sets.trans (hlen.trans hmax)
  obtain ⟨matcher, hmatcher, hdetail⟩ := plan_matcher_spec (push_fallback plan spec)
    (fun set hset => (push_fallback_written hdoc hgroups hplan hspec set hset).decodes) hlpm query
  refine ⟨matcher, hmatcher, ?_⟩
  obtain ⟨sets, hsets, -, hcells⟩ := hemits.sets
  -- `Emits` speaks of every plan to come; the plan at hand is the last
  have hchain : plan_cells (push_fallback plan spec) query 0 (push_fallback plan spec).match_sets
      = chain.flatMap (fun r => ruleCells r.verdict r.clauses)
        ++ [⟨true, false, .done (spec_outcome spec)⟩] := by
    rw [hsets, nil_append]
    exact hcells (push_fallback plan spec) (.refl _) hlpm
  rw [hdetail, hchain, eval_rules chain hproper, source_outcome,
    DecisionList.firstMatch_forall₂ hrel]
  -- where no rule decides, the walk arrives at the fallback with the note it has
  generalize DecisionList.firstMatch MatchChain.Rule.fires MatchChain.Rule.verdict false chain = d
  obtain ⟨_ | outcome, note⟩ := d
  · cases spec_outcome spec <;> rfl
  · rfl

omit hgroups hplan hspec in
/-- **Compilation preserves meaning.** Rules come out of the parser with at least
one function each, and the bound on the match sets is the builder's own. -/
theorem match_query_detail_compiled {config : Config} {groups : OutboundGroups}
    (hgroups : outbound_groups config = .ok groups) {rules : List RoutingRule}
    (hrules : ∀ rule ∈ rules, rule.and_functions ≠ []) {plan : ResidentRoutingPlan}
    (hplan : compile_rules engines groups 0 {} rules = .ok plan) {fallback : Function}
    {spec : OutboundSpec} (hspec : parse_outbound fallback groups = .ok spec)
    (hlen : (push_fallback plan spec).match_sets.length ≤ MAX_MATCH_SET_LEN) (query : Query) :
    ∃ matcher, plan_matcher (push_fallback plan spec) = .ok matcher
      ∧ matcher.match_query_detail query = source_outcome engines query groups rules spec := by
  have hfilter : rules.filter has_functions = rules := by
    refine filter_eq_self.mpr fun rule hrule => ?_
    simpa [has_functions] using hrules rule hrule
  have hplan' := @match_query_detail_plan query engines hdoc _ _ hgroups _ _ hplan _ _ hspec hlen
  rwa [hfilter] at hplan'

end

/-! A configuration of one group, with the rules `port(53) && l4proto(udp) -> must_rules`
and `!ip(10.0.0.0/8, 192.168.0.0/16) -> proxy(mark: 7)`, and `direct` as fallback. -/

/-- Engines that take a regex for a literal. -/
def literal_engines : TextEngines where
  regex_new pattern := some fun text => pattern = text
  regex_set_new patterns := some fun text => patterns.any fun p => decide (p = text)
  aho_corasick_new patterns := .ok fun text => patterns.any fun p => Text.contains p text

theorem literal_engines_documented : literal_engines.Documented where
  regex_set_is_match := by
    rintro patterns is_match h - text
    cases h
    rfl
  aho_corasick_is_match := by
    intro patterns is_match h text
    cases h
    rfl

def dns_rules : List RoutingRule :=
  [ { and_functions :=
        [ { name := "port", not := false, params := [.plain "" "53"] },
          { name := "l4proto", not := false, params := [.plain "" "udp"] } ]
      outbound := { name := "must_rules", not := false, params := [] } },
    { and_functions :=
        [ { name := "ip", not := true,
            params := [.plain "" "10.0.0.0/8", .plain "" "192.168.0.0/16"] } ]
      outbound := { name := "proxy", not := false, params := [.plain "mark" "7"] } } ]

def dns_groups : OutboundGroups :=
  ((({} : OutboundGroups).insert "direct" 0).insert "block" 1).insert "proxy" 2

def dns_plan : ResidentRoutingPlan where
  match_sets :=
    [ match_set (raw_ports (53, 53)) false MATCH_TYPE_PORT (logical_outbound .LOGICAL_AND),
      match_set (raw_u8 L4_UDP) false MATCH_TYPE_L4_PROTO ⟨0xFC, 0, false⟩,
      match_set (raw_lpm 0) true MATCH_TYPE_IP_SET ⟨2, 7, false⟩ ]
  lpm_sets := [[⟨.V4 0x0A000000, 8, by decide⟩, ⟨.V4 0xC0A80000, 16, by decide⟩]]
  domain_sets := []

/-- A query for 8.8.8.8:53 over UDP passes the first rule, which sets `must`, and
is decided by the second. -/
theorem match_query_detail_compiled_dns :
    ∃ matcher, plan_matcher (push_fallback dns_plan ⟨0, 0, false⟩) = .ok matcher
      ∧ matcher.match_query_detail { dest := .V4 0x08080808, dest_port := 53, l4proto := some L4_UDP }
          = .ok { outbound := ⟨2⟩, mark := 7, must := true } := by
  have hgroups : outbound_groups ⟨[⟨"proxy"⟩], ⟨dns_rules, .String "direct"⟩⟩ = .ok dns_groups := rfl
  have hplan : compile_rules literal_engines dns_groups 0 {} dns_rules = .ok dns_plan := rfl
  have hspec : parse_outbound ⟨"direct", false, []⟩ dns_groups = .ok ⟨0, 0, false⟩ := rfl
  exact match_query_detail_compiled literal_engines_documented hgroups (by decide) hplan hspec
    (by decide) _

end DaeNext.RoutingCompileSound
