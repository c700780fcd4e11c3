/-
The plan builder, `host_routing_plan/build.rs`, and the patch of outbound names
that the configuration layer makes before it (`schema/patch.rs`).

A plan ends in its fallback, so a query that no rule decides is decided there,
unless the fallback itself is `must_rules`, which decides nothing. The builder
takes such a fallback, the configuration layer never hands it one: the patch
turns a `must_` name into the name behind it and a `must` parameter. Both halves
are here, and what follows for whole plans: every query gets a destination.
-/
import DaeNext.RoutingCompileSound

set_option autoImplicit false

namespace DaeNext.RoutingBuild

open ConfigAst CoreTypes RoutingPrefix RoutingDomain RoutingUserspace RoutingPlan Fallible
open RoutingPlanMatcher RoutingCompile RoutingCompileSound

def build_routing_plan_with_geodata_resolver (engines : TextEngines)
    (resolver : RoutingOptimize.GeodataResolver) (config : Config) :
    Except String ResidentRoutingPlan := do
  let groups ← outbound_groups config
  let rules ← RoutingOptimize.optimize_routing_rules resolver config.routing.rules
  let plan ← compile_rules engines groups 0 {} rules
  -- the fallback is the last match set and counts towards the limit
  let fallback ← dynamic_to_single_function config.routing.fallback
  let fallback ← parse_outbound fallback groups
  let plan := push_fallback plan fallback
  if MAX_MATCH_SET_LEN < plan.match_sets.length then
    .error s!"resident routing_map match set overflow: {plan.match_sets.length} > {MAX_MATCH_SET_LEN}"
  else .ok plan

/-! ## The patch of outbound names -/

def patch_must_function (function : Function) : Function :=
  { function with
    name := Text.trim_start_matches "must_" function.name
    params := function.params ++ [.plain "" "must"] }

def patch_must_rule (rule : RoutingRule) : RoutingRule :=
  if "must_".toList.isPrefixOf rule.outbound.name.toList && rule.outbound.name != "must_rules" then
    { rule with outbound := patch_must_function rule.outbound }
  else rule

/-- `patch_must_outbound`. A rule may keep the name `must_rules`, the fallback may
not. The error is the text of a `ConfigError::Build`. -/
def patch_must_outbound (config : Config) : Except String Config := do
  let rules := config.routing.rules.map patch_must_rule
  let function ← Fallible.map_err (fun err => s!"invalid routing fallback: {err}")
    (dynamic_to_single_function config.routing.fallback)
  let fallback :=
    if "must_".toList.isPrefixOf function.name.toList then
      DynamicFunctionValue.Function (patch_must_function function)
    else config.routing.fallback
  return { config with routing := { rules, fallback } }

variable {config : Config}

theorem patch_must_outbound_fallback {patched : Config}
    (h : patch_must_outbound config = .ok patched) {function : Function}
    (hfallback : dynamic_to_single_function patched.routing.fallback = .ok function) :
    "must_".toList.isPrefixOf function.name.toList = false := by
  obtain ⟨original, horiginal, rfl⟩ := bind_pure_ok h
  -- a patched name lost all its `must_`; the others never had one
  split at hfallback
  · cases hfallback
    exact Text.trim_start_matches_not_leading (by decide) original.name
  · rename_i hname
    rw [map_err_ok horiginal] at hfallback
    cases hfallback
    exact Bool.eq_false_iff.mpr hname

/-! ## Every query gets a destination -/

variable {groups : OutboundGroups}

theorem spec_outcome_destination (hgroups : outbound_groups config = .ok groups)
    {function : Function} {spec : OutboundSpec} (hspec : parse_outbound function groups = .ok spec)
    {outcome : MatchOutcome} (h : spec_outcome spec = some outcome) :
    OutboundOf config function.name outcome.outbound.value := by
  unfold spec_outcome at h
  split at h
  · cases h
  · rename_i hid
    cases h
    rcases parse_outbound_ok hgroups hspec with ⟨-, hmust⟩ | ⟨-, hof⟩
    · exact absurd hmust hid
    · exact hof

theorem rule_outcome_destination (hgroups : outbound_groups config = .ok groups)
    {rule : RoutingRule} {outcome : MatchOutcome} (h : rule_outcome groups rule = some outcome) :
    OutboundOf config rule.outbound.name outcome.outbound.value := by
  unfold rule_outcome at h
  split at h
  · rename_i spec hspec
    exact spec_outcome_destination hgroups hspec h
  · cases h

variable {engines : TextEngines}

theorem source_outcome_destination {query : Query} (hgroups : outbound_groups config = .ok groups)
    {rules : List RoutingRule} {fallback : Function} {spec : OutboundSpec}
    (hspec : parse_outbound fallback groups = .ok spec) :
    (∃ outcome name, source_outcome engines query groups rules spec = .ok outcome
        ∧ OutboundOf config name outcome.outbound.value)
      ∨ (fallback.name = "must_rules"
        ∧ source_outcome engines query groups rules spec
            = .error (.InvalidFixture "no match set hit")) := by
  unfold source_outcome
  split
  · -- a rule decides
    rename_i outcome note hfirst
    obtain ⟨rule, -, hrule⟩ := DecisionList.firstMatch_mem hfirst
    have hof := rule_outcome_destination hgroups hrule
    exact .inl ⟨_, _, rfl, hof⟩
  · cases houtcome : spec_outcome spec with
    | some outcome =>
      have hof := spec_outcome_destination hgroups hspec houtcome
      exact .inl ⟨_, _, rfl, hof⟩
    | none =>
      -- no rule decides and the fallback is no destination: its id is that of `must_rules`
      refine .inr ⟨?_, rfl⟩
      rcases parse_outbound_ok hgroups hspec with ⟨hname, -⟩ | ⟨-, hof⟩
      · exact hname
      · have hle := hof.le
        have hid : spec.id = OutboundIndex.MUST_RULES.value := by
          by_contra hne
          rw [spec_outcome, if_neg hne] at houtcome
          cases houtcome
        rw [hid] at hle
        exact absurd hle (by decide)

theorem build_query_outcome (hdoc : engines.Documented) {resolver : RoutingOptimize.GeodataResolver}
    {plan : ResidentRoutingPlan}
    (hbuild : build_routing_plan_with_geodata_resolver engines resolver config = .ok plan)
    (query : Query) :
    ∃ matcher fallback, plan_matcher plan = .ok matcher
      ∧ dynamic_to_single_function config.routing.fallback = .ok fallback
      ∧ ((∃ outcome name, matcher.match_query_detail query = .ok outcome
          ∧ OutboundOf config name outcome.outbound.value)
        ∨ (fallback.name = "must_rules"
          ∧ matcher.match_query_detail query = .error (.InvalidFixture "no match set hit"))) := by
  obtain ⟨groups, hgroups, hbuild⟩ := bind_ok hbuild
  obtain ⟨rules, -, hbuild⟩ := bind_ok hbuild
  obtain ⟨compiled, hcompiled, hbuild⟩ := bind_ok hbuild
  obtain ⟨fallback, hfallback, hbuild⟩ := bind_ok hbuild
  obtain ⟨spec, hspec, hbuild⟩ := bind_ok hbuild
  dsimp only at hbuild
  split at hbuild
  · cases hbuild
  · rename_i hlen
    cases hbuild
    obtain ⟨matcher, hmatcher, hdetail⟩ := @match_query_detail_plan query engines hdoc _ _ hgroups
      _ _ hcompiled _ _ hspec (Nat.le_of_not_lt hlen)
    refine ⟨matcher, fallback, hmatcher, hfallback, ?_⟩
    rw [hdetail]
    exact source_outcome_destination hgroups hspec

/-- **Every accepted configuration decides every query**, when its fallback is not
`must_rules`: with `direct`, `block` or a configured group. -/
theorem build_decides_every_query (hdoc : engines.Documented)
    {resolver : RoutingOptimize.GeodataResolver} {config : Config} {plan : ResidentRoutingPlan}
    (hbuild : build_routing_plan_with_geodata_resolver engines resolver config = .ok plan)
    (hfallback : ∀ function, dynamic_to_single_function config.routing.fallback = .ok function →
      function.name ≠ "must_rules") (query : Query) :
    ∃ matcher outcome name, plan_matcher plan = .ok matcher
      ∧ matcher.match_query_detail query = .ok outcome
      ∧ OutboundOf config name outcome.outbound.value := by
  obtain ⟨matcher, fallback, hmatcher, hfall, hcases⟩ := build_query_outcome hdoc hbuild query
  rcases hcases with ⟨outcome, name, hdetail, hof⟩ | ⟨hname, -⟩
  · exact ⟨matcher, outcome, name, hmatcher, hdetail, hof⟩
  · exact absurd hname (hfallback fallback hfall)

/-- The configuration of `dns_rules`. -/
def dns_config : Config where
  group := [⟨"proxy"⟩]
  routing := ⟨dns_rules, .String "direct"⟩

theorem build_decides_every_query_dns :
    ∃ plan, build_routing_plan_with_geodata_resolver literal_engines RoutingOptimize.no_geodata
        dns_config = .ok plan
      ∧ ∃ matcher outcome name, plan_matcher plan = .ok matcher
        ∧ matcher.match_query_detail { dest := .V4 0x0A000001, dest_port := 443 } = .ok outcome
        ∧ OutboundOf dns_config name outcome.outbound.value := by
  obtain ⟨plan, hplan⟩ : ∃ plan, build_routing_plan_with_geodata_resolver literal_engines
      RoutingOptimize.no_geodata dns_config = .ok plan := ⟨_, rfl⟩
  refine ⟨plan, hplan, build_decides_every_query literal_engines_documented hplan
    (fun function h => ?_) _⟩
  cases h
  decide

/-- The builder takes `fallback: must_rules`, and the plan then decides nothing. -/
theorem build_must_rules_fallback_undecided :
    ∃ plan matcher,
      build_routing_plan_with_geodata_resolver literal_engines RoutingOptimize.no_geodata
          { group := [], routing := { rules := [], fallback := .String "must_rules" } } = .ok plan
        ∧ plan_matcher plan = .ok matcher
        ∧ matcher.match_query_detail {} = .error (.InvalidFixture "no match set hit") :=
  ⟨_, _, rfl, rfl, rfl⟩

/-- Through the configuration layer the fallback is never `must_rules`, so there
the condition is met. -/
theorem patched_build_decides (hdoc : engines.Documented)
    {resolver : RoutingOptimize.GeodataResolver} {patched : Config}
    (hpatch : patch_must_outbound config = .ok patched) {plan : ResidentRoutingPlan}
    (hbuild : build_routing_plan_with_geodata_resolver engines resolver patched = .ok plan)
    (query : Query) :
    ∃ matcher outcome name, plan_matcher plan = .ok matcher
      ∧ matcher.match_query_detail query = .ok outcome
      ∧ OutboundOf patched name outcome.outbound.value := by
  obtain ⟨matcher, fallback, hmatcher, hfall, hcases⟩ := build_query_outcome hdoc hbuild query
  rcases hcases with ⟨outcome, name, hdetail, hof⟩ | ⟨hname, -⟩
  · exact ⟨matcher, outcome, name, hmatcher, hdetail, hof⟩
  · have hleading := patch_must_outbound_fallback hpatch hfall
    rw [hname] at hleading
    exact absurd hleading (by decide)

theorem must_direct_build_decides :
    ∃ patched, patch_must_outbound ⟨[], ⟨[], .String "must_direct"⟩⟩ = .ok patched
      ∧ ∃ plan matcher found name, plan_matcher plan = .ok matcher
        ∧ matcher.match_query_detail {} = .ok found
        ∧ OutboundOf patched name found.outbound.value :=
  ⟨_, rfl, _, @patched_build_decides ⟨[], ⟨[], .String "must_direct"⟩⟩ _
    literal_engines_documented RoutingOptimize.no_geodata _ rfl _ rfl _⟩

end DaeNext.RoutingBuild
