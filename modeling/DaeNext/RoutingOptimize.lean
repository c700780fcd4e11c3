/-
The routing-rule optimizer, `host_routing_plan/optimize.rs`, and what it does to
the meaning of a rule list.

The pass renames aliases, expands geodata parameters, sorts the functions of each
rule by name, merges neighbouring rules of one function, and last sorts and
deduplicates the parameters of every function. All of it but the merge is
reordering under a conjunction or a disjunction. The merge concatenates the
parameters of neighbours that agree on function name, `not` flag and outbound:
right for positive functions, whose parameters are a disjunction, but it turns
the disjunction of two *negated* functions into a negated disjunction, that is,
into a conjunction. `!domain(a) -> x` followed by `!domain(b) -> x` catches
everything that is not both; merged, it catches what is neither.

So the pass does not preserve meaning on every input, and the theorem at the end
says on which inputs it does. The vocabulary is that of `LibDecisionList`: the
pass fuses the maximal runs of the expanded list, a fused negated run fires when
all its rules fire, and the decision survives exactly when the rest of the list
makes up for every run the packet splits.
-/
import DaeNext.ConfigAst
import DaeNext.LibDecisionList
import DaeNext.LibText
import DaeNext.LibVec

set_option autoImplicit false

namespace DaeNext.RoutingOptimize

open ConfigAst DecisionList List

/-! ## The pass -/

/-- The two geodata lookups of `GeodataResolver`, from file name and code to a
parameter list. Where the assets are and how they are cached stays outside. -/
structure GeodataResolver where
  load_geosite_params : String → String → Except String (List Param)
  load_geoip_params : String → String → Except String (List Param)

/-- `aliased_function`: `dport` and `dip` are other names of `port` and `ip`. -/
def aliased_function (function : Function) : Function :=
  match function.name with
  | "dport" => { function with name := "port" }
  | "dip" => { function with name := "ip" }
  | _ => function

/-- `normalize_param`: the short spellings of the domain keys. -/
def normalize_param (function : Function) (param : Param) : Param :=
  if function.name = "domain" then
    match param.key with
    | "" => { param with key := "suffix" }
    | "domain" => { param with key := "suffix" }
    | "contains" => { param with key := "keyword" }
    | _ => param
  else param

/-- One turn of the loop in `expand_function_params`. -/
def expand_param (resolver : GeodataResolver) (function : Function) (param : Param) :
    Except String (List Param) :=
  match param.key with
  | "geosite" => resolver.load_geosite_params "geosite" param.val
  | "geoip" => resolver.load_geoip_params "geoip" param.val
  -- `ext` names its file itself; the function says which kind of file that is
  | "ext" =>
    match Text.split_once ':' param.val with
    | none => .error s!"ext parameter must be file:code, got {param.val}"
    | some (filename, code) =>
      match function.name with
      | "domain" => resolver.load_geosite_params filename code
      | "qname" => resolver.load_geosite_params filename code
      | "ip" => resolver.load_geoip_params filename code
      | other => .error s!"unsupported extension file extraction in function {other}"
  | _ => .ok [normalize_param function param]

/-- `expand_function_params`: the parameters of one function, geodata resolved. -/
def expand_function_params (resolver : GeodataResolver) (function : Function) :
    Except String Function := do
  let expanded ← function.params.mapM (expand_param resolver function)
  return { function with params := expanded.flatten }

def can_merge_singleton_rule (left right : RoutingRule) : Bool :=
  match left.and_functions, right.and_functions with
  | [l], [r] => l.name = r.name && l.not = r.not && left.outbound = right.outbound
  | _, _ => false

/-- What the merge does to the rule kept last: the parameters of the new rule's
first function are appended to those of its own first function. -/
def absorb_rule (last rule : RoutingRule) : RoutingRule :=
  match last.and_functions, rule.and_functions with
  | l :: ls, r :: _ =>
    { last with and_functions := { l with params := l.params ++ r.params } :: ls }
  | _, _ => last

/-- The address family `sort_function_params` reads off a value. -/
def value_version (val : String) : Nat := if Text.contains_char ':' val then 6 else 4

/-- `sort_function_params`: addresses by family first, everything else by key. -/
def sort_function_params (function : Function) : Function :=
  if function.name = "ip" ∨ function.name = "sip" then
    { function with params := Vec.sort_by (fun left right =>
        (compare (value_version left.val) (value_version right.val)).then
          ((compare left.val right.val).then (compare left.key right.key))) function.params }
  else
    { function with params := Vec.sort_by (fun left right =>
        -- the source compares the keys a second time at the end
        (compare left.key right.key).then
          ((compare left.val right.val).then (compare left.key right.key))) function.params }

/-- The equality of `deduplicate_function_params`. -/
def same_param (a b : Param) : Bool := a.key = b.key && a.val = b.val

def deduplicate_function_params (function : Function) : Function :=
  { function with params := Vec.dedup_by same_param function.params }

/-- The first loop body up to the sort: aliases renamed, parameters expanded. -/
def expand_rule (resolver : GeodataResolver) (rule : RoutingRule) :
    Except String RoutingRule := do
  let functions ← rule.and_functions.mapM
    (fun function => expand_function_params resolver (aliased_function function))
  return { rule with and_functions := functions }

def sort_rule (rule : RoutingRule) : RoutingRule :=
  { rule with and_functions :=
      Vec.sort_by (fun left right => compare left.name right.name) rule.and_functions }

/-- The last loop: parameters sorted and deduplicated. -/
def tidy_rule (rule : RoutingRule) : RoutingRule :=
  { rule with and_functions :=
      rule.and_functions.map (fun f => deduplicate_function_params (sort_function_params f)) }

def optimize_routing_rules (resolver : GeodataResolver) (rules : List RoutingRule) :
    Except String (List RoutingRule) := do
  let expanded ← rules.mapM (expand_rule resolver)
  let merged := DecisionList.mergeRuns can_merge_singleton_rule absorb_rule
    (expanded.map sort_rule)
  return merged.map tidy_rule

/-! ## What a rule list means

A packet is taken by what it answers: whether it matches the parameter `key: val`
of the function `name`. The compiler's own answers are one such assignment. -/

/-- Which parameters a packet matches. -/
abbrev Atoms := (name key val : String) → Bool

/-- Some parameter matches, unless the function is negated. -/
def function_holds (m : Atoms) (function : Function) : Bool :=
  (function.params.any (fun p => m function.name p.key p.val)) != function.not

def rule_fires (m : Atoms) (rule : RoutingRule) : Bool :=
  rule.and_functions.all (function_holds m)

/-- What a fired rule decides: `must_rules` decides nothing. -/
def rule_verdict (rule : RoutingRule) : Option Function :=
  if rule.outbound.name = "must_rules" then none else some rule.outbound

/-- The decision of a rule list: the outbound function of the first rule that
fires, and whether a `must_rules` rule fired on the way. -/
def decision (m : Atoms) (rules : List RoutingRule) : Option Function × Bool :=
  DecisionList.firstMatch (rule_fires m) rule_verdict false rules

/-! ## The harmless passes -/

variable (f : Function)

@[simp] theorem sort_function_params_name : (sort_function_params f).name = f.name := by
  unfold sort_function_params; split <;> rfl

@[simp] theorem sort_function_params_not : (sort_function_params f).not = f.not := by
  unfold sort_function_params; split <;> rfl

theorem sort_function_params_any (p : Param → Bool) :
    (sort_function_params f).params.any p = f.params.any p := by
  unfold sort_function_params
  split
  · exact Vec.sort_by_any _ p f.params
  · exact Vec.sort_by_any _ p f.params

/-- Sorting and deduplicating parameters does not change a function: a packet
sees a parameter through its key and value only. -/
theorem function_holds_tidy (m : Atoms) (f : Function) :
    function_holds m (deduplicate_function_params (sort_function_params f)) = function_holds m f := by
  have hsame : ∀ a b : Param, same_param a b → m f.name a.key a.val = m f.name b.key b.val := by
    intro a b hab
    simp only [same_param, Bool.and_eq_true, decide_eq_true_eq] at hab
    rw [hab.1, hab.2]
  simp only [function_holds, deduplicate_function_params, sort_function_params_name,
    sort_function_params_not]
  rw [Vec.dedup_by_any same_param _ hsame, sort_function_params_any]

theorem rule_fires_tidy (m : Atoms) (rule : RoutingRule) :
    rule_fires m (tidy_rule rule) = rule_fires m rule := by
  simp only [rule_fires, tidy_rule, all_map, Function.comp_def, function_holds_tidy]

theorem rule_fires_sort (m : Atoms) (rule : RoutingRule) :
    rule_fires m (sort_rule rule) = rule_fires m rule := by
  simp only [rule_fires, sort_rule, Vec.sort_by_all]

/-! ## The merge

`can_merge_singleton_rule` relates rules of one function that agree on name,
`not` flag and outbound, so it is an equivalence on those, and absorbing a rule
leaves all three alone. -/

theorem can_merge_singleton_rule_iff (left right : RoutingRule) :
    can_merge_singleton_rule left right ↔
      ∃ l r, left.and_functions = [l] ∧ right.and_functions = [r]
        ∧ l.name = r.name ∧ l.not = r.not ∧ left.outbound = right.outbound := by
  unfold can_merge_singleton_rule
  split
  · rename_i l r hl hr
    simp only [hl, hr, Bool.and_eq_true, decide_eq_true_eq, List.cons.injEq, and_true]
    constructor
    · rintro ⟨⟨h1, h2⟩, h3⟩
      exact ⟨l, r, rfl, rfl, h1, h2, h3⟩
    · rintro ⟨l', r', rfl, rfl, h1, h2, h3⟩
      exact ⟨⟨h1, h2⟩, h3⟩
  · rename_i hne
    simp only [Bool.false_eq_true, false_iff]
    rintro ⟨l, r, hl, hr, -⟩
    exact hne l r hl hr

theorem can_merge_trans (a b c : RoutingRule) (hab : can_merge_singleton_rule a b)
    (hbc : can_merge_singleton_rule b c) : can_merge_singleton_rule a c := by
  rw [can_merge_singleton_rule_iff] at hab hbc ⊢
  obtain ⟨fa, fb, ha, hb, h1, h2, h3⟩ := hab
  obtain ⟨fb', fc, hb', hc, h4, h5, h6⟩ := hbc
  obtain rfl : fb = fb' := by simpa [hb] using hb'
  exact ⟨fa, fc, ha, hc, h1.trans h4, h2.trans h5, h3.trans h6⟩

/-- The rule that absorbed another can be merged with exactly what the absorbed
one could. This is what makes the loop's comparison with the *last kept* rule the
same as a comparison of neighbours. -/
theorem can_merge_absorb (a b c : RoutingRule) (hab : can_merge_singleton_rule a b) :
    can_merge_singleton_rule (absorb_rule a b) c = can_merge_singleton_rule b c := by
  obtain ⟨fa, fb, ha, hb, h1, h2, h3⟩ := (can_merge_singleton_rule_iff a b).mp hab
  simp only [can_merge_singleton_rule, absorb_rule, ha, hb]
  -- `absorb_rule a b` has the name, flag and outbound of `a`, hence those of `b`
  split
  · rename_i l r hl hr
    obtain rfl : { fa with params := fa.params ++ fb.params } = l := by simpa using hl
    simp [hr, h1, h2, h3]
  · rename_i hne
    split
    · rename_i l r hl hr
      exact absurd hr (hne _ r rfl)
    · rfl

def rule_params (rule : RoutingRule) : List Param :=
  rule.and_functions.flatMap (·.params)

/-- The fused run: one function whose parameters are those of all members. -/
theorem foldl_absorb (head : RoutingRule) (rest : List RoutingRule)
    (hhead : head.and_functions = [f]) (h : ∀ s ∈ rest, can_merge_singleton_rule head s) :
    rest.foldl absorb_rule head
      = { head with and_functions :=
            [{ f with params := (head :: rest).flatMap rule_params }] } := by
  induction rest generalizing f head with
  | nil =>
    obtain ⟨fs, out⟩ := head
    obtain rfl : fs = [f] := hhead
    obtain ⟨name, not, params⟩ := f
    simp [rule_params]
  | cons s rest ih =>
    obtain ⟨l, r, hl, hr, h1, h2, h3⟩ :=
      (can_merge_singleton_rule_iff head s).mp (h s mem_cons_self)
    obtain rfl : l = f := by simpa [hhead] using hl.symm
    -- one absorption touches the parameters of the head and nothing else
    have habs : absorb_rule head s
        = { head with and_functions := [{ l with params := l.params ++ r.params }] } := by
      simp only [absorb_rule, hl, hr]
    -- so the grown head can still be merged with all that follows
    have hrest : ∀ x ∈ rest, can_merge_singleton_rule (absorb_rule head s) x := by
      intro x hx
      obtain ⟨l', r', hl', hr', h1', h2', h3'⟩ :=
        (can_merge_singleton_rule_iff head x).mp (h x (mem_cons_of_mem s hx))
      obtain rfl : l = l' := by simpa [hl] using hl'
      rw [habs, can_merge_singleton_rule_iff]
      exact ⟨_, r', rfl, hr', h1', h2', h3'⟩
    rw [foldl_cons, ih { l with params := l.params ++ r.params } (absorb_rule head s)
      (by rw [habs]) hrest, habs]
    simp [rule_params, hl, hr, append_assoc]

/-- Whether a run of rules is one of negated functions; only these are at risk. -/
def run_negated : List RoutingRule → Bool
  | ⟨[f], _⟩ :: _ => f.not
  | _ => false

/-- How a fused run fires: a negated one when all its rules do, any other when
some rule does. -/
def run_fires_merged (m : Atoms) (run : List RoutingRule) : Bool :=
  if run_negated run then run.all (rule_fires m) else run.any (rule_fires m)

def run_verdict (run : List RoutingRule) : Option Function :=
  run.head?.bind rule_verdict

/-- A member of a run fires by its own parameters under the head's function. -/
theorem rule_fires_member (m : Atoms) {head x : RoutingRule} {f : Function}
    (hf : head.and_functions = [f]) (h : can_merge_singleton_rule head x) :
    rule_fires m x = (((rule_params x).any fun p => m f.name p.key p.val) != f.not) := by
  obtain ⟨l, r, hl, hr, h1, h2, -⟩ := (can_merge_singleton_rule_iff head x).mp h
  obtain rfl : l = f := by simpa [hf] using hl.symm
  simp [rule_fires, function_holds, rule_params, hr, h1, h2]

/-- **What merging does.** The fused rule of a run fires by the run's merged
reading. For a negated run the disjunction of the parameters stands under the
negation, which is where "some rule fires" became "all rules fire". -/
theorem rule_fires_fused (m : Atoms) (head : RoutingRule) (rest : List RoutingRule)
    (h : ∀ s ∈ rest, can_merge_singleton_rule head s) :
    rule_fires m (rest.foldl absorb_rule head) = run_fires_merged m (head :: rest) := by
  cases rest with
  | nil => simp [run_fires_merged]
  | cons s rest =>
    obtain ⟨f, -, hf, -⟩ :=
      (can_merge_singleton_rule_iff head s).mp (h s mem_cons_self)
    -- the head is a member too: it can be merged with itself
    have hhead : can_merge_singleton_rule head head :=
      (can_merge_singleton_rule_iff head head).mpr ⟨f, f, hf, hf, rfl, rfl, rfl⟩
    have hfires : ∀ x ∈ head :: s :: rest, rule_fires m x
        = (((rule_params x).any fun p => m f.name p.key p.val) != f.not) := by
      intro x hx
      rcases mem_cons.mp hx with rfl | hx
      · exact rule_fires_member m hf hhead
      · exact rule_fires_member m hf (h x hx)
    have hneg : run_negated (head :: s :: rest) = f.not := by
      obtain ⟨fs, out⟩ := head
      obtain rfl : fs = [f] := hf
      rfl
    rw [foldl_absorb f head (s :: rest) hf h, run_fires_merged, hneg,
      any_or_all_bne f.not (fun x => (rule_params x).any fun p =>
        m f.name p.key p.val) (head :: s :: rest) hfires]
    simp only [rule_fires, function_holds, all_cons, all_nil, Bool.and_true, any_flatMap]

/-! ## The pass as a whole -/

theorem rule_verdict_run {head : RoutingRule} {rest : List RoutingRule}
    (h : ∀ s ∈ rest, can_merge_singleton_rule head s) :
    ∀ r ∈ head :: rest, rule_verdict r = run_verdict (head :: rest) := by
  intro r hr
  rcases mem_cons.mp hr with rfl | hr
  · rfl
  · obtain ⟨-, -, -, -, -, -, hout⟩ := (can_merge_singleton_rule_iff head r).mp (h r hr)
    simp [run_verdict, rule_verdict, hout]

theorem foldl_absorb_outbound (head : RoutingRule) (rest : List RoutingRule) :
    (rest.foldl absorb_rule head).outbound = head.outbound := by
  induction rest generalizing head with
  | nil => rfl
  | cons s rest ih =>
    rw [foldl_cons, ih (absorb_rule head s), absorb_rule]
    split <;> rfl

/-- The maximal runs the merge loop fuses. -/
def merge_runs (expanded : List RoutingRule) : List (List RoutingRule) :=
  DecisionList.runs can_merge_singleton_rule (expanded.map sort_rule)

/-- The rules as `optimize_routing_rules` reads them in: aliases renamed and
parameters expanded, nothing reordered yet. -/
def expand_rules (resolver : GeodataResolver) (rules : List RoutingRule) :
    Except String (List RoutingRule) :=
  rules.mapM (expand_rule resolver)

/-- The rules after the merge and the last loop, on the expanded list. -/
def merge_expanded (expanded : List RoutingRule) : List RoutingRule :=
  (DecisionList.mergeRuns can_merge_singleton_rule absorb_rule
    (expanded.map sort_rule)).map tidy_rule

theorem optimize_routing_rules_eq (resolver : GeodataResolver) (rules : List RoutingRule) :
    optimize_routing_rules resolver rules = (expand_rules resolver rules).map merge_expanded := by
  cases rules.mapM (expand_rule resolver) <;> rfl

section

variable (m : Atoms) (expanded : List RoutingRule)

theorem decision_expanded :
    decision m expanded = firstMatch (fun run => run.any (rule_fires m)) run_verdict
      false (merge_runs expanded) := by
  -- the conjunction of a rule does not see the order of its functions
  have hsort : decision m expanded = decision m (expanded.map sort_rule) := by
    rw [decision, decision, firstMatch_map]
    exact firstMatch_congr expanded
      (fun r _ => (rule_fires_sort m r).symm) (fun _ _ => rfl) false
  have hruns := runs_head_join can_merge_singleton_rule can_merge_trans
    (expanded.map sort_rule)
  rw [hsort, decision, ← runs_flatten can_merge_singleton_rule (expanded.map sort_rule)]
  refine firstMatch_flatten ?_ false
  intro g hg
  obtain ⟨r, t, rfl, hjoin⟩ := hruns g hg
  exact rule_verdict_run hjoin

theorem decision_merged :
    decision m (merge_expanded expanded)
      = firstMatch (run_fires_merged m) run_verdict false (merge_runs expanded) := by
  have hruns := runs_head_join can_merge_singleton_rule can_merge_trans
    (expanded.map sort_rule)
  -- the last loop works inside the rules; drop it before looking at the runs
  have htidy : decision m (merge_expanded expanded)
      = decision m (mergeRuns can_merge_singleton_rule absorb_rule
          (expanded.map sort_rule)) := by
    rw [merge_expanded, decision, decision, firstMatch_map]
    exact firstMatch_congr _ (fun r _ => rule_fires_tidy m r) (fun _ _ => rfl) false
  rw [htidy, mergeRuns_eq _ _ can_merge_absorb, decision]
  refine firstMatch_filterMap (fun g hg => ?_) false
  obtain ⟨r, t, rfl, hjoin⟩ := hruns g hg
  refine ⟨t.foldl absorb_rule r, rfl, rule_fires_fused m r t hjoin, ?_⟩
  simp [run_verdict, rule_verdict, foldl_absorb_outbound]

theorem run_fires_merged_any :
    ∀ run ∈ merge_runs expanded, run_fires_merged m run → run.any (rule_fires m) := by
  intro run hrun hfires
  obtain ⟨r, t, rfl, -⟩ := runs_head_join can_merge_singleton_rule can_merge_trans
    (expanded.map sort_rule) run hrun
  unfold run_fires_merged at hfires
  split at hfires
  · have hr := all_eq_true.mp hfires r mem_cons_self
    exact any_eq_true.mpr ⟨r, mem_cons_self, hr⟩
  · exact hfires

/-- The everyday case: where no two negated rules are merged, the optimized rules
decide every packet as the expanded ones do. -/
theorem decision_merged_of_unmerged_negations
    (h : ∀ run ∈ merge_runs expanded, run_negated run → run.length = 1) :
    decision m (merge_expanded expanded) = decision m expanded := by
  rw [decision_merged, decision_expanded]
  refine firstMatch_congr _ (fun run hrun => ?_) (fun _ _ => rfl) false
  unfold run_fires_merged
  split
  · rename_i hneg
    obtain ⟨r, rfl⟩ := List.length_eq_one_iff.mp (h run hrun hneg)
    simp
  · rfl

end

/-- **When the optimizer keeps the meaning.** If expansion succeeds the whole
pass does, and for a given packet the optimized list decides as the expanded one
exactly when the list recovers from every reached negated run that the packet
splits: every such run has, later in the optimized list, the decision it would
have given. -/
theorem optimize_routing_rules_decision_iff (resolver : GeodataResolver)
    (rules expanded : List RoutingRule) (m : Atoms)
    (hexpand : expand_rules resolver rules = .ok expanded) :
    ∃ optimized, optimize_routing_rules resolver rules = .ok optimized ∧
      (decision m optimized = decision m expanded ↔
        DecisionList.Recovers (fun run => run.any (rule_fires m)) (run_fires_merged m)
          run_verdict false (merge_runs expanded)) := by
  refine ⟨merge_expanded expanded, ?_, ?_⟩
  · rw [optimize_routing_rules_eq, hexpand]; rfl
  · rw [decision_merged, decision_expanded]
    exact firstMatch_eq_iff (run_fires_merged_any m expanded) false

/-- `!domain(domain: a.example) -> proxy` and `!domain(domain: b.example) -> proxy`. -/
def negated_neighbours : List RoutingRule :=
  let rule (host : String) : RoutingRule :=
    { and_functions := [{ name := "domain", not := true, params := [.plain "domain" host] }]
      outbound := { name := "proxy", not := false, params := [] } }
  [rule "a.example", rule "b.example"]

def no_geodata : GeodataResolver where
  load_geosite_params _ _ := .error "no geosite asset"
  load_geoip_params _ _ := .error "no geoip asset"

/-- A packet for the host `a.example`: of the two suffixes it matches the first. -/
def packet_for_a : Atoms := fun name key val =>
  name = "domain" && key = "suffix" && val = "a.example"

theorem optimize_routing_rules_decision_iff_neighbours :
    ∃ optimized, optimize_routing_rules no_geodata negated_neighbours = .ok optimized ∧
      (decision packet_for_a optimized
          = decision packet_for_a (((expand_rules no_geodata negated_neighbours).toOption).getD [])
        ↔ DecisionList.Recovers (fun run => run.any (rule_fires packet_for_a))
          (run_fires_merged packet_for_a) run_verdict false
          (merge_runs (((expand_rules no_geodata negated_neighbours).toOption).getD []))) :=
  optimize_routing_rules_decision_iff no_geodata negated_neighbours _ packet_for_a (by rfl)

/-- The two rules send a packet for `a.example` to `proxy` (the second one fires);
the rule they are merged into does not fire. -/
theorem optimize_routing_rules_loses_decision :
    ∃ expanded optimized,
      expand_rules no_geodata negated_neighbours = .ok expanded ∧
      optimize_routing_rules no_geodata negated_neighbours = .ok optimized ∧
      decision packet_for_a expanded
        = (some { name := "proxy", not := false, params := [] }, false) ∧
      decision packet_for_a optimized = (none, false) :=
  ⟨_, _, rfl, rfl, by decide, by decide⟩

end DaeNext.RoutingOptimize
