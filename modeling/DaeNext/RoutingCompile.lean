/-
The rule compiler, `host_routing_plan/compile.rs`, and what a rule's parameters
ask of a packet.

A rule becomes a stretch of match sets: a function's parameters are grouped by
key, each group becomes one match set or several, and outbound bytes chain them
(`or` inside a function, `and` between functions, the rule's outbound at the end).
-/
import DaeNext.RoutingOptimize
import DaeNext.RoutingPlanMatcher

set_option autoImplicit false

namespace DaeNext.RoutingCompile

open ConfigAst CoreTypes Net RoutingPrefix RoutingDomain RoutingUserspace RoutingPlan
open RoutingPlanMatcher

/-! ## The compiler -/

/-- `GeodataResolver::shared_domain_set`. The caches and the interner behind it hand
out the set that would be built. -/
def shared_domain_set (engines : TextEngines) (key : String) (values : List String) :
    Except String SharedDomainSet := do
  let key ← Fallible.map_err
    (fun err => s!"resident shared domain set key: {RoutingError.to_string err}")
    (DomainKey.try_from key)
  Fallible.map_err (fun err => s!"build shared resident domain set: {RoutingError.to_string err}")
    (SharedDomainSet.from_vec engines values key)

/-- Match sets for alternatives: all but the last are chained by `or`. -/
def alternatives (not : Bool) (match_type : UInt8) (outbound : OutboundSpec) :
    List (List UInt8) → List MatchSetBytes
  | [] => []
  | [raw] => [match_set raw not match_type outbound]
  | raw :: raws =>
    match_set raw not match_type (logical_outbound .LOGICAL_OR)
      :: alternatives not match_type outbound raws

def push_match_sets (plan : ResidentRoutingPlan) (sets : List MatchSetBytes) :
    ResidentRoutingPlan :=
  { plan with match_sets := plan.match_sets ++ sets }

/-- A value in the first byte. -/
def raw_u8 (value : UInt8) : List UInt8 := value :: List.replicate 15 0

/-- A port range in the first four bytes. -/
def raw_ports (range : UInt16 × UInt16) : List UInt8 :=
  Wire.le 2 range.1.toNat ++ Wire.le 2 range.2.toNat ++ List.replicate 12 0

/-- An LPM index in the first four bytes. -/
def raw_lpm (lpm_index : UInt32) : List UInt8 :=
  Wire.le 4 lpm_index.toNat ++ List.replicate 12 0

/-- The arm for `ip`, `sip` and `mac`: one prefix set, one match set. -/
def add_lpm_match_set (plan : ResidentRoutingPlan) (prefixes : List IpPrefix) (not : Bool)
    (match_type : UInt8) (outbound : OutboundSpec) : ResidentRoutingPlan :=
  -- the index is the position the set is about to take
  let lpm_index := UInt32.ofNat plan.lpm_sets.length
  { plan with
    lpm_sets := plan.lpm_sets ++ [prefixes]
    match_sets := plan.match_sets ++ [match_set (raw_lpm lpm_index) not match_type outbound] }

def add_function_match_sets (engines : TextEngines) (plan : ResidentRoutingPlan)
    (function : Function) (param_key : String) (values : List String) (outbound : OutboundSpec) :
    Except String ResidentRoutingPlan :=
  match function.name with
  | "domain" =>
    if param_key = "full" ∨ param_key = "keyword" ∨ param_key = "suffix" ∨ param_key = "regex" then do
      -- the bit of the set is the position its match set is about to take
      let rule_index := plan.match_sets.length
      let values ← shared_domain_set engines param_key values
      return { plan with
        domain_sets := plan.domain_sets ++ [{ rule_index, values }]
        match_sets := plan.match_sets
          ++ [match_set (List.replicate 16 0) function.not MATCH_TYPE_DOMAIN_SET outbound] }
    else .error s!"unsupported resident domain parameter key: {param_key}"
  | "ip" => do
    let prefixes ← parse_ip_prefix_group param_key values
    return add_lpm_match_set plan prefixes function.not MATCH_TYPE_IP_SET outbound
  | "sip" => do
    let prefixes ← parse_ip_prefix_group param_key values
    return add_lpm_match_set plan prefixes function.not MATCH_TYPE_SOURCE_IP_SET outbound
  | "mac" => do
    let prefixes ← values.mapM fun value => parse_mac_prefix value
    return add_lpm_match_set plan prefixes function.not MATCH_TYPE_MAC outbound
  | "port" => do
    let ranges ← values.mapM parse_port_range
    return push_match_sets plan
      (alternatives function.not MATCH_TYPE_PORT outbound (ranges.map raw_ports))
  | "sport" => do
    let ranges ← values.mapM parse_port_range
    return push_match_sets plan
      (alternatives function.not MATCH_TYPE_SOURCE_PORT outbound (ranges.map raw_ports))
  | "l4proto" => do
    let value ← parse_l4_proto values
    return push_match_sets plan [match_set (raw_u8 value) function.not MATCH_TYPE_L4_PROTO outbound]
  | "ipversion" => do
    let value ← parse_ip_version values
    return push_match_sets plan
      [match_set (raw_u8 value) function.not MATCH_TYPE_IP_VERSION outbound]
  | "pname" =>
    .ok (push_match_sets plan (alternatives function.not MATCH_TYPE_PROCESS_NAME outbound
      (values.map fun value => raw16 (Text.as_bytes value))))
  | "dscp" => do
    let dscps ← values.mapM parse_dscp
    return push_match_sets plan
      (alternatives function.not MATCH_TYPE_DSCP outbound (dscps.map raw_u8))
  | other => .error s!"unsupported resident routing function: {other}"

/-- The inner loop of `compile_rule`, over the groups of one function. -/
def compile_groups (engines : TextEngines) (function : Function) (outbound : OutboundSpec) :
    ResidentRoutingPlan → List (String × List String) → Except String ResidentRoutingPlan
  | plan, [] => .ok plan
  | plan, [(key, values)] => add_function_match_sets engines plan function key values outbound
  | plan, (key, values) :: groups => do
    -- another key of the same function follows: the disjunction is still open
    let plan ← add_function_match_sets engines plan function key values
      (logical_outbound .LOGICAL_OR)
    compile_groups engines function outbound plan groups

def compile_function (engines : TextEngines) (outbound : OutboundSpec)
    (plan : ResidentRoutingPlan) (function : Function) : Except String ResidentRoutingPlan :=
  let grouped := grouped_params function.params
  if grouped.isEmpty then .error s!"function {function.name} has no params"
  else compile_groups engines function outbound plan grouped

/-- The outer loop of `compile_rule`, over the functions of the rule. -/
def compile_functions (engines : TextEngines) (outbound : OutboundSpec) :
    ResidentRoutingPlan → List Function → Except String ResidentRoutingPlan
  | plan, [] => .ok plan
  | plan, [function] => compile_function engines outbound plan function
  | plan, function :: functions => do
    -- another function follows, which has to hold as well
    let plan ← compile_function engines (logical_outbound .LOGICAL_AND) plan function
    compile_functions engines outbound plan functions

def compile_rule (engines : TextEngines) (groups : OutboundGroups) (plan : ResidentRoutingPlan)
    (rule : RoutingRule) : Except String ResidentRoutingPlan := do
  let outbound ← parse_outbound rule.outbound groups
  compile_functions engines outbound plan rule.and_functions

def compile_rules (engines : TextEngines) (groups : OutboundGroups) (index : Nat)
    (plan : ResidentRoutingPlan) : List RoutingRule → Except String ResidentRoutingPlan
  | [] => .ok plan
  | rule :: rules => do
    let plan ← Fallible.map_err
      (fun err => s!"resident routing rule {index} failed after generic optimization: {err}; rule="
        ++ rule.to_config_string false true)
      (compile_rule engines groups plan rule)
    compile_rules engines groups (index + 1) plan rules

/-- The fallback match set that the builder appends. -/
def push_fallback (plan : ResidentRoutingPlan) (fallback : OutboundSpec) : ResidentRoutingPlan :=
  push_match_sets plan [match_set (List.replicate 16 0) false MATCH_TYPE_FALLBACK fallback]

/-! ## What a parameter asks of a packet -/

def prefix_holds (parsed : Except String IpPrefix) (addr : Option IpAddr) : Bool :=
  match parsed, addr with
  | .ok pfx, some addr => pfx.contains addr
  | _, _ => false

def range_holds (parsed : Except String (UInt16 × UInt16)) (port : Option UInt16) : Bool :=
  match parsed with
  | .ok (start, last) => port_between start last port
  | .error _ => false

def dscp_holds (parsed : Except String UInt8) (dscp : Option UInt8) : Bool :=
  match parsed with
  | .ok value => dscp.any fun got => got = value
  | .error _ => false

def domain_holds (engines : TextEngines) (key val domain : String) : Bool :=
  match DomainKey.try_from key with
  | .ok key => !domain.isEmpty && pattern_matches engines key domain val
  | .error _ => false

/-- One parameter `key: val` of the function `name` against a query, with the
source's own parsers and tests. -/
def param_holds (engines : TextEngines) (query : Query) : RoutingOptimize.Atoms :=
  fun name key val =>
    match name with
    | "domain" => domain_holds engines key val query.domain
    | "ip" => prefix_holds ( parse_ip_prefix val) (some query.dest)
    | "sip" => prefix_holds ( parse_ip_prefix val) query.source
    | "mac" => prefix_holds ( parse_mac_prefix val) query.mac_addr
    | "port" => range_holds (parse_port_range val) (some query.dest_port)
    | "sport" => range_holds (parse_port_range val) query.source_port
    -- flags are collected into one byte; apart, each is a test of its own bit
    | "l4proto" =>
      (l4_proto_flag val).any fun bit => query.l4proto.any fun got => got &&& bit != 0
    | "ipversion" =>
      (ip_version_flag val).any fun bit => query.effective_ip_version &&& bit != 0
    | "pname" =>
      query.process_name_bytes.any fun got =>
        got.head? != some 0 && raw16 (Text.as_bytes val) = got
    | "dscp" => dscp_holds (parse_dscp val) query.dscp
    | _ => false

section

variable (engines : TextEngines) (query : Query) (key val : String)

@[simp] theorem param_holds_domain : param_holds engines query "domain" key val
    = domain_holds engines key val query.domain := rfl

@[simp] theorem param_holds_ip : param_holds engines query "ip" key val
    = prefix_holds ( parse_ip_prefix val) (some query.dest) := rfl

@[simp] theorem param_holds_sip : param_holds engines query "sip" key val
    = prefix_holds ( parse_ip_prefix val) query.source := rfl

@[simp] theorem param_holds_mac : param_holds engines query "mac" key val
    = prefix_holds ( parse_mac_prefix val) query.mac_addr := rfl

@[simp] theorem param_holds_port : param_holds engines query "port" key val
    = range_holds (parse_port_range val) (some query.dest_port) := rfl

@[simp] theorem param_holds_sport : param_holds engines query "sport" key val
    = range_holds (parse_port_range val) query.source_port := rfl

@[simp] theorem param_holds_l4proto : param_holds engines query "l4proto" key val
    = (l4_proto_flag val).any fun bit => query.l4proto.any fun got => got &&& bit != 0 := rfl

@[simp] theorem param_holds_ipversion : param_holds engines query "ipversion" key val
    = (ip_version_flag val).any fun bit => query.effective_ip_version &&& bit != 0 := rfl

@[simp] theorem param_holds_pname : param_holds engines query "pname" key val
    = query.process_name_bytes.any fun got =>
        got.head? != some 0 && raw16 (Text.as_bytes val) = got := rfl

@[simp] theorem param_holds_dscp : param_holds engines query "dscp" key val
    = dscp_holds (parse_dscp val) query.dscp := rfl

end

end DaeNext.RoutingCompile
