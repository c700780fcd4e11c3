/-
The pieces of the plan builder, `dae-resident-dataplane/src/host_routing_plan/`:
the 24-byte match set and its decoder, outbounds, parameter grouping, and the
parsers of parameter values.

A plan is three lists that grow together. A match set refers to a prefix set by
its index in the second and to a domain set by its own position, which the domain
set keeps. Geodata reports and the labels of match sets are for display and have
no part here.
-/
import DaeNext.ConfigAst
import DaeNext.LibWire
import DaeNext.RoutingUserspace

set_option autoImplicit false

namespace DaeNext.RoutingPlan

open ConfigAst CoreTypes Net RoutingPrefix RoutingDomain RoutingUserspace

def MATCH_TYPE_DOMAIN_SET : UInt8 := 0
def MATCH_TYPE_IP_SET : UInt8 := 1
def MATCH_TYPE_SOURCE_IP_SET : UInt8 := 2
def MATCH_TYPE_PORT : UInt8 := 3
def MATCH_TYPE_SOURCE_PORT : UInt8 := 4
def MATCH_TYPE_L4_PROTO : UInt8 := 5
def MATCH_TYPE_IP_VERSION : UInt8 := 6
def MATCH_TYPE_MAC : UInt8 := 7
def MATCH_TYPE_PROCESS_NAME : UInt8 := 8
def MATCH_TYPE_DSCP : UInt8 := 9
def MATCH_TYPE_FALLBACK : UInt8 := 10

/-- The slots of the routing map. -/
def MAX_MATCH_SET_LEN : Nat := 1024

/-! ## Plans -/

structure OutboundSpec where
  id : UInt8
  mark : UInt32
  must : Bool
  deriving DecidableEq

structure MatchSetBytes where
  bytes : List UInt8
  outbound : UInt8
  mark : UInt32
  must : Bool
  deriving DecidableEq

structure ResidentDomainSet where
  rule_index : Nat
  values : SharedDomainSet

structure ResidentRoutingPlan where
  match_sets : List MatchSetBytes := []
  lpm_sets : List (List IpPrefix) := []
  domain_sets : List ResidentDomainSet := []

/-- `match_set`: value, flags and mark in the layout the kernel reads. -/
def match_set (value : List UInt8) (not : Bool) (match_type : UInt8) (outbound : OutboundSpec) :
    MatchSetBytes where
  -- sixteen bytes of value, four flag bytes, four bytes of mark
  bytes := value ++ [not.toUInt8, match_type, outbound.id, outbound.must.toUInt8]
    ++ Wire.le 4 outbound.mark.toNat
  outbound := outbound.id
  mark := outbound.mark
  must := outbound.must

def logical_outbound (index : OutboundIndex) : OutboundSpec where
  id := index.value
  mark := 0
  must := false

/-- The kind a match set is decoded to, by its type byte. -/
def match_kind (match_type : UInt8) (bytes : List UInt8) : Except String RoutingMatchKind :=
  let lpm_index := UInt32.ofNat (Wire.fromLe (bytes.take 4))
  let start := UInt16.ofNat (Wire.fromLe (bytes.take 2))
  let last := UInt16.ofNat (Wire.fromLe ((bytes.drop 2).take 2))
  let value := bytes.getD 0 0
  if match_type = MATCH_TYPE_DOMAIN_SET then .ok .DomainSet
  else if match_type = MATCH_TYPE_IP_SET then .ok (.IpSet lpm_index)
  else if match_type = MATCH_TYPE_SOURCE_IP_SET then .ok (.SourceIpSet lpm_index)
  else if match_type = MATCH_TYPE_PORT then .ok (.Port start last)
  else if match_type = MATCH_TYPE_SOURCE_PORT then .ok (.SourcePort start last)
  else if match_type = MATCH_TYPE_L4_PROTO then .ok (.L4Proto value)
  else if match_type = MATCH_TYPE_IP_VERSION then .ok (.IpVersion value)
  else if match_type = MATCH_TYPE_MAC then .ok (.Mac lpm_index)
  else if match_type = MATCH_TYPE_PROCESS_NAME then .ok (.ProcessName (bytes.take 16))
  else if match_type = MATCH_TYPE_DSCP then .ok (.Dscp value)
  else if match_type = MATCH_TYPE_FALLBACK then .ok .Fallback
  else .error s!"unknown resident routing match type: {match_type}"

/-- `match_set_typed`: the decoder of the userspace side. Outbound, mark and must
are taken from the record, the rest from the bytes. -/
def match_set_typed (set : MatchSetBytes) : Except String RoutingMatchSet := do
  let kind ← match_kind (set.bytes.getD 17 0) set.bytes
  return { kind, outbound := ⟨set.outbound⟩, not := set.bytes.getD 16 0 != 0, mark := set.mark,
           must := set.must }

/-! ## Parameter grouping -/

/-- One turn of the loop in `grouped_params`: keys in order of first sight, values
in order of appearance. -/
def add_grouped (groups : List (String × List String)) (param : Param) :
    List (String × List String) :=
  if groups.any (fun group => group.1 = param.key) then
    groups.map fun group =>
      if group.1 = param.key then (group.1, group.2 ++ [param.val]) else group
  else groups ++ [(param.key, [param.val])]

def grouped_params (params : List Param) : List (String × List String) :=
  params.foldl add_grouped []

/-! ## Value parsers -/

/-- The loop of `parse_l4_proto` and `parse_ip_version`: known items or their bit
into the value. -/
def parse_flags (flag : String → Option UInt8) (what : String) (values : List String) :
    Except String UInt8 := do
  let value ← values.foldlM (fun value item =>
    match flag item with
    | some bit => .ok (value ||| bit)
    | none => .error s!"unsupported {what}: {item}") 0
  if value = 0 then .error s!"empty {what}" else .ok value

def l4_proto_flag : String → Option UInt8
  | "tcp" => some L4_TCP
  | "udp" => some L4_UDP
  | _ => none

def parse_l4_proto : List String → Except String UInt8 := parse_flags l4_proto_flag "l4proto"

def ip_version_flag : String → Option UInt8
  | "4" => some IP_VERSION_4
  | "6" => some IP_VERSION_6
  | _ => none

def parse_ip_version : List String → Except String UInt8 := parse_flags ip_version_flag "ipversion"

/-- `str::parse::<u16>` with the error put into words. -/
def parse_u16 (what : String) (text : String) : Except String UInt16 :=
  match Text.from_str_radix 10 65535 text with
  | .ok n => .ok (UInt16.ofNat n)
  | .error err => .error s!"{what}: {err.to_string}"

def parse_port_range (value : String) : Except String (UInt16 × UInt16) :=
  match Text.split_once '-' value with
  | some (start, last) => do
    let start ← parse_u16 s!"invalid port range start {value}" start
    let last ← parse_u16 s!"invalid port range end {value}" last
    if last < start then .error s!"invalid descending port range: {value}" else .ok (start, last)
  | none => do
    let port ← parse_u16 s!"invalid port {value}" value
    return (port, port)

def parse_ip_prefix (value : String) : Except String IpPrefix :=
  let value := Text.trim_matches '"' (Text.trim_matches '\'' value)
  let invalid_ip (err : String) := s!"invalid ip {value}: {err}"
  match Text.split_once '/' value with
  | some (addr, bits) => do
    let addr ← Fallible.map_err invalid_ip (IpAddr.from_str addr)
    let bits ← Fallible.map_err (fun err => s!"invalid prefix bits {value}: {err.to_string}")
      (Text.from_str_radix 10 255 bits)
    let max_bits := if addr.is_ipv4 then 32 else 128
    if max_bits < bits then .error s!"invalid prefix bits {bits} for {addr.to_string}"
    else Fallible.map_err RoutingError.to_string (IpPrefix.new addr bits)
  | none => do
    let addr ← Fallible.map_err invalid_ip (IpAddr.from_str value)
    let bits := if addr.is_ipv4 then 32 else 128
    Fallible.map_err RoutingError.to_string (IpPrefix.new addr bits)

def parse_ip_prefix_group (param_key : String) (values : List String) :
    Except String (List IpPrefix) :=
  match param_key with
  | "" => values.mapM fun value => parse_ip_prefix value
  | other => .error s!"unsupported resident ip parameter key: {other}"

def parse_mac_prefix (value : String) : Except String IpPrefix := do
  let parts := Text.split ':' value
  if parts.length ≠ 6 then .error s!"invalid mac address: {value}"
  else
    let octets ← parts.mapM fun part =>
      Fallible.map_err (fun err => s!"invalid mac address {value}: {err.to_string}")
        (Text.from_str_radix 16 255 part)
    -- a MAC stands in the last six bytes, as `mac_addr` of a query puts it
    let addr := IpAddr.V6 (ipv6_from_octets (List.replicate 10 0 ++ octets.map UInt8.ofNat))
    Fallible.map_err RoutingError.to_string (IpPrefix.new addr 128)

def parse_u32_auto (value : String) : Except Text.ParseIntError Nat :=
  match (Text.strip_leading "0x" value).or (Text.strip_leading "0X" value) with
  | some hex => Text.from_str_radix 16 4294967295 hex
  | none => Text.from_str_radix 10 4294967295 value

def parse_u64_base0 (value : String) : Except Text.ParseIntError Nat :=
  let max := 18446744073709551615
  -- each leading plus is one recursive call of the source
  let value := String.ofList (value.toList.dropWhile (· = '+'))
  match (Text.strip_leading "0x" value).or (Text.strip_leading "0X" value) with
  | some hex => Text.from_str_radix 16 max hex
  | none =>
    match (Text.strip_leading "0o" value).or (Text.strip_leading "0O" value) with
    | some octal => Text.from_str_radix 8 max octal
    | none =>
      match (Text.strip_leading "0b" value).or (Text.strip_leading "0B" value) with
      | some binary => Text.from_str_radix 2 max binary
      | none =>
        match value.toList with
        -- a zero and a digit is octal without its letter
        | '0' :: second :: _ =>
          if second.isDigit then Text.from_str_radix 8 max value
          else Text.from_str_radix 10 max value
        | _ => Text.from_str_radix 10 max value

def parse_dscp (value : String) : Except String UInt8 := do
  let parsed ← Fallible.map_err (fun err => s!"invalid dscp {value}: {err.to_string}")
    (parse_u64_base0 value)
  if 63 < parsed then .error s!"invalid dscp {value}: value {parsed} exceeds 63"
  else .ok (UInt8.ofNat parsed)

/-! ## Outbounds -/

abbrev OutboundGroups := Std.TreeMap String UInt8 compare

/-- The loop of `outbound_groups`. -/
def insert_groups (index : Nat) (groups : OutboundGroups) :
    List Group → Except String OutboundGroups
  | [] => .ok groups
  | group :: rest =>
    -- ids of groups follow their order in the configuration
    let outbound := index + OutboundIndex.USER_DEFINED_MIN.value.toNat
    if OutboundIndex.USER_DEFINED_MAX.value.toNat < outbound then
      .error "too many resident outbounds"
    else if groups.contains group.name then
      .error s!"duplicated outbound name: {group.name}"
    else insert_groups (index + 1) (groups.insert group.name (UInt8.ofNat outbound)) rest

def outbound_groups (config : Config) : Except String OutboundGroups :=
  let groups : OutboundGroups := {}
  let groups := groups.insert "direct" OutboundIndex.DIRECT.value
  let groups := groups.insert "block" OutboundIndex.BLOCK.value
  insert_groups 0 groups config.group

/-- The parameter loop of `parse_outbound`. -/
def parse_outbound_params : List Param → UInt32 → Bool → Except String (UInt32 × Bool)
  | [], mark, must => .ok (mark, must)
  | param :: params, mark, must =>
    match param.key with
    | "mark" => do
      let mark ← Fallible.map_err
        (fun err => s!"invalid outbound mark {param.val}: {err.to_string}") (parse_u32_auto param.val)
      parse_outbound_params params (UInt32.ofNat mark) must
    | "" =>
      if param.val = "must" then parse_outbound_params params mark true
      else .error s!"unknown outbound param: {param.val}"
    | key => .error s!"unknown outbound param key: {key}"

def parse_outbound (function : Function) (groups : OutboundGroups) :
    Except String OutboundSpec := do
  let (mark, must) ← parse_outbound_params function.params 0 false
  -- `must_rules` is no group and needs none
  match function.name with
  | "must_rules" => return { id := OutboundIndex.MUST_RULES.value, mark, must }
  | name =>
    match groups[name]? with
    | some id => return { id, mark, must }
    | none => .error s!"outbound group not found: {name}"

/-- An id that stands for a destination: a built-in one, or the group at its place
in the configuration. -/
def OutboundOf (config : Config) (name : String) (id : UInt8) : Prop :=
  (name = "direct" ∧ id = OutboundIndex.DIRECT.value)
    ∨ (name = "block" ∧ id = OutboundIndex.BLOCK.value)
    ∨ ∃ index, (config.group[index]?).map Group.name = some name
        ∧ id.toNat = index + OutboundIndex.USER_DEFINED_MIN.value.toNat
        ∧ id.toNat ≤ OutboundIndex.USER_DEFINED_MAX.value.toNat

variable {config : Config} {groups : OutboundGroups} {name : String} {id : UInt8}

theorem insert_groups_get {index : Nat} {result : OutboundGroups} {rest : List Group}
    (hrest : config.group.drop index = rest)
    (hgroups : ∀ name id, groups[name]? = some id → OutboundOf config name id)
    (h : insert_groups index groups rest = .ok result)
    (hget : result[name]? = some id) : OutboundOf config name id := by
  induction rest generalizing index groups with
  | nil =>
    cases h
    exact hgroups name id hget
  | cons group rest ih =>
    rw [insert_groups] at h
    split at h
    · cases h
    · split at h
      · cases h
      · have hdrop : config.group.drop (index + 1) = rest := by
          rw [← List.drop_drop, hrest]
          rfl
        have hhead : config.group[index]? = some group := by
          rw [← List.head?_drop, hrest]
          rfl
        -- the invariant: every name in the map has its own id
        refine ih hdrop (fun n i hn => ?_) h
        rw [Std.TreeMap.getElem?_insert] at hn
        split at hn
        · -- the name just inserted
          rename_i heq
          cases hn
          have hlt : index + OutboundIndex.USER_DEFINED_MIN.value.toNat < 256 := by
            have : OutboundIndex.USER_DEFINED_MAX.value.toNat < 256 := by decide
            omega
          have hid : (UInt8.ofNat (index + OutboundIndex.USER_DEFINED_MIN.value.toNat)).toNat
              = index + OutboundIndex.USER_DEFINED_MIN.value.toNat := by
            rw [UInt8.toNat_ofNat', Nat.mod_eq_of_lt hlt]
          refine .inr (.inr ⟨index, ?_, hid, by omega⟩)
          rw [hhead, ← Std.LawfulEqOrd.eq_of_compare heq]
          rfl
        · exact hgroups n i hn

theorem outbound_groups_get (h : outbound_groups config = .ok groups)
    (hget : groups[name]? = some id) : OutboundOf config name id := by
  refine insert_groups_get rfl (fun n i hn => ?_) h hget
  -- before the loop the map has the two built-in names
  rw [Std.TreeMap.getElem?_insert] at hn
  split at hn
  · rename_i heq
    exact .inr (.inl ⟨(Std.LawfulEqOrd.eq_of_compare heq).symm, (Option.some.inj hn).symm⟩)
  · rw [Std.TreeMap.getElem?_insert] at hn
    split at hn
    · rename_i heq
      exact .inl ⟨(Std.LawfulEqOrd.eq_of_compare heq).symm, (Option.some.inj hn).symm⟩
    · simp at hn

theorem OutboundOf.le (h : OutboundOf config name id) :
    id.toNat ≤ OutboundIndex.USER_DEFINED_MAX.value.toNat := by
  rcases h with ⟨-, rfl⟩ | ⟨-, rfl⟩ | ⟨_, -, -, hle⟩
  · decide
  · decide
  · exact hle

theorem parse_outbound_ok (hgroups : outbound_groups config = .ok groups)
    {function : Function} {spec : OutboundSpec} (h : parse_outbound function groups = .ok spec) :
    (function.name = "must_rules" ∧ spec.id = OutboundIndex.MUST_RULES.value)
      ∨ (function.name ≠ "must_rules" ∧ OutboundOf config function.name spec.id) := by
  obtain ⟨⟨mark, must⟩, -, h⟩ := Fallible.bind_ok h
  dsimp only at h
  split at h
  · rename_i hname
    cases h
    exact .inl ⟨hname, rfl⟩
  · rename_i hname
    cases hget : groups[function.name]? with
    | none => rw [hget] at h; cases h
    | some id =>
      rw [hget] at h
      cases h
      exact .inr ⟨hname, outbound_groups_get hgroups hget⟩

end DaeNext.RoutingPlan
