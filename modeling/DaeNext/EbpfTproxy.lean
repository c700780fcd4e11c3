/-
`wan_egress` of the eBPF program, `dae-ebpf-program/src/tproxy.rs`.

A packet that this host sends out is routed by `route`, and what `route` says decides
whether it passes, is dropped or goes to the control plane. A TCP connection is routed
once, at its SYN: the decision is saved in `routing_tuples_map` under the packet's
tuple, and the packets after the SYN look it up.

The packet is what `parse_transport` found in the buffer. The map lookups and the
helpers answer from the environment of the packet, so do the UDP connection state
and the redirect, which do not touch `routing_tuples_map`.
-/
import DaeNext.EbpfRouting

set_option autoImplicit false

namespace DaeNext.EbpfTproxy

open EbpfRouting

/-- `TC_ACT_UNSPEC` and `TCX_NEXT`. -/
def TCX_NEXT : Int := -1
def TC_ACT_SHOT : Int := 2
def NOWHERE_IFINDEX : UInt32 := 0
def IPPROTO_TCP : UInt8 := 6
def IPPROTO_UDP : UInt8 := 17
def IPPROTO_ICMPV6 : UInt8 := 58
def CONTROL_PLANE_SO_MARK : UInt32 := 0x100
def ROUTE_OUTBOUND_DIRECT : UInt8 := 0
def ROUTE_OUTBOUND_BLOCK : UInt8 := 1
def TASK_COMM_LEN : Nat := 16
def IP_VERSION_4_MATCH : UInt32 := 1
def IP_VERSION_6_MATCH : UInt32 := 2

/-! ## Records -/

/-- `ParsedPacket`, without what only the redirect and the LAN hooks read. The ports
are in network order. -/
structure ParsedPacket where
  eth_src : List UInt8
  sip : BpfIpBytes
  dip : BpfIpBytes
  sport : UInt16
  dport : UInt16
  l4proto : UInt8
  dscp : UInt8
  tcp_flags : UInt8
  is_ipv4 : UInt8
  deriving DecidableEq

structure BpfTuplesKey where
  sip : BpfIpBytes
  dip : BpfIpBytes
  sport : UInt16
  dport : UInt16
  l4proto : UInt8
  deriving DecidableEq

structure BpfRoutingResult where
  mark : UInt32
  must : UInt8
  mac : List UInt8
  outbound : UInt8
  pname : List UInt8
  pid : UInt32
  dscp : UInt8
  deriving DecidableEq

structure BpfPidPname where
  pid : UInt32
  comm : List UInt8
  pname : List UInt8
  deriving DecidableEq

structure BpfOutboundConnectivityQuery where
  outbound : UInt8
  l4proto : UInt8
  ipversion : UInt8
  deriving DecidableEq

structure BpfUdpConnState where
  is_wan_ingress_direction : UInt8

/-- The fields of `__sk_buff` that the hook reads, its socket cookie, and what
`parse_transport` makes of it. -/
structure Skb where
  ingress_ifindex : UInt32
  mark : UInt32
  cookie : UInt64
  transport : Option ParsedPacket

/-- The answers a packet gets from everything but `routing_tuples_map`. -/
structure Env where
  kernel : KernelMaps
  cookie_pid_map : UInt64 → Option BpfPidPname
  outbound_connectivity_map : BpfOutboundConnectivityQuery → Option UInt32
  control_plane_pid : UInt32
  /-- whether `bpf_map_update_elem` on `routing_tuples_map` returns 0 -/
  update_succeeds : Bool
  refresh_udp_conn_state : BpfTuplesKey → Bool → Option BpfUdpConnState
  redirect_to_control_plane : Skb → UInt32 → ParsedPacket → BpfTuplesKey → Bool → Int

abbrev RoutingTuples := BpfTuplesKey → Option BpfRoutingResult

/-- The action, the mark of the buffer and the map after the hook has run. -/
structure Verdict where
  action : Int
  mark : UInt32
  routing_tuples_map : RoutingTuples

/-! ## Helpers -/

def chain_next : Int := TCX_NEXT

/-- Both `to_be` and `from_be`, on a little-endian host. -/
def swap_bytes (x : UInt16) : UInt16 := (x <<< 8) ||| (x >>> 8)

def tcp_syn (flags : UInt8) : Bool := flags &&& 0x02 != 0
def tcp_ack (flags : UInt8) : Bool := flags &&& 0x10 != 0

def is_new_tcp (info : ParsedPacket) : Bool :=
  info.l4proto = IPPROTO_TCP && tcp_syn info.tcp_flags && !tcp_ack info.tcp_flags

def is_dns_udp (info : ParsedPacket) : Bool :=
  info.l4proto = IPPROTO_UDP && info.dport = swap_bytes 53

def build_tuples (info : ParsedPacket) : BpfTuplesKey where
  sip := info.sip
  dip := info.dip
  sport := info.sport
  dport := info.dport
  l4proto := info.l4proto

def udp_state_unavailable_action : Int := TC_ACT_SHOT

def physical_wan_control_plane_passthrough_action : Int := chain_next

def comm (name : String) : List UInt8 :=
  let bytes := name.toList.map fun c => c.toNat.toUInt8
  bytes ++ List.replicate (TASK_COMM_LEN - bytes.length) 0

def LATENCY_PROBE_HELPER_COMM : List UInt8 := comm "daed-latency"
def GEODATA_PREPARE_HELPER_COMM : List UInt8 := comm "daed-geodata"
def SUBSCRIPTION_PREPARE_HELPER_COMM : List UInt8 := comm "daed-subscript"

def pid_pname_for_packet (env : Env) (skb : Skb) : Option BpfPidPname :=
  env.cookie_pid_map skb.cookie

def pid_pname_is_control_helper (pid_pname : BpfPidPname) : Bool :=
  pid_pname.comm = LATENCY_PROBE_HELPER_COMM
    || pid_pname.comm = GEODATA_PREPARE_HELPER_COMM
    || pid_pname.comm = SUBSCRIPTION_PREPARE_HELPER_COMM

def pid_is_control_plane (env : Env) (skb : Skb) (pid_pname : Option BpfPidPname) : Bool :=
  let marked := skb.mark &&& CONTROL_PLANE_SO_MARK = CONTROL_PLANE_SO_MARK
  match pid_pname with
  | some pid_pname =>
    if env.control_plane_pid != 0 && pid_pname.pid = env.control_plane_pid then true
    -- the mark alone is not enough for a process that is known
    else if marked then pid_pname_is_control_helper pid_pname
    else false
  | none => marked

def route_params_from_packet (info : ParsedPacket) (is_wan : Bool)
    (pid_pname : Option BpfPidPname) : RouteParams where
  l4proto_type := if info.l4proto = IPPROTO_TCP then L4_PROTO_TCP_MATCH else L4_PROTO_UDP_MATCH
  ipversion_type := if info.is_ipv4 != 0 then IP_VERSION_4_MATCH else IP_VERSION_6_MATCH
  is_wan := is_wan.toUInt32
  pname := (pid_pname.map BpfPidPname.pname).getD (List.replicate TASK_COMM_LEN 0)
  dscp := info.dscp.toUInt32
  h_sport := swap_bytes info.sport
  h_dport := swap_bytes info.dport
  saddr := info.sip
  daddr := info.dip
  mac := List.replicate 10 0 ++ info.eth_src

def outbound_alive (env : Env) (info : ParsedPacket) (outbound : UInt8) : Bool :=
  let query : BpfOutboundConnectivityQuery :=
    { outbound, l4proto := info.l4proto, ipversion := if info.is_ipv4 != 0 then 4 else 6 }
  match env.outbound_connectivity_map query with
  -- an outbound nobody has probed counts as alive
  | none => true
  | some alive => alive != 0

/-! ## Saving a decision -/

def routing_result (info : ParsedPacket) (outbound : UInt8) (mark : UInt32) (must : Bool)
    (pid_pname : Option BpfPidPname) : BpfRoutingResult where
  mark := mark
  must := must.toUInt8
  mac := info.eth_src
  outbound := outbound
  pname := (pid_pname.map BpfPidPname.pname).getD (List.replicate TASK_COMM_LEN 0)
  pid := (pid_pname.map BpfPidPname.pid).getD 0
  dscp := info.dscp

/-- `save_routing_result`: whether the update succeeded, and the map after it. -/
def save_routing_result (env : Env) (key : BpfTuplesKey) (info : ParsedPacket) (outbound : UInt8)
    (mark : UInt32) (must : Bool) (pid_pname : Option BpfPidPname) (tuples : RoutingTuples) :
    Bool × RoutingTuples :=
  if env.update_succeeds then
    (true, Function.update tuples key (some (routing_result info outbound mark must pid_pname)))
  else (false, tuples)

/-- `(route_result & 0xff) as u8`. -/
def outbound_of (route_result : Int) : UInt8 := UInt8.ofNat route_result.toNat

/-- `(route_result >> 8) as u32`. -/
def mark_of (route_result : Int) : UInt32 := UInt32.ofNat (route_result.toNat >>> 8)

/-- `((route_result >> 40) & 1) != 0`. -/
def must_of (route_result : Int) : Bool := (route_result.toNat >>> 40) &&& 1 != 0

/-! ## The hook -/

/-- The decision for a packet that opens something: what `route` says, saved unless
it is plain direct. An action ends the hook. -/
def route_egress (env : Env) (info : ParsedPacket) (key : BpfTuplesKey)
    (pid_pname : Option BpfPidPname) (tuples : RoutingTuples) :
    Except Int (UInt8 × UInt32) × RoutingTuples :=
  let route_result := route env.kernel (route_params_from_packet info true pid_pname)
  if route_result < 0 then (.error TC_ACT_SHOT, tuples)
  else
    let outbound := outbound_of route_result
    let mark := mark_of route_result
    let must := must_of route_result
    -- plain direct leaves the map as it is, an entry of an earlier connection included
    if outbound != ROUTE_OUTBOUND_DIRECT || mark != 0 || must then
      match save_routing_result env key info outbound mark must pid_pname tuples with
      | (false, tuples) => (.error TC_ACT_SHOT, tuples)
      | (true, tuples) => (.ok (outbound, mark), tuples)
    else (.ok (outbound, mark), tuples)

/-- The action that the UDP connection state asks for, if any. -/
def udp_state_action (env : Env) (info : ParsedPacket) (key : BpfTuplesKey) : Option Int :=
  if info.l4proto = IPPROTO_UDP then
    match env.refresh_udp_conn_state key false with
    | none => some udp_state_unavailable_action
    | some state => if state.is_wan_ingress_direction != 0 then some chain_next else none
  else none

/-- The decision for a packet: looked up after the SYN, made anew otherwise. -/
def egress_decision (env : Env) (info : ParsedPacket) (key : BpfTuplesKey)
    (pid_pname : Option BpfPidPname) (tuples : RoutingTuples) :
    Except Int (UInt8 × UInt32) × RoutingTuples :=
  if info.l4proto = IPPROTO_TCP && !is_new_tcp info then
    match tuples key with
    -- no entry: the SYN was plain direct, or was never seen
    | none => (.error chain_next, tuples)
    | some result => (.ok (result.outbound, result.mark), tuples)
  else
    match udp_state_action env info key with
    | some action => (.error action, tuples)
    | none => route_egress env info key pid_pname tuples

/-- What is done with a packet of a given outbound and mark. -/
def handle_egress (env : Env) (skb : Skb) (link_h_len : UInt32) (info : ParsedPacket)
    (key : BpfTuplesKey) (outbound : UInt8) (mark : UInt32) (tuples : RoutingTuples) : Verdict :=
  -- the only way out that writes the mark of the buffer
  if outbound = ROUTE_OUTBOUND_DIRECT && mark = 0 then ⟨chain_next, mark, tuples⟩
  else if outbound = ROUTE_OUTBOUND_BLOCK then ⟨TC_ACT_SHOT, skb.mark, tuples⟩
  else if !outbound_alive env info outbound && !is_dns_udp info then ⟨TC_ACT_SHOT, skb.mark, tuples⟩
  else ⟨env.redirect_to_control_plane skb link_h_len info key true, skb.mark, tuples⟩

def wan_egress (env : Env) (skb : Skb) (link_h_len : UInt32) (tuples : RoutingTuples) : Verdict :=
  if skb.ingress_ifindex != NOWHERE_IFINDEX then ⟨chain_next, skb.mark, tuples⟩
  else
    match skb.transport with
    | none => ⟨chain_next, skb.mark, tuples⟩
    | some info =>
      if info.l4proto = IPPROTO_ICMPV6 then ⟨chain_next, skb.mark, tuples⟩
      else
        let key := build_tuples info
        let pid_pname := pid_pname_for_packet env skb
        if pid_is_control_plane env skb pid_pname then
          ⟨physical_wan_control_plane_passthrough_action, skb.mark, tuples⟩
        else
          match egress_decision env info key pid_pname tuples with
          | (.error action, tuples) => ⟨action, skb.mark, tuples⟩
          | (.ok (outbound, mark), tuples) =>
            handle_egress env skb link_h_len info key outbound mark tuples

end DaeNext.EbpfTproxy
