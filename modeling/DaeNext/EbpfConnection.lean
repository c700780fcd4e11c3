/-
The packets of one TCP connection at `wan_egress`.

The hook routes a SYN and saves the decision, but not when it is plain direct: the
packets after the SYN then find no entry and pass. That relies on there being no
entry. A tuple that is used again after its rules changed may still have the entry of
its earlier connection, and the SYN does not remove it.

`Run` is any sequence of packets of one tuple, each with its own answers from the
other maps, and anything happening to the entries of other tuples in between.
`SynRecorded` says when the map after a SYN stands for its decision; a run in which
every SYN meets it keeps the decision of its last SYN.
-/
import DaeNext.EbpfTproxy

set_option autoImplicit false

namespace DaeNext.EbpfConnection

open EbpfRouting EbpfTproxy

/-- A TCP packet of the tuple that this host sends, and not its control plane. -/
structure TcpPacket (key : BpfTuplesKey) where
  env : Env
  skb : Skb
  link_h_len : UInt32
  info : ParsedPacket
  ingress : skb.ingress_ifindex = NOWHERE_IFINDEX
  transport : skb.transport = some info
  tcp : info.l4proto = IPPROTO_TCP
  tuple : build_tuples info = key
  not_control_plane : pid_is_control_plane env skb (pid_pname_for_packet env skb) = false

variable {key : BpfTuplesKey}

section

variable (packet : TcpPacket key) (tuples : RoutingTuples)

def TcpPacket.run : Verdict := wan_egress packet.env packet.skb packet.link_h_len tuples

def TcpPacket.route_result : Int :=
  route packet.env.kernel
    (route_params_from_packet packet.info true (pid_pname_for_packet packet.env packet.skb))

/-- Handled as `outbound` and `mark` ask for. -/
def TcpPacket.handle (outbound : UInt8) (mark : UInt32) : Verdict :=
  handle_egress packet.env packet.skb packet.link_h_len packet.info key outbound mark tuples

/-- The decision that is not saved. -/
def plain_direct (route_result : Int) : Bool :=
  outbound_of route_result = ROUTE_OUTBOUND_DIRECT && mark_of route_result = 0
    && !must_of route_result

/-- A SYN whose decision the map has afterwards: a plain direct one finds no entry of
another decision, any other one is saved. -/
def SynRecorded : Prop :=
  is_new_tcp packet.info = true → 0 ≤ packet.route_result →
    if plain_direct packet.route_result then
      ∀ entry, tuples key = some entry → entry.outbound = ROUTE_OUTBOUND_DIRECT ∧ entry.mark = 0
    else packet.env.update_succeeds = true

/-- The packet is handled with the outbound and mark of a result of `route`; direct
with mark 0 is passing on. -/
def KeepsDecision (route_result : Int) : Prop :=
  if outbound_of route_result = ROUTE_OUTBOUND_DIRECT ∧ mark_of route_result = 0 then
    (packet.run tuples).action = chain_next
  else packet.run tuples = packet.handle tuples (outbound_of route_result) (mark_of route_result)

end

/-- The map and the result of `route` for the last SYN, along any packets of the tuple
that meet a condition. -/
inductive Run (key : BpfTuplesKey) (Meets : TcpPacket key → RoutingTuples → Prop) :
    RoutingTuples → Option Int → Prop
  | start (tuples : RoutingTuples) : Run key Meets tuples none
  | packet {tuples : RoutingTuples} {last : Option Int} (h : Run key Meets tuples last)
      (packet : TcpPacket key) (hmeets : Meets packet tuples) :
      Run key Meets (packet.run tuples).routing_tuples_map
        (if is_new_tcp packet.info then some packet.route_result else last)
  | other_tuples {tuples : RoutingTuples} {last : Option Int} (h : Run key Meets tuples last)
      (tuples' : RoutingTuples) (hkey : tuples' key = tuples key) : Run key Meets tuples' last

/-! ## One packet -/

section

variable (packet : TcpPacket key) (tuples : RoutingTuples)

theorem run_eq :
    packet.run tuples
      = match egress_decision packet.env packet.info key
          (pid_pname_for_packet packet.env packet.skb) tuples with
        | (.error action, tuples) => ⟨action, packet.skb.mark, tuples⟩
        | (.ok (outbound, mark), tuples) => packet.handle tuples outbound mark := by
  have hicmp : packet.info.l4proto ≠ IPPROTO_ICMPV6 := by
    rw [packet.tcp]
    decide
  have hlocal : ¬ (packet.skb.ingress_ifindex != NOWHERE_IFINDEX) = true := by
    rw [packet.ingress]
    decide
  -- the guards fall one by one by the fields of `packet`
  unfold TcpPacket.run wan_egress
  rw [if_neg hlocal, packet.transport]
  dsimp only
  rw [if_neg hicmp, packet.not_control_plane, if_neg Bool.false_ne_true, packet.tuple]
  rfl

theorem handle_tuples (outbound : UInt8) (mark : UInt32) :
    (packet.handle tuples outbound mark).routing_tuples_map = tuples := by
  unfold TcpPacket.handle handle_egress
  split_ifs <;> rfl

theorem run_of_not_syn (hsyn : is_new_tcp packet.info = false) :
    packet.run tuples
      = match tuples key with
        | none => ⟨chain_next, packet.skb.mark, tuples⟩
        | some entry => packet.handle tuples entry.outbound entry.mark := by
  have hlookup : (decide (packet.info.l4proto = IPPROTO_TCP) && !is_new_tcp packet.info) = true := by
    rw [hsyn, packet.tcp]
    decide
  rw [run_eq, egress_decision, if_pos hlookup]
  cases tuples key <;> rfl

theorem run_tuples_of_not_syn (hsyn : is_new_tcp packet.info = false) :
    (packet.run tuples).routing_tuples_map = tuples := by
  rw [run_of_not_syn packet tuples hsyn]
  cases tuples key with
  | none => rfl
  | some entry => exact handle_tuples packet tuples _ _

theorem run_tuples_of_syn (hsyn : is_new_tcp packet.info = true) :
    (packet.run tuples).routing_tuples_map
      = (route_egress packet.env packet.info key
          (pid_pname_for_packet packet.env packet.skb) tuples).2 := by
  have hroute : ¬ (decide (packet.info.l4proto = IPPROTO_TCP) && !is_new_tcp packet.info) = true := by
    rw [hsyn]
    simp
  -- the UDP state does not concern a TCP packet
  have hudp : udp_state_action packet.env packet.info key = none := by
    rw [udp_state_action, packet.tcp]
    rfl
  rw [run_eq, egress_decision, if_neg hroute, hudp]
  cases hdecision : route_egress packet.env packet.info key
      (pid_pname_for_packet packet.env packet.skb) tuples with
  | mk decision after =>
    cases decision with
    | error action => rfl
    | ok pair => exact handle_tuples packet after _ _

end

/-! ## Runs -/

/-- The entry stands for a result of `route`. -/
def Recorded (entry : Option BpfRoutingResult) (route_result : Int) : Prop :=
  match entry with
  | none => outbound_of route_result = ROUTE_OUTBOUND_DIRECT ∧ mark_of route_result = 0
  | some entry => entry.outbound = outbound_of route_result ∧ entry.mark = mark_of route_result

section

theorem recorded_of_syn {packet : TcpPacket key} {tuples : RoutingTuples}
    (hsyn : is_new_tcp packet.info = true) (hrecorded : SynRecorded packet tuples)
    (hroute : 0 ≤ packet.route_result) :
    Recorded ((packet.run tuples).routing_tuples_map key) packet.route_result := by
  have hcond := hrecorded hsyn hroute
  rw [run_tuples_of_syn packet tuples hsyn, route_egress]
  -- `route_result` stands in the definition written out
  change Recorded ((if packet.route_result < 0 then _ else _ : _ × RoutingTuples).2 key) _
  rw [if_neg (by omega)]
  change Recorded ((if (outbound_of packet.route_result != ROUTE_OUTBOUND_DIRECT
    || mark_of packet.route_result != 0 || must_of packet.route_result) = true
      then _ else _ : _ × RoutingTuples).2 key) _
  by_cases hplain : plain_direct packet.route_result = true
  · -- not saved: what is there has to be direct already
    rw [if_pos hplain] at hcond
    simp only [plain_direct, Bool.and_eq_true, decide_eq_true_eq, Bool.not_eq_true'] at hplain
    obtain ⟨⟨hdirect, hmark⟩, hmust⟩ := hplain
    rw [if_neg (by simp [hdirect, hmark, hmust])]
    change Recorded (tuples key) _
    cases hentry : tuples key with
    | none => exact ⟨hdirect, hmark⟩
    | some entry =>
      obtain ⟨hout, hzero⟩ := hcond entry hentry
      exact ⟨hout.trans hdirect.symm, hzero.trans hmark.symm⟩
  · rw [if_neg hplain] at hcond
    -- the condition of the save is the negation of `plain_direct`
    have hsave : (outbound_of packet.route_result != ROUTE_OUTBOUND_DIRECT
        || mark_of packet.route_result != 0 || must_of packet.route_result) = true := by
      by_contra hnot
      simp only [Bool.or_eq_true, bne_iff_ne, ne_eq, not_or, not_not, Bool.not_eq_true] at hnot
      exact hplain (by simp [plain_direct, hnot.1.1, hnot.1.2, hnot.2])
    rw [if_pos hsave, save_routing_result, if_pos hcond]
    dsimp only
    rw [Function.update_self]
    exact ⟨rfl, rfl⟩

/-- The run lemma: the entry of the tuple stands for its last SYN. -/
theorem Run.recorded {tuples : RoutingTuples} {last : Option Int}
    (hrun : Run key SynRecorded tuples last) : ∀ r, last = some r → 0 ≤ r → Recorded (tuples key) r := by
  induction hrun with
  | start tuples =>
    nofun
  | @packet tuples last h packet hmeets ih =>
    intro r hlast hr
    -- a SYN writes its own decision, any other packet leaves the map
    by_cases hsyn : is_new_tcp packet.info = true
    · rw [if_pos hsyn] at hlast
      cases hlast
      exact recorded_of_syn hsyn hmeets hr
    · rw [if_neg hsyn] at hlast
      rw [run_tuples_of_not_syn packet tuples (Bool.eq_false_iff.mpr hsyn)]
      exact ih r hlast hr
  | other_tuples h tuples' hkey ih =>
    rw [hkey]
    exact ih

/-- **A connection keeps the decision of its SYN**, in every run whose SYNs are
recorded. -/
theorem non_syn_keeps_decision {tuples : RoutingTuples} {last : Option Int}
    (hrun : Run key SynRecorded tuples last) (packet : TcpPacket key)
    (hsyn : is_new_tcp packet.info = false) {r : Int} (hlast : last = some r) (hr : 0 ≤ r) :
    KeepsDecision packet tuples r := by
  have hrecorded := hrun.recorded r hlast hr
  unfold KeepsDecision
  rw [run_of_not_syn packet tuples hsyn]
  cases hentry : tuples key with
  | none =>
    rw [hentry] at hrecorded
    exact (if_pos hrecorded).mpr rfl
  | some entry =>
    rw [hentry] at hrecorded
    dsimp only
    rw [hrecorded.1, hrecorded.2]
    split_ifs with hdirect
    · rw [hdirect.1, hdirect.2]
      rfl
    · rfl

end

/-! ## A tuple used twice -/

def fallback_maps (outbound : UInt8) : KernelMaps where
  routing_map index :=
    if index = 0 then
      some { value := [], not := 0, kind := RoutingPlan.MATCH_TYPE_FALLBACK, outbound, must := 0, mark := 0 }
    else none
  lpm_array_map _ := none
  domain_routing_map _ := none

def local_packet (tcp_flags : UInt8) : ParsedPacket where
  eth_src := []
  sip := [10, 0, 0, 1]
  dip := [10, 0, 0, 2]
  sport := 40000
  dport := 443
  l4proto := IPPROTO_TCP
  dscp := 0
  tcp_flags := tcp_flags
  is_ipv4 := 1

/-- A packet of that tuple under these rules, with redirects answered by 7. -/
def tcp_packet (outbound tcp_flags : UInt8) : TcpPacket (build_tuples (local_packet 0)) where
  env :=
    { kernel := fallback_maps outbound, cookie_pid_map := fun _ => none,
      outbound_connectivity_map := fun _ => none, control_plane_pid := 0, update_succeeds := true,
      refresh_udp_conn_state := fun _ _ => none,
      redirect_to_control_plane := fun _ _ _ _ _ => 7 }
  skb := { ingress_ifindex := 0, mark := 0, cookie := 0, transport := some (local_packet tcp_flags) }
  link_h_len := 14
  info := local_packet tcp_flags
  ingress := rfl
  transport := rfl
  tcp := rfl
  tuple := rfl
  not_control_plane := by simp [pid_is_control_plane, pid_pname_for_packet, CONTROL_PLANE_SO_MARK]

def syn_flags : UInt8 := 0x02
def ack_flags : UInt8 := 0x10

/-- The map after a SYN that went to outbound 2. -/
def proxied : RoutingTuples := ((tcp_packet 2 syn_flags).run fun _ => none).routing_tuples_map

theorem proxied_run {Meets : TcpPacket (build_tuples (local_packet 0)) → RoutingTuples → Prop}
    (hmeets : Meets (tcp_packet 2 syn_flags) fun _ => none) :
    Run _ Meets proxied (some (tcp_packet 2 syn_flags).route_result) :=
  Run.packet (Run.start fun _ => none) (tcp_packet 2 syn_flags) hmeets

theorem non_syn_keeps_decision_proxied :
    KeepsDecision (tcp_packet 0 ack_flags) proxied (tcp_packet 2 syn_flags).route_result
      ∧ ((tcp_packet 0 ack_flags).run proxied).action = 7 :=
  ⟨non_syn_keeps_decision
      (proxied_run fun _ _ => (if_neg (by decide +kernel)).mpr rfl)
      (tcp_packet 0 ack_flags) (by decide) rfl (by decide +kernel), by decide +kernel⟩

/-- The rules then send the tuple direct. Its next SYN passes, and the packets after it
still go to the control plane. -/
theorem reused_tuple_keeps_old_decision :
    let after := ((tcp_packet 0 syn_flags).run proxied).routing_tuples_map
    let route_result := (tcp_packet 0 syn_flags).route_result
    Run (build_tuples (local_packet 0)) (fun _ _ => True) after (some route_result)
      ∧ 0 ≤ route_result
      ∧ outbound_of route_result = ROUTE_OUTBOUND_DIRECT ∧ mark_of route_result = 0
      ∧ is_new_tcp (tcp_packet 0 ack_flags).info = false
      ∧ ((tcp_packet 0 ack_flags).run after).action = 7
      ∧ ¬ KeepsDecision (tcp_packet 0 ack_flags) after route_result := by
  have haction : ((tcp_packet 0 ack_flags).run
      ((tcp_packet 0 syn_flags).run proxied).routing_tuples_map).action = 7 := by decide +kernel
  have hdirect : outbound_of (tcp_packet 0 syn_flags).route_result = ROUTE_OUTBOUND_DIRECT
      ∧ mark_of (tcp_packet 0 syn_flags).route_result = 0 := by decide +kernel
  refine ⟨?_, by decide +kernel, hdirect.1, hdirect.2, by decide, haction, fun hkeeps => ?_⟩
  · exact Run.packet (proxied_run trivial) (tcp_packet 0 syn_flags) trivial
  · rw [KeepsDecision, if_pos hdirect, haction] at hkeeps
    exact absurd hkeeps (by decide)

end DaeNext.EbpfConnection
