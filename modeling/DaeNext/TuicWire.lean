/-
UDP packets of TUIC.

A packet carries its address as octets, and only the first fragment carries one. What was
encoded is read back (`decode_encode`), except for the text of the target: decoding writes
the address in its own form, so `example.com:053` comes back as `example.com:53`.
-/
import DaeNext.LibVec
import DaeNext.Socks5Address

set_option autoImplicit false

namespace DaeNext.Tuic

open Fallible Net Text List

def TUIC_VERSION5 : UInt8 := 0x05
def TUIC_PACKET_TYPE : UInt8 := 0x02
def TUIC_MAX_UDP_PAYLOAD_LENGTH : Nat := 65535
/-- Fixed packet fields plus the largest address (255-byte domain and port). -/
def TUIC_MAX_UDP_HEADER_LENGTH : Nat := 10 + 1 + 1 + 255 + 2

def ATYP_DOMAIN_NAME : UInt8 := 0
def ATYP_IPV4 : UInt8 := 1
def ATYP_IPV6 : UInt8 := 2
def ATYP_NONE : UInt8 := 255

def bad_wire (message : String) : OutboundError := .BadTuic message

structure TuicUdpPacket where
  assoc_id : UInt16
  packet_id : UInt16
  fragment_count : UInt8
  fragment_id : UInt8
  target : Option String
  payload : List UInt8
deriving DecidableEq, Repr

structure TuicAddress where
  atyp : UInt8
  addr : List UInt8
  port : UInt16
  target : String
deriving DecidableEq, Repr

/-! ## Addresses -/

def parse_port (input : String) : Except OutboundError UInt16 :=
  match Text.from_str_radix 10 65535 input with
  | .ok port => .ok (UInt16.ofNat port)
  | .error err =>
    let err := err.to_string
    .error (bad_wire s!"invalid TUIC target port: {err}")

def split_host_port (target : String) : Except OutboundError (String × UInt16) :=
  match Text.strip_leading "[" target with
  | some rest =>
    match Text.split_once_text "]:" rest with
    | none => .error (bad_wire s!"invalid TUIC target: {target}")
    | some (host, port) => do
      let port ← parse_port port
      pure (host, port)
  | none =>
    match Text.rsplit_once ':' target with
    | none => .error (bad_wire s!"invalid TUIC target: {target}")
    | some (host, port) => do
      let port ← parse_port port
      pure (host, port)

def domain_address (host : String) (port : UInt16) : Except OutboundError TuicAddress :=
  let bytes := Text.as_bytes host
  if bytes.length = 0 ∨ 255 < bytes.length then
    .error (bad_wire "invalid TUIC domain address length")
  else
    .ok { atyp := ATYP_DOMAIN_NAME
          addr := UInt8.ofNat bytes.length :: bytes
          port
          target := s!"{host}:{port}" }

def build_address (target : String) : Except OutboundError TuicAddress := do
  let (host, port) ← split_host_port target
  match Net.ipv4_from_str host with
  | some ipv4 =>
    pure { atyp := ATYP_IPV4
           addr := Net.ipv4_octets ipv4
           port
           target := s!"{Net.ipv4_to_string ipv4}:{port}" }
  | none =>
    match Net.ipv6_from_str host with
    | some ipv6 =>
      pure { atyp := ATYP_IPV6
             addr := Net.ipv6_octets ipv6
             port
             target := s!"[{Net.ipv6_to_string ipv6}]:{port}" }
    | none => domain_address host port

def target_from_address (atyp : UInt8) (addr : List UInt8) (port : UInt16) :
    Except OutboundError String :=
  if atyp = ATYP_IPV4 then
    match addr with
    | [a, b, c, d] => .ok s!"{a}.{b}.{c}.{d}:{port}"
    | _ => .error (bad_wire "invalid TUIC IPv4 address length")
  else if atyp = ATYP_IPV6 then
    if addr.length = 16 then .ok s!"[{Net.ipv6_to_string (Net.ipv6_from_octets addr)}]:{port}"
    else .error (bad_wire "invalid TUIC IPv6 address length")
  else if atyp = ATYP_DOMAIN_NAME then
    match addr with
    | [] => .error (bad_wire "invalid TUIC domain address")
    | _ :: bytes =>
      match Text.from_utf8 bytes with
      | .ok domain => .ok s!"{domain}:{port}"
      | .error err =>
        let err := err.to_string
        .error (bad_wire s!"TUIC domain utf8: {err}")
  else .error (bad_wire s!"unsupported TUIC address type: {atyp}")

/-- The octets of the address at `cursor`, by its type. -/
def address_octets (input : List UInt8) (atyp : UInt8) (cursor : Nat) :
    Except OutboundError (List UInt8) :=
  if atyp = ATYP_IPV4 then
    if input.length < cursor + 4 then .error (bad_wire "short TUIC IPv4 address")
    else .ok ((input.drop cursor).take 4)
  else if atyp = ATYP_IPV6 then
    if input.length < cursor + 16 then .error (bad_wire "short TUIC IPv6 address")
    else .ok ((input.drop cursor).take 16)
  else if atyp = ATYP_DOMAIN_NAME then
    match input[cursor]? with
    | none => .error (bad_wire "missing TUIC domain length")
    | some len =>
      let domain_len := len.toNat
      if domain_len = 0 ∨ input.length < cursor + 1 + domain_len then
        .error (bad_wire "invalid TUIC domain length")
      else .ok ((input.drop cursor).take (1 + domain_len))
  else .error (bad_wire s!"unsupported TUIC address type: {atyp}")

def no_address : TuicAddress := { atyp := ATYP_NONE, addr := [], port := 0, target := "" }

def read_address (input : List UInt8) (offset : Nat) : Except OutboundError (TuicAddress × Nat) :=
  match input[offset]? with
  | none => .error (bad_wire "missing TUIC address type")
  | some atyp =>
    if atyp = ATYP_NONE then .ok (no_address, offset + 1)
    else do
      let addr ← address_octets input atyp (offset + 1)
      let cursor := offset + 1 + addr.length
      if input.length < cursor + 2 then throw (bad_wire "missing TUIC address port")
      let port := UInt16.ofNat (Net.from_be_bytes ((input.drop cursor).take 2))
      let target ← target_from_address atyp addr port
      pure ({ atyp, addr, port, target }, cursor + 2)

namespace TuicAddress

def encoded_len (self : TuicAddress) : Nat :=
  if self.atyp = ATYP_NONE then 1 else 1 + self.addr.length + 2

/-- The octets that `write_to` appends. -/
def write_to (self : TuicAddress) : List UInt8 :=
  if self.atyp = ATYP_NONE then [self.atyp]
  else self.atyp :: (self.addr ++ Net.be_bytes 2 self.port.toBitVec)

end TuicAddress

def address_for_optional_target : Option String → Except OutboundError TuicAddress
  | some target => build_address target
  | none => .ok no_address

/-! ## Packets -/

def validate_command_head (input : List UInt8) (command_type : UInt8) (command_name : String) :
    Except OutboundError Unit := do
  if input.head? ≠ some TUIC_VERSION5 then
    throw (bad_wire s!"unsupported TUIC {command_name} version")
  if input[1]? ≠ some command_type then
    throw (bad_wire s!"bad TUIC {command_name} command type")

/-- The target goes with the first fragment and with no other. -/
def validate_fragment_target (fragment_id : UInt8) (target : Option String) :
    Except OutboundError Unit :=
  if fragment_id = 0 then
    match target with
    | none => .error (bad_wire "TUIC UDP first fragment requires a target/source address")
    | some target =>
      if target = "" then .error (bad_wire "TUIC UDP first fragment address cannot be empty")
      else .ok ()
  else if target.isSome then
    .error (bad_wire "TUIC UDP non-first fragment requires the None address type")
  else .ok ()

def validate_udp_packet_fields (fragment_count fragment_id : UInt8) (target : Option String)
    (payload : List UInt8) : Except OutboundError Unit := do
  if payload = [] ∨ TUIC_MAX_UDP_PAYLOAD_LENGTH < payload.length then
    throw (bad_wire "invalid TUIC UDP payload length")
  if fragment_count = 0 ∨ fragment_count ≤ fragment_id then
    throw (bad_wire
      s!"invalid TUIC UDP fragment fields: fragment_id={fragment_id} fragment_count={fragment_count}")
  validate_fragment_target fragment_id target

namespace TuicUdpPacket

def from_parts (assoc_id packet_id : UInt16) (fragment_count fragment_id : UInt8)
    (target : Option String) (payload : List UInt8) : Except OutboundError TuicUdpPacket := do
  validate_udp_packet_fields fragment_count fragment_id target payload
  pure { assoc_id, packet_id, fragment_count, fragment_id, target, payload }

def new (assoc_id packet_id : UInt16) (target : String) (payload : List UInt8) :
    Except OutboundError TuicUdpPacket :=
  from_parts assoc_id packet_id 1 0 (some target) payload

def encoded_len (self : TuicUdpPacket) : Except OutboundError Nat := do
  let address ← address_for_optional_target self.target
  pure (10 + address.encoded_len + self.payload.length)

end TuicUdpPacket

def tuic_udp_payload_wire_len (target : String) (payload : List UInt8) :
    Except OutboundError Nat := do
  validate_udp_packet_fields 1 0 (some target) payload
  let address ← address_for_optional_target (some target)
  pure (10 + address.encoded_len + payload.length)

def encode_tuic_udp_payload (assoc_id packet_id : UInt16) (fragment_count fragment_id : UInt8)
    (target : Option String) (payload : List UInt8) : Except OutboundError (List UInt8) := do
  validate_udp_packet_fields fragment_count fragment_id target payload
  let address ← address_for_optional_target target
  pure ([TUIC_VERSION5, TUIC_PACKET_TYPE] ++ Net.be_bytes 2 assoc_id.toBitVec
    ++ Net.be_bytes 2 packet_id.toBitVec ++ [fragment_count, fragment_id]
    ++ Net.be_bytes 2 (UInt16.ofNat payload.length).toBitVec ++ address.write_to ++ payload)

def encode_tuic_udp_packet (packet : TuicUdpPacket) : Except OutboundError (List UInt8) :=
  encode_tuic_udp_payload packet.assoc_id packet.packet_id packet.fragment_count packet.fragment_id
    packet.target packet.payload

def decode_tuic_udp_packet (input : List UInt8) : Except OutboundError TuicUdpPacket := do
  if input.length < 10 then throw (bad_wire "short TUIC packet frame")
  validate_command_head input TUIC_PACKET_TYPE "packet"
  let assoc_id := UInt16.ofNat (Net.from_be_bytes ((input.drop 2).take 2))
  let packet_id := UInt16.ofNat (Net.from_be_bytes ((input.drop 4).take 2))
  let fragment_count := input.getD 6 0
  let fragment_id := input.getD 7 0
  let size := Net.from_be_bytes ((input.drop 8).take 2)
  let (address, offset) ← read_address input 10
  if 2 ^ 64 ≤ offset + size then throw (bad_wire "TUIC packet payload length overflow")
  let payload_end := offset + size
  if input.length ≠ payload_end then throw (bad_wire "TUIC packet payload length mismatch")
  let target := if address.atyp ≠ ATYP_NONE then some address.target else none
  TuicUdpPacket.from_parts assoc_id packet_id fragment_count fragment_id target
    ((input.drop offset).take size)

def fragment_tuic_udp_packet (packet : TuicUdpPacket) (packet_id : UInt16) (max_wire_size : Nat) :
    Except OutboundError (List TuicUdpPacket) := do
  if packet.fragment_count ≠ 1 ∨ packet.fragment_id ≠ 0 ∨ packet.target.isNone then
    throw (bad_wire "only a complete TUIC UDP packet can be fragmented")
  let encoded_len ← packet.encoded_len
  if encoded_len ≤ max_wire_size then
    throw (bad_wire s!"TUIC UDP packet fits max wire size {max_wire_size} without fragmentation")
  -- the encoded length is a sum with the payload's in it, so this does not underflow
  let first_header_len := encoded_len - packet.payload.length
  if max_wire_size < first_header_len then
    throw (bad_wire s!"TUIC UDP header is larger than max wire size {max_wire_size}")
  let max_fragment_payload := max_wire_size - first_header_len
  if max_fragment_payload = 0 then
    throw (bad_wire s!"TUIC UDP header leaves no payload at max wire size {max_wire_size}")
  let fragment_count := Vec.div_ceil packet.payload.length max_fragment_payload
  if 255 < fragment_count then throw (bad_wire "TUIC UDP fragment count exceeds 255")
  if fragment_count ≤ 1 then
    throw (bad_wire "TUIC UDP fragmentation did not produce multiple fragments")
  (Vec.chunks max_fragment_payload packet.payload).zipIdx.mapM fun (payload, fragment_id) =>
    TuicUdpPacket.from_parts packet.assoc_id packet_id (UInt8.ofNat fragment_count)
      (UInt8.ofNat fragment_id) (if fragment_id = 0 then packet.target else none) payload

/-! ## Reading back an address -/

/-- An address that its octets determine, text included. -/
structure Readable (address : TuicAddress) : Prop where
  kind : address.atyp ≠ ATYP_NONE
  octets : ∀ pre rest : List UInt8,
    address_octets (pre ++ address.addr ++ rest) address.atyp pre.length = .ok address.addr
  text : target_from_address address.atyp address.addr address.port = .ok address.target
  short : address.addr.length ≤ 256
  nonempty : address.target ≠ ""

theorem ne_empty_of_colon (host port : String) : host ++ ":" ++ port ≠ "" := by
  intro h
  have hlen := congrArg String.length h
  rw [String.length_append, String.length_append] at hlen
  change host.length + 1 + port.length = 0 at hlen
  omega

theorem readable_ipv4 (ipv4 : BitVec 32) (port : UInt16) :
    Readable { atyp := ATYP_IPV4
               addr := ipv4_octets ipv4
               port
               target := s!"{Net.ipv4_to_string ipv4}:{port}" } where
  kind := show ATYP_IPV4 ≠ ATYP_NONE by decide
  octets pre rest := by
    have hlen : (ipv4_octets ipv4).length = 4 := length_be_bytes 4 ipv4
    rw [address_octets, if_pos rfl, if_neg, Vec.take_drop_middle hlen]
    simp only [length_append, hlen]
    omega
  text := rfl
  short := by
    rw [ipv4_octets, length_be_bytes]
    decide
  nonempty := ne_empty_of_colon _ _

theorem readable_ipv6 (ipv6 : BitVec 128) (port : UInt16) :
    Readable { atyp := ATYP_IPV6
               addr := ipv6_octets ipv6
               port
               target := s!"[{Net.ipv6_to_string ipv6}]:{port}" } where
  kind := show ATYP_IPV6 ≠ ATYP_NONE by decide
  octets pre rest := by
    have hlen : (ipv6_octets ipv6).length = 16 := length_be_bytes 16 ipv6
    rw [address_octets, if_neg (show ATYP_IPV6 ≠ ATYP_IPV4 by decide), if_pos rfl, if_neg, Vec.take_drop_middle hlen]
    simp only [length_append, hlen]
    omega
  text := by
    have hlen : (ipv6_octets ipv6).length = 16 := length_be_bytes 16 ipv6
    unfold target_from_address
    rw [if_neg (show ATYP_IPV6 ≠ ATYP_IPV4 by decide), if_pos rfl, if_pos hlen,
      ipv6_from_octets_octets]
  short := by
    rw [ipv6_octets, length_be_bytes]
    decide
  nonempty := by
    intro h
    have hlen := congrArg String.length h
    simp only [String.length_append] at hlen
    change 1 + (ipv6_to_string ipv6).length + 2 + (toString port).length = 0 at hlen
    omega

variable {address : TuicAddress}

theorem readable_domain {host : String} {port : UInt16}
    (h : domain_address host port = .ok address) : Readable address := by
  rw [domain_address] at h
  split_ifs at h with hbounds
  cases h
  have hlen : (UInt8.ofNat (as_bytes host).length).toNat = (as_bytes host).length := by
    rw [UInt8.toNat_ofNat']
    omega
  refine ⟨show ATYP_DOMAIN_NAME ≠ ATYP_NONE by decide, fun pre rest => ?_, ?_, ?_,
    ne_empty_of_colon _ _⟩
  · have hfirst : (pre ++ UInt8.ofNat (as_bytes host).length :: as_bytes host
        ++ rest)[pre.length]? = some (UInt8.ofNat (as_bytes host).length) := by
      rw [append_assoc]
      exact Vec.getElem?_append_cons _ _ _
    rw [address_octets, if_neg (show ATYP_DOMAIN_NAME ≠ ATYP_IPV4 by decide),
      if_neg (show ATYP_DOMAIN_NAME ≠ ATYP_IPV6 by decide), if_pos rfl, hfirst]
    dsimp only
    rw [hlen, if_neg, Vec.take_drop_middle (by rw [length_cons, Nat.add_comm])]
    simp only [length_append, length_cons]
    omega
  · unfold target_from_address
    rw [if_neg (show ATYP_DOMAIN_NAME ≠ ATYP_IPV4 by decide),
      if_neg (show ATYP_DOMAIN_NAME ≠ ATYP_IPV6 by decide), if_pos rfl]
    dsimp only
    rw [from_utf8_as_bytes]
  · rw [length_cons]
    omega

theorem readable_of_build {target : String}
    (h : build_address target = .ok address) : Readable address := by
  obtain ⟨⟨host, port⟩, -, h⟩ := bind_ok h
  dsimp only at h
  cases hv4 : ipv4_from_str host with
  | some ipv4 =>
    rw [hv4] at h
    cases h
    exact readable_ipv4 ipv4 port
  | none =>
    rw [hv4] at h
    cases hv6 : ipv6_from_str host with
    | some ipv6 =>
      rw [hv6] at h
      cases h
      exact readable_ipv6 ipv6 port
    | none =>
      rw [hv6] at h
      exact readable_domain h

theorem length_write_to (address : TuicAddress) : address.write_to.length = address.encoded_len := by
  rw [TuicAddress.write_to, TuicAddress.encoded_len]
  split_ifs
  · rfl
  · rw [length_cons, length_append, length_be_bytes]
    omega

theorem read_no_address (pre rest : List UInt8) :
    read_address (pre ++ no_address.write_to ++ rest) pre.length
      = .ok (no_address, pre.length + no_address.encoded_len) := by
  have hfirst : (pre ++ no_address.write_to ++ rest)[pre.length]? = some ATYP_NONE := by
    rw [append_assoc]
    exact Vec.getElem?_append_cons pre rest ATYP_NONE
  rw [read_address, hfirst]
  rfl

theorem Readable.read (h : Readable address) (pre rest : List UInt8) :
    read_address (pre ++ address.write_to ++ rest) pre.length
      = .ok (address, pre.length + address.encoded_len) := by
  have hwrite : address.write_to
      = address.atyp :: (address.addr ++ be_bytes 2 address.port.toBitVec) := by
    rw [TuicAddress.write_to, if_neg h.kind]
  have hport := length_be_bytes 2 address.port.toBitVec
  have hfirst : (pre ++ address.write_to ++ rest)[pre.length]? = some address.atyp := by
    rw [hwrite, append_assoc]
    exact Vec.getElem?_append_cons _ _ _
  -- the octets stand after the type, the port after them
  have hafter : pre ++ address.write_to ++ rest = (pre ++ [address.atyp]) ++ address.addr
      ++ (be_bytes 2 address.port.toBitVec ++ rest) := by
    rw [hwrite]
    simp only [append_assoc, cons_append, nil_append]
  have hoctets := h.octets (pre ++ [address.atyp]) (be_bytes 2 address.port.toBitVec ++ rest)
  rw [← hafter, length_append, length_singleton] at hoctets
  have hread : ((pre ++ address.write_to ++ rest).drop (pre.length + 1 + address.addr.length)).take 2
      = be_bytes 2 address.port.toBitVec := by
    rw [hafter, drop_left' (by rw [length_append, length_append]; rfl), take_left' hport]
  have hlen : ¬ (pre ++ address.write_to ++ rest).length
      < pre.length + 1 + address.addr.length + 2 := by
    rw [hafter]
    simp only [length_append, length_singleton, hport]
    omega
  rw [read_address, hfirst]
  dsimp only
  rw [if_neg h.kind, hoctets, ok_bind]
  rw [if_neg hlen, hread, ofNat_be_bytes_u16, h.text, ok_bind,
    TuicAddress.encoded_len, if_neg h.kind]
  rw [show pre.length + (1 + address.addr.length + 2) = pre.length + 1 + address.addr.length + 2
    by omega]
  rfl

/-! ## Reading back a packet -/

variable {target : Option String} {payload : List UInt8} {fragment_id : UInt8}

theorem validate_fields_ok {fragment_count : UInt8}
    (h : validate_udp_packet_fields fragment_count fragment_id target payload = .ok ()) :
    (payload ≠ [] ∧ payload.length ≤ TUIC_MAX_UDP_PAYLOAD_LENGTH)
      ∧ (fragment_count ≠ 0 ∧ fragment_id < fragment_count)
      ∧ validate_fragment_target fragment_id target = .ok () := by
  obtain ⟨hlen, h⟩ := guard_ok h
  obtain ⟨hcount, h⟩ := guard_ok h
  rw [not_or] at hlen hcount
  exact ⟨⟨hlen.1, Nat.not_lt.mp hlen.2⟩, ⟨hcount.1, UInt8.not_le.mp hcount.2⟩, h⟩

theorem validate_target_ok (h : validate_fragment_target fragment_id target = .ok ()) :
    target.isSome = decide (fragment_id = 0) := by
  unfold validate_fragment_target at h
  by_cases hid : fragment_id = 0
  · rw [if_pos hid] at h
    rw [decide_eq_true hid]
    cases target with
    | none => cases h
    | some target => rfl
  · rw [if_neg hid] at h
    rw [decide_eq_false hid]
    cases target with
    | none => rfl
    | some target => cases h

variable {packet : TuicUdpPacket}

theorem from_parts_ok {assoc_id packet_id : UInt16} {fragment_count : UInt8}
    (h : TuicUdpPacket.from_parts assoc_id packet_id fragment_count fragment_id target payload
      = .ok packet) :
    validate_udp_packet_fields fragment_count fragment_id target payload = .ok ()
      ∧ packet = { assoc_id, packet_id, fragment_count, fragment_id, target, payload } := by
  obtain ⟨⟨⟩, hvalid, h⟩ := bind_ok h
  cases h
  exact ⟨hvalid, rfl⟩

variable {bytes : List UInt8}

/-- What stands before the address. -/
def TuicUdpPacket.header (packet : TuicUdpPacket) : List UInt8 :=
  [TUIC_VERSION5, TUIC_PACKET_TYPE] ++ be_bytes 2 packet.assoc_id.toBitVec
    ++ be_bytes 2 packet.packet_id.toBitVec ++ [packet.fragment_count, packet.fragment_id]
    ++ be_bytes 2 (UInt16.ofNat packet.payload.length).toBitVec

theorem encode_ok (h : encode_tuic_udp_packet packet = .ok bytes) :
    validate_udp_packet_fields packet.fragment_count packet.fragment_id packet.target
        packet.payload = .ok ()
      ∧ ∃ address, address_for_optional_target packet.target = .ok address
        ∧ bytes = packet.header ++ address.write_to ++ packet.payload := by
  obtain ⟨⟨⟩, hfields, h⟩ := bind_ok h
  obtain ⟨address, haddress, h⟩ := bind_ok h
  cases h
  exact ⟨hfields, address, haddress, rfl⟩

section

variable {address : TuicAddress}

theorem length_encode (h : encode_tuic_udp_packet packet = .ok bytes)
    (haddress : address_for_optional_target packet.target = .ok address) :
    bytes.length = 10 + address.encoded_len + packet.payload.length := by
  obtain ⟨-, other, hother, rfl⟩ := encode_ok h
  rw [haddress] at hother
  cases hother
  rw [length_append, length_append, length_write_to]
  rfl

theorem encoded_len_le (h : address_for_optional_target target = .ok address) :
    1 ≤ address.encoded_len ∧ 10 + address.encoded_len ≤ TUIC_MAX_UDP_HEADER_LENGTH := by
  cases target with
  | none =>
    cases h
    decide
  | some target =>
    have hread := readable_of_build h
    have hshort := hread.short
    rw [TuicAddress.encoded_len, if_neg hread.kind, TUIC_MAX_UDP_HEADER_LENGTH]
    omega

def decoded_target (target : Option String) (address : TuicAddress) : Option String :=
  target.map fun _ => address.target

theorem read_encoded_address
    (h : address_for_optional_target target = .ok address) (pre rest : List UInt8) :
    read_address (pre ++ address.write_to ++ rest) pre.length
        = .ok (address, pre.length + address.encoded_len)
      ∧ (if address.atyp ≠ ATYP_NONE then some address.target else none)
        = decoded_target target address := by
  cases target with
  | none =>
    cases h
    exact ⟨read_no_address pre rest, rfl⟩
  | some target =>
    have hread := readable_of_build h
    exact ⟨hread.read pre rest, if_pos hread.kind⟩

theorem validate_decoded (hbuild : address_for_optional_target target = .ok address)
    (h : validate_fragment_target fragment_id target = .ok ()) :
    validate_fragment_target fragment_id (decoded_target target address) = .ok () := by
  cases target with
  | none => exact h
  | some target =>
    have hzero : fragment_id = 0 := of_decide_eq_true (validate_target_ok h).symm
    unfold validate_fragment_target
    rw [if_pos hzero]
    exact if_neg (readable_of_build hbuild).nonempty

end

theorem header_fields (packet : TuicUdpPacket) (rest : List UInt8) {input : List UInt8}
    (hinput : input = packet.header ++ rest) :
    validate_command_head input TUIC_PACKET_TYPE "packet" = .ok ()
      ∧ UInt16.ofNat (from_be_bytes ((input.drop 2).take 2)) = packet.assoc_id
      ∧ UInt16.ofNat (from_be_bytes ((input.drop 4).take 2)) = packet.packet_id
      ∧ input.getD 6 0 = packet.fragment_count ∧ input.getD 7 0 = packet.fragment_id
      ∧ from_be_bytes ((input.drop 8).take 2) = packet.payload.length % 256 ^ 2 := by
  -- the octets stand where the header has them
  subst hinput
  refine ⟨rfl, ofNat_be_bytes_u16 _, ofNat_be_bytes_u16 _, rfl, rfl, ?_⟩
  have hsize := from_be_bytes_be_bytes 2 (UInt16.ofNat packet.payload.length).toBitVec
  rw [UInt16.toNat_toBitVec, UInt16.toNat_ofNat'] at hsize
  exact hsize.trans (Nat.mod_mod _ _)

/-- **What was encoded is read back**, with the target in the form of its address. -/
theorem decode_encode (h : encode_tuic_udp_packet packet = .ok bytes)
    (haddress : address_for_optional_target packet.target = .ok address) :
    decode_tuic_udp_packet bytes
      = .ok { packet with target := decoded_target packet.target address } := by
  have hlength := length_encode h haddress
  obtain ⟨hfields, other, hother, hbytes⟩ := encode_ok h
  rw [haddress] at hother
  cases hother
  obtain ⟨⟨hnonempty, hmax⟩, hcount, htarget⟩ := validate_fields_ok hfields
  rw [TUIC_MAX_UDP_PAYLOAD_LENGTH] at hmax
  obtain ⟨hhead, hassoc, hpacket, hfcount, hfid, hlen⟩ :=
    header_fields packet (address.write_to ++ packet.payload) (hbytes.trans (append_assoc _ _ _))
  rw [Nat.mod_eq_of_lt (by omega)] at hlen
  have hpre : packet.header.length = 10 := rfl
  obtain ⟨hread, htext⟩ := read_encoded_address haddress packet.header packet.payload
  rw [hpre, ← hbytes] at hread
  have hrest : (bytes.drop (10 + address.encoded_len)).take packet.payload.length
      = packet.payload := by
    rw [hbytes, drop_left' (by rw [length_append, hpre, length_write_to]), take_length]
  have hheader := (encoded_len_le haddress).2
  rw [TUIC_MAX_UDP_HEADER_LENGTH] at hheader
  have hvalid : validate_udp_packet_fields packet.fragment_count packet.fragment_id
      (decoded_target packet.target address) packet.payload = .ok () := by
    rw [validate_udp_packet_fields, if_neg, if_neg, validate_decoded haddress htarget]
    · rw [not_or]
      exact ⟨hcount.1, UInt8.not_le.mpr hcount.2⟩
    · rw [not_or, TUIC_MAX_UDP_PAYLOAD_LENGTH]
      exact ⟨hnonempty, by omega⟩
  rw [decode_tuic_udp_packet, if_neg (by omega), hhead, ok_bind]
  dsimp only
  rw [hread, ok_bind, hlen]
  rw [if_neg (by omega), if_neg (by omega), hrest, hassoc, hpacket, hfcount, hfid, htext,
    TuicUdpPacket.from_parts, hvalid]
  rfl

/-! ## Fragments -/

theorem wire_len_ok {target : String} {wire_len : Nat}
    (h : tuic_udp_payload_wire_len target payload = .ok wire_len) :
    ∃ address, build_address target = .ok address
      ∧ wire_len = 10 + address.encoded_len + payload.length := by
  obtain ⟨⟨⟩, -, h⟩ := bind_ok h
  obtain ⟨address, haddress, h⟩ := bind_ok h
  cases h
  exact ⟨address, haddress, rfl⟩

section

variable {packet_id : UInt16} {max_wire_size : Nat} {fragments : List TuicUdpPacket}
  (h : fragment_tuic_udp_packet packet packet_id max_wire_size = .ok fragments)

include h

/-- The fragments of a packet: several, with the packet's payload cut among them in order, the
target on the first one, and none longer than the limit. -/
theorem fragment_ok :
    2 ≤ fragments.length ∧ fragments.length ≤ 255
      ∧ (fragments.map (·.payload)).flatten = packet.payload
      ∧ ∀ (i : Nat) (fragment : TuicUdpPacket), fragments[i]? = some fragment →
        fragment = { packet with
          packet_id
          fragment_count := UInt8.ofNat fragments.length
          fragment_id := UInt8.ofNat i
          target := if i = 0 then packet.target else none
          payload := fragment.payload }
        ∧ fragment.payload ≠ []
        ∧ ∀ bytes, encode_tuic_udp_packet fragment = .ok bytes → bytes.length ≤ max_wire_size := by
  obtain ⟨-, h⟩ := guard_ok h
  obtain ⟨encoded_len, hencoded, h⟩ := bind_ok h
  obtain ⟨-, h⟩ := guard_ok h
  obtain ⟨hheader, h⟩ := guard_ok h
  obtain ⟨hroom, h⟩ := guard_ok h
  obtain ⟨hmost, h⟩ := guard_ok h
  obtain ⟨hseveral, h⟩ := guard_ok h
  obtain ⟨hlength, hpayload, hat⟩ := Vec.mapM_chunks (Nat.pos_of_ne_zero hroom) h
    TuicUdpPacket.payload (fun _ _ _ hmade => by rw [(from_parts_ok hmade).2])
  refine ⟨by omega, by omega, hpayload, fun i fragment hget => ?_⟩
  obtain ⟨hmade, hne, hle⟩ := hat i fragment hget
  rw [← hlength] at hmade
  have heq := (from_parts_ok hmade).2
  refine ⟨heq, hne, fun bytes hbytes => ?_⟩
  obtain ⟨first, hfirst, hencoded⟩ := bind_ok hencoded
  cases hencoded
  have hfragment : fragment.target = if i = 0 then packet.target else none := by rw [heq]
  -- the header of the first fragment is the longest one
  by_cases hzero : i = 0
  · rw [if_pos hzero] at hfragment
    rw [length_encode hbytes (by rw [hfragment]; exact hfirst)]
    omega
  · rw [if_neg hzero] at hfragment
    have hshort := (encoded_len_le hfirst).1
    rw [length_encode hbytes (by rw [hfragment]; exact rfl), show no_address.encoded_len = 1 from rfl]
    omega

theorem fragment_address : ∃ address, address_for_optional_target packet.target = .ok address := by
  obtain ⟨-, h⟩ := guard_ok h
  obtain ⟨encoded_len, hencoded, -⟩ := bind_ok h
  obtain ⟨address, haddress, -⟩ := bind_ok hencoded
  exact ⟨address, haddress⟩

end

end DaeNext.Tuic
