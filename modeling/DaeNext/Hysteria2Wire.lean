/-
UDP messages of Hysteria2.

A message carries a session id, a packet id, the place of the fragment, the target with its
length as a QUIC variable-length integer, and the payload. Encoding checks what decoding
checks, so what was encoded is read back as it was (`decode_encode`). A message too long for
a datagram is cut into fragments that repeat its target (`fragment_spec`).
-/
import DaeNext.LibVec
import DaeNext.Socks5Address

set_option autoImplicit false

namespace DaeNext.Hysteria2

open Fallible Net Text List

def HYSTERIA2_MAX_UDP_ADDRESS_LENGTH : Nat := 2048
def HYSTERIA2_MAX_UDP_MESSAGE_LENGTH : Nat := 4096

def bad_wire (message : String) : OutboundError := .BadHysteria2 message

structure Hysteria2UdpMessage where
  session_id : UInt32
  packet_id : UInt16
  fragment_id : UInt8
  fragment_count : UInt8
  target : String
  payload : List UInt8
deriving DecidableEq, Repr

/-- `str::len`, in bytes. -/
def byte_len (text : String) : Nat := (Text.as_bytes text).length

/-! ## Variable-length integers -/

def quic_varint_len (value : Nat) : Nat :=
  if value ≤ 63 then 1
  else if value ≤ 16383 then 2
  else if value ≤ 1073741823 then 4
  else 8

/-- The octets that `append_quic_varint` appends. -/
def append_quic_varint (value : Nat) : Except OutboundError (List UInt8) :=
  let byte (shift : Nat) : UInt8 := UInt8.ofNat (value >>> shift)
  if value ≤ 63 then .ok [byte 0]
  else if value ≤ 16383 then .ok [byte 8 ||| 0x40, byte 0]
  else if value ≤ 1073741823 then .ok [byte 24 ||| 0x80, byte 16, byte 8, byte 0]
  else if value ≤ 4611686018427387903 then
    .ok [byte 56 ||| 0xc0, byte 48, byte 40, byte 32, byte 24, byte 16, byte 8, byte 0]
  else .error (bad_wire "Hysteria2 QUIC varint too large")

def read_quic_varint (input : List UInt8) (offset : Nat) : Except OutboundError (Nat × Nat) :=
  match input[offset]? with
  | none => .error (bad_wire "short Hysteria2 QUIC varint")
  | some first =>
    let tag := first >>> 6
    let len := 1 <<< tag.toNat
    if input.length < offset + len then .error (bad_wire "short Hysteria2 QUIC varint body")
    else
      let value := ((input.drop (offset + 1)).take (len - 1)).foldl
        (fun value byte => value <<< 8 ||| byte.toNat) (first &&& 0x3f).toNat
      if tag = 0 ∧ 63 < value then .error (bad_wire "non-canonical Hysteria2 QUIC varint")
      else .ok (value, offset + len)

/-! ## Messages -/

def hysteria2_udp_payload_capacity (target : String) : Except OutboundError Nat :=
  let len := byte_len target
  if len = 0 ∨ HYSTERIA2_MAX_UDP_ADDRESS_LENGTH < len then
    .error (bad_wire "invalid Hysteria2 UDP target length")
  else
    let header_len := 8 + quic_varint_len len + len
    if header_len < HYSTERIA2_MAX_UDP_MESSAGE_LENGTH then
      .ok (HYSTERIA2_MAX_UDP_MESSAGE_LENGTH - header_len)
    else .error (bad_wire "Hysteria2 UDP target leaves no payload capacity")

def validate_udp_message_fields (_packet_id : UInt16) (fragment_id fragment_count : UInt8)
    (target : String) (payload : List UInt8) : Except OutboundError Unit := do
  let payload_capacity ← hysteria2_udp_payload_capacity target
  if payload = [] ∨ payload_capacity < payload.length then
    throw (bad_wire "invalid Hysteria2 UDP payload length")
  if 1 < fragment_count ∧ fragment_count ≤ fragment_id then
    throw (bad_wire
      s!"invalid Hysteria2 UDP fragment fields: fragment_id={fragment_id} fragment_count={fragment_count}")

def validate_outbound_udp_message_identity (packet_id : UInt16)
    (fragment_id fragment_count : UInt8) : Except OutboundError Unit := do
  if fragment_count = 0 then
    throw (bad_wire "outbound Hysteria2 UDP message requires a fragment count")
  if fragment_count = 1 ∧ (fragment_id ≠ 0 ∨ packet_id ≠ 0) then
    throw (bad_wire "complete Hysteria2 UDP message requires zero packet and fragment IDs")
  if 1 < fragment_count ∧ packet_id = 0 then
    throw (bad_wire "fragmented Hysteria2 UDP message requires a nonzero packet ID")

namespace Hysteria2UdpMessage

def from_parts (session_id : UInt32) (packet_id : UInt16) (fragment_id fragment_count : UInt8)
    (target : String) (payload : List UInt8) : Except OutboundError Hysteria2UdpMessage := do
  validate_udp_message_fields packet_id fragment_id fragment_count target payload
  pure { session_id, packet_id, fragment_id, fragment_count, target, payload }

def new (session_id : UInt32) (target : String) (payload : List UInt8) :
    Except OutboundError Hysteria2UdpMessage :=
  from_parts session_id 0 0 1 target payload

def encoded_len (self : Hysteria2UdpMessage) : Nat :=
  8 + quic_varint_len (byte_len self.target) + byte_len self.target + self.payload.length

end Hysteria2UdpMessage

def hysteria2_udp_payload_wire_len (target : String) (payload_len : Nat) :
    Except OutboundError Nat := do
  let capacity ← hysteria2_udp_payload_capacity target
  if payload_len = 0 ∨ capacity < payload_len then
    throw (bad_wire "invalid Hysteria2 UDP payload length")
  pure (HYSTERIA2_MAX_UDP_MESSAGE_LENGTH - capacity + payload_len)

def encode_hysteria2_udp_payload (session_id : UInt32) (packet_id : UInt16)
    (fragment_id fragment_count : UInt8) (target : String) (payload : List UInt8) :
    Except OutboundError (List UInt8) := do
  validate_udp_message_fields packet_id fragment_id fragment_count target payload
  validate_outbound_udp_message_identity packet_id fragment_id fragment_count
  let target_len ← append_quic_varint (byte_len target)
  pure (Net.be_bytes 4 session_id.toBitVec ++ Net.be_bytes 2 packet_id.toBitVec
    ++ [fragment_id, fragment_count] ++ target_len ++ Text.as_bytes target ++ payload)

def encode_hysteria2_udp_message (message : Hysteria2UdpMessage) :
    Except OutboundError (List UInt8) :=
  encode_hysteria2_udp_payload message.session_id message.packet_id message.fragment_id
    message.fragment_count message.target message.payload

def decode_hysteria2_udp_message (input : List UInt8) :
    Except OutboundError Hysteria2UdpMessage := do
  if input.length < 9 then throw (bad_wire "short Hysteria2 UDP message")
  let session_id := UInt32.ofNat (Net.from_be_bytes (input.take 4))
  let packet_id := UInt16.ofNat (Net.from_be_bytes ((input.drop 4).take 2))
  let fragment_id := input.getD 6 0
  let fragment_count := input.getD 7 0
  let (addr_len, offset) ← read_quic_varint input 8
  if 2 ^ 64 ≤ offset + addr_len then throw (bad_wire "Hysteria2 UDP address length overflow")
  let payload_offset := offset + addr_len
  if addr_len = 0 ∨ HYSTERIA2_MAX_UDP_ADDRESS_LENGTH < addr_len ∨ input.length ≤ payload_offset then
    throw (bad_wire "invalid Hysteria2 UDP address length")
  match Text.from_utf8 ((input.drop offset).take addr_len) with
  | .error err =>
    let err := err.to_string
    throw (bad_wire s!"Hysteria2 UDP target utf8: {err}")
  | .ok target =>
    Hysteria2UdpMessage.from_parts session_id packet_id fragment_id fragment_count target
      (input.drop payload_offset)

def fragment_hysteria2_udp_message (message : Hysteria2UdpMessage) (packet_id : UInt16)
    (max_wire_size : Nat) : Except OutboundError (List Hysteria2UdpMessage) := do
  if message.fragment_count ≠ 1 ∨ message.fragment_id ≠ 0 ∨ message.packet_id ≠ 0 then
    throw (bad_wire "only a complete Hysteria2 UDP message can be fragmented")
  if packet_id = 0 then
    throw (bad_wire "fragmented Hysteria2 UDP message requires a nonzero packet ID")
  if message.encoded_len ≤ max_wire_size then
    throw (bad_wire
      s!"Hysteria2 UDP message fits max wire size {max_wire_size} without fragmentation")
  -- the encoded length is a sum with the payload's in it, so this does not underflow
  let header_len := message.encoded_len - message.payload.length
  if max_wire_size < header_len then
    throw (bad_wire s!"Hysteria2 UDP header is larger than max wire size {max_wire_size}")
  let max_fragment_payload := max_wire_size - header_len
  if max_fragment_payload = 0 then
    throw (bad_wire s!"Hysteria2 UDP header leaves no payload at max wire size {max_wire_size}")
  let fragment_count := Vec.div_ceil message.payload.length max_fragment_payload
  if 255 < fragment_count then throw (bad_wire "Hysteria2 UDP fragment count exceeds 255")
  if fragment_count ≤ 1 then
    throw (bad_wire "Hysteria2 UDP fragmentation did not produce multiple fragments")
  (Vec.chunks max_fragment_payload message.payload).zipIdx.mapM fun (payload, fragment_id) =>
    Hysteria2UdpMessage.from_parts message.session_id packet_id (UInt8.ofNat fragment_id)
      (UInt8.ofNat fragment_count) message.target payload

/-! ## Reading back a variable-length integer -/

/-- The two high bits of the first octet carry the length, the others the value. -/
theorem tagged_octet : ∀ b : UInt8, b.toNat < 64 → (b >>> 6 = 0 ∧ b &&& 0x3f = b)
      ∧ ((b ||| 0x40) >>> 6 = 1 ∧ (b ||| 0x40) &&& 0x3f = b)
      ∧ ((b ||| 0x80) >>> 6 = 2 ∧ (b ||| 0x80) &&& 0x3f = b)
      ∧ ((b ||| 0xc0) >>> 6 = 3 ∧ (b ||| 0xc0) &&& 0x3f = b) :=
  forall_byte (by decide +kernel)

theorem foldl_shift_eq (tail : List UInt8) (value : Nat) :
    tail.foldl (fun value byte => value <<< 8 ||| byte.toNat) value
      = tail.foldl (fun value byte => value * 256 + byte.toNat) value := by
  induction tail generalizing value with
  | nil => rfl
  | cons byte tail ih =>
    have hor : value <<< 8 ||| byte.toNat = value * 256 + byte.toNat := by
      rw [← Nat.shiftLeft_add_eq_or_of_lt byte.toNat_lt, Nat.shiftLeft_eq]
    rw [foldl_cons, foldl_cons, hor, ih]

variable {value : Nat}

theorem read_tagged (pre : List UInt8) {tail : List UInt8} (rest : List UInt8) {first : UInt8}
    (hlen : 1 <<< (first >>> 6).toNat = tail.length + 1)
    (hvalue : tail.foldl (fun value byte => value * 256 + byte.toNat) (first &&& 0x3f).toNat = value)
    (hcanonical : first >>> 6 = 0 → value ≤ 63) :
    read_quic_varint (pre ++ first :: tail ++ rest) pre.length
      = .ok (value, pre.length + (tail.length + 1)) := by
  have hfirst : (pre ++ first :: tail ++ rest)[pre.length]? = some first := by
    rw [append_assoc]
    exact Vec.getElem?_append_cons pre (tail ++ rest) first
  have hdrop : (pre ++ first :: tail ++ rest).drop (pre.length + 1) = tail ++ rest := by
    rw [append_assoc, ← drop_drop, drop_left]
    rfl
  rw [read_quic_varint, hfirst]
  dsimp only
  rw [hlen, if_neg (by simp only [length_append, length_cons]; omega), hdrop,
    Nat.add_sub_cancel, take_left, foldl_shift_eq, hvalue, if_neg]
  rintro ⟨htag, hlt⟩
  exact absurd (hcanonical htag) (Nat.not_le.mpr hlt)

variable {bytes : List UInt8}

theorem length_append_quic_varint (h : append_quic_varint value = .ok bytes) :
    bytes.length = quic_varint_len value := by
  rw [append_quic_varint] at h
  rw [quic_varint_len]
  split_ifs at h ⊢ <;> cases h <;> rfl

theorem join_octet (value : Nat) {high low : Nat} (h : high = low + 8) :
    value >>> high * 256 + (UInt8.ofNat (value >>> low)).toNat = value >>> low := by
  rw [h, Nat.shiftRight_add, UInt8.toNat_ofNat', Nat.shiftRight_eq_div_pow (value >>> low)]
  omega

theorem first_octet {shift : Nat} (h : value >>> shift < 64) :
    (UInt8.ofNat (value >>> shift)).toNat = value >>> shift := by
  have hlt : value >>> shift < 2 ^ 8 := Nat.lt_trans h (by decide)
  rw [UInt8.toNat_ofNat', Nat.mod_eq_of_lt hlt]

theorem read_append_quic_varint (pre rest : List UInt8) (h : append_quic_varint value = .ok bytes) :
    read_quic_varint (pre ++ bytes ++ rest) pre.length = .ok (value, pre.length + bytes.length) := by
  rw [append_quic_varint] at h
  split_ifs at h with h1 h2 h4 h8
  · cases h
    have hfirst := first_octet (show value >>> 0 < 64 by rw [Nat.shiftRight_zero]; omega)
    obtain ⟨⟨htag, hval⟩, -⟩ := tagged_octet (UInt8.ofNat (value >>> 0)) (by omega)
    refine read_tagged pre rest (by rw [htag]; rfl) ?_ (fun _ => h1)
    rw [foldl_nil, hval, hfirst, Nat.shiftRight_zero]
  · cases h
    have hfirst := first_octet (show value >>> 8 < 64 by omega)
    obtain ⟨-, ⟨htag, hval⟩, -⟩ := tagged_octet (UInt8.ofNat (value >>> 8)) (by omega)
    refine read_tagged pre rest (by rw [htag]; rfl) ?_ (by rw [htag]; intro h; cases h)
    simp only [foldl_cons, foldl_nil]
    rw [hval, hfirst, join_octet value rfl, Nat.shiftRight_zero]
  · cases h
    have hfirst := first_octet (show value >>> 24 < 64 by omega)
    obtain ⟨-, -, ⟨htag, hval⟩, -⟩ := tagged_octet (UInt8.ofNat (value >>> 24)) (by omega)
    refine read_tagged pre rest (by rw [htag]; rfl) ?_ (by rw [htag]; intro h; cases h)
    simp only [foldl_cons, foldl_nil]
    rw [hval, hfirst, join_octet value rfl, join_octet value rfl,
      join_octet value rfl, Nat.shiftRight_zero]
  · cases h
    have hfirst := first_octet (show value >>> 56 < 64 by omega)
    obtain ⟨-, -, -, htag, hval⟩ := tagged_octet (UInt8.ofNat (value >>> 56)) (by omega)
    refine read_tagged pre rest (by rw [htag]; rfl) ?_
      (by rw [htag]; intro h; cases h)
    simp only [foldl_cons, foldl_nil]
    rw [hval, hfirst, join_octet value rfl, join_octet value rfl,
      join_octet value rfl, join_octet value rfl, join_octet value rfl,
      join_octet value rfl, join_octet value rfl, Nat.shiftRight_zero]

/-! ## Reading back a message -/

variable {target : String}

theorem capacity_ok {capacity : Nat} (h : hysteria2_udp_payload_capacity target = .ok capacity) :
    0 < byte_len target ∧ byte_len target ≤ HYSTERIA2_MAX_UDP_ADDRESS_LENGTH
      ∧ 8 + quic_varint_len (byte_len target) + byte_len target + capacity
        = HYSTERIA2_MAX_UDP_MESSAGE_LENGTH := by
  rw [hysteria2_udp_payload_capacity] at h
  dsimp only at h
  split_ifs at h with hlen hheader
  cases h
  omega

variable {packet_id : UInt16}

theorem validate_fields_ok {fragment_id fragment_count : UInt8} {payload : List UInt8}
    (h : validate_udp_message_fields packet_id fragment_id fragment_count target payload = .ok ()) :
    payload ≠ [] ∧ ∃ capacity, hysteria2_udp_payload_capacity target = .ok capacity
      ∧ payload.length ≤ capacity := by
  obtain ⟨capacity, hcapacity, h⟩ := bind_ok h
  obtain ⟨hlen, -⟩ := guard_ok h
  rw [not_or] at hlen
  exact ⟨hlen.1, capacity, hcapacity, Nat.not_lt.mp hlen.2⟩

variable {message : Hysteria2UdpMessage}

theorem from_parts_ok {session_id : UInt32} {fragment_id fragment_count : UInt8} {payload : List UInt8}
    (h : Hysteria2UdpMessage.from_parts session_id packet_id fragment_id fragment_count target
      payload = .ok message) :
    validate_udp_message_fields packet_id fragment_id fragment_count target payload = .ok ()
      ∧ message = { session_id, packet_id, fragment_id, fragment_count, target, payload } := by
  obtain ⟨⟨⟩, hvalid, h⟩ := bind_ok h
  cases h
  exact ⟨hvalid, rfl⟩

/-- What stands before the target. -/
def Hysteria2UdpMessage.header (message : Hysteria2UdpMessage) : List UInt8 :=
  be_bytes 4 message.session_id.toBitVec ++ be_bytes 2 message.packet_id.toBitVec
    ++ [message.fragment_id, message.fragment_count]

section

variable (h : encode_hysteria2_udp_message message = .ok bytes)

include h

theorem encode_ok :
    validate_udp_message_fields message.packet_id message.fragment_id message.fragment_count
        message.target message.payload = .ok ()
      ∧ ∃ target_len, append_quic_varint (byte_len message.target) = .ok target_len
        ∧ bytes = message.header ++ target_len ++ as_bytes message.target ++ message.payload := by
  obtain ⟨⟨⟩, hfields, h⟩ := bind_ok h
  obtain ⟨⟨⟩, -, h⟩ := bind_ok h
  obtain ⟨target_len, hlen, h⟩ := bind_ok h
  cases h
  exact ⟨hfields, target_len, hlen, rfl⟩

theorem length_encode : bytes.length = message.encoded_len := by
  obtain ⟨-, target_len, hlen, rfl⟩ := encode_ok h
  rw [length_append, length_append, length_append, length_append_quic_varint hlen]
  rfl

omit h in
/-- The fixed fields in front of what follows them. -/
theorem header_fields (message : Hysteria2UdpMessage) (rest : List UInt8) {input : List UInt8}
    (hinput : input = message.header ++ rest) :
    UInt32.ofNat (from_be_bytes (input.take 4)) = message.session_id
      ∧ UInt16.ofNat (from_be_bytes ((input.drop 4).take 2)) = message.packet_id
      ∧ input.getD 6 0 = message.fragment_id ∧ input.getD 7 0 = message.fragment_count := by
  subst hinput
  exact ⟨ofNat_be_bytes_u32 _, ofNat_be_bytes_u16 _, rfl, rfl⟩

/-- **What was encoded is read back.** -/
theorem decode_encode : decode_hysteria2_udp_message bytes = .ok message := by
  obtain ⟨hfields, target_len, hvarint, hbytes⟩ := encode_ok h
  obtain ⟨hnonempty, capacity, hcapacity, -⟩ := validate_fields_ok hfields
  obtain ⟨hpos, hmax, hcapacity⟩ := capacity_ok hcapacity
  have hpayload := length_pos_iff.mpr hnonempty
  have hinput : bytes
      = message.header ++ (target_len ++ (as_bytes message.target ++ message.payload)) := by
    rw [hbytes]
    simp only [append_assoc]
  obtain ⟨hsession, hpacket, hid, hcount⟩ := header_fields message _ hinput
  have hpre : message.header.length = 8 := rfl
  have hread := read_append_quic_varint message.header (as_bytes message.target ++ message.payload)
    hvarint
  rw [hpre, ← append_assoc, ← hbytes] at hread
  have hfront : (message.header ++ target_len).length = 8 + target_len.length := by
    rw [length_append, hpre]
  have htarget : (bytes.drop (8 + target_len.length)).take (byte_len message.target)
      = as_bytes message.target := by
    rw [hbytes, append_assoc _ (as_bytes message.target), drop_left' hfront]
    exact take_left
  have hrest : bytes.drop (8 + target_len.length + byte_len message.target) = message.payload := by
    rw [hbytes]
    exact drop_left' (by rw [length_append, hfront]; rfl)
  have hlen : bytes.length
      = 8 + target_len.length + byte_len message.target + message.payload.length := by
    rw [hbytes, length_append, length_append, hfront]
    rfl
  have hvarint_len := length_append_quic_varint hvarint
  rw [HYSTERIA2_MAX_UDP_MESSAGE_LENGTH] at hcapacity
  rw [decode_hysteria2_udp_message]
  dsimp only
  rw [if_neg (by omega), hread]
  rw [ok_bind]
  rw [if_neg (by omega), if_neg (by omega), htarget, from_utf8_as_bytes]
  dsimp only
  rw [hsession, hpacket, hid, hcount, hrest, Hysteria2UdpMessage.from_parts, hfields]
  rfl

end

/-! ## Fragments -/

theorem wire_len_ok {payload_len wire_len : Nat}
    (h : hysteria2_udp_payload_wire_len target payload_len = .ok wire_len) :
    wire_len = 8 + quic_varint_len (byte_len target) + byte_len target + payload_len := by
  obtain ⟨capacity, hcapacity, h⟩ := bind_ok h
  obtain ⟨-, -, hsum⟩ := capacity_ok hcapacity
  obtain ⟨-, h⟩ := guard_ok h
  cases h
  omega

/-- The fragments of a message: several, with the message's payload cut among them in order,
and none longer than the limit. -/
theorem fragment_ok {max_wire_size : Nat} {fragments : List Hysteria2UdpMessage}
    (h : fragment_hysteria2_udp_message message packet_id max_wire_size = .ok fragments) :
    2 ≤ fragments.length ∧ fragments.length ≤ 255
      ∧ (fragments.map (·.payload)).flatten = message.payload
      ∧ ∀ (i : Nat) (fragment : Hysteria2UdpMessage), fragments[i]? = some fragment →
        fragment = { message with
          packet_id
          fragment_id := UInt8.ofNat i
          fragment_count := UInt8.ofNat fragments.length
          payload := fragment.payload }
        ∧ fragment.payload ≠ [] ∧ fragment.encoded_len ≤ max_wire_size := by
  obtain ⟨-, h⟩ := guard_ok h
  obtain ⟨-, h⟩ := guard_ok h
  obtain ⟨-, h⟩ := guard_ok h
  obtain ⟨hheader, h⟩ := guard_ok h
  obtain ⟨hroom, h⟩ := guard_ok h
  obtain ⟨hmost, h⟩ := guard_ok h
  obtain ⟨hseveral, h⟩ := guard_ok h
  obtain ⟨hlength, hpayload, hat⟩ := Vec.mapM_chunks (Nat.pos_of_ne_zero hroom) h
    Hysteria2UdpMessage.payload (fun _ _ _ hmade => by rw [(from_parts_ok hmade).2])
  refine ⟨by omega, by omega, hpayload, fun i fragment hget => ?_⟩
  obtain ⟨hmade, hne, hle⟩ := hat i fragment hget
  rw [← hlength] at hmade
  have heq := (from_parts_ok hmade).2
  refine ⟨heq, hne, ?_⟩
  have htarget : fragment.target = message.target := by rw [heq]
  rw [Hysteria2UdpMessage.encoded_len] at hheader hle ⊢
  rw [htarget]
  omega

end DaeNext.Hysteria2
