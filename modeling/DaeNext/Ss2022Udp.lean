/-
Server packets of a Shadowsocks 2022 UDP session.

A packet is opened, its message is parsed against the clock, and the replay table has the last
word. The crates that do the cryptography are taken as functions: opening the same octets with the
same key gives the same result. Then what a packet says does not depend on when it is read, only
whether its timestamp is within the tolerance does.
-/
import DaeNext.Ss2022Replay

set_option autoImplicit false

namespace DaeNext.Ss2022

open OutboundError (BadShadowsocks)

def TIMESTAMP_TOLERANCE_SECS : UInt64 := 30
def AES_BLOCK_LEN : Nat := 16
def MAX_PADDING_LENGTH : Nat := 900
def HEADER_TYPE_CLIENT_PACKET : UInt8 := 0
def HEADER_TYPE_SERVER_PACKET : UInt8 := 1

/-! ## Ciphers -/

structure CipherConf2022 where
  cipher : String
  key_len : Nat
  tag_len : Nat
  packet_nonce_len : Nat
  packet_cipher : Bool
  deriving DecidableEq, Repr

def CIPHER_CONFS : List CipherConf2022 := [
  { cipher := "2022-blake3-aes-128-gcm", key_len := 16, tag_len := 16, packet_nonce_len := 0,
    packet_cipher := false },
  { cipher := "2022-blake3-aes-256-gcm", key_len := 32, tag_len := 16, packet_nonce_len := 0,
    packet_cipher := false },
  { cipher := "2022-blake3-chacha20-poly1305", key_len := 32, tag_len := 16, packet_nonce_len := 24,
    packet_cipher := true }]

def cipher_conf (cipher : String) : Option CipherConf2022 :=
  CIPHER_CONFS.find? fun conf => conf.cipher == cipher

def require_cipher_conf (cipher : String) : Except OutboundError CipherConf2022 :=
  match cipher_conf cipher with
  | some conf => .ok conf
  | none => .error (BadShadowsocks s!"unsupported shadowsocks 2022 cipher: {cipher}")

/-- The functions of the crates for base64, AES, BLAKE3, AES-GCM and XChaCha20-Poly1305, for keys of
the right length. -/
structure Crypto where
  base64_decode : String → Except String (List UInt8)
  aes_decrypt_block (key block : List UInt8) : List UInt8
  derive_session_subkey (psk : List UInt8) (salt : UInt64) : List UInt8
  aes_gcm_decrypt (key nonce ciphertext : List UInt8) : Option (List UInt8)
  xchacha_decrypt (key nonce ciphertext : List UInt8) : Option (List UInt8)

def validate_base64_psk (crypto : Crypto) (psk_base64 : String) (expected_key_len : Nat) :
    Except OutboundError (List UInt8) :=
  if psk_base64.isEmpty then .error (BadShadowsocks "PSK cannot be empty for AEAD-2022 methods")
  else match crypto.base64_decode psk_base64 with
    | .error err =>
      .error (BadShadowsocks s!"PSK must be valid base64 for AEAD-2022 methods: {err}")
    | .ok psk =>
      if psk.length ≠ expected_key_len then
        .error (BadShadowsocks
          s!"PSK length must be {expected_key_len} bytes for this method, got {psk.length}")
      else .ok psk

def parse_psk_list (crypto : Crypto) (password : String) (key_len : Nat) :
    Except OutboundError (List (List UInt8)) :=
  (Text.split ':' password).mapM fun part => validate_base64_psk crypto part key_len

/-- A block cipher is its key. -/
inductive Ss2022AesBlockCipher where
  | Aes128 (key : List UInt8)
  | Aes256 (key : List UInt8)
  deriving DecidableEq, Repr

namespace Ss2022AesBlockCipher

def new (key : List UInt8) : Except OutboundError Ss2022AesBlockCipher :=
  if key.length = 16 then .ok (.Aes128 key)
  else if key.length = 32 then .ok (.Aes256 key)
  else .error (BadShadowsocks s!"unsupported SS2022 AES block key length: {key.length}")

def key : Ss2022AesBlockCipher → List UInt8
  | .Aes128 key => key
  | .Aes256 key => key

def decrypt_block (crypto : Crypto) (self : Ss2022AesBlockCipher) (ciphertext : List UInt8) :
    Except OutboundError (List UInt8) :=
  if ciphertext.length ≠ AES_BLOCK_LEN then
    .error (BadShadowsocks "SS2022 AES block ciphertext must be 16 bytes")
  else .ok (crypto.aes_decrypt_block self.key ciphertext)

end Ss2022AesBlockCipher

inductive Ss2022SeparatePayloadCipher where
  | Aes128 (key : List UInt8)
  | Aes256 (key : List UInt8)
  deriving DecidableEq, Repr

namespace Ss2022SeparatePayloadCipher

def new (cipher : String) (key : List UInt8) : Except OutboundError Ss2022SeparatePayloadCipher :=
  if cipher = "2022-blake3-aes-128-gcm" then
    if key.length = 16 then .ok (.Aes128 key)
    else .error (BadShadowsocks "bad SS2022 aes-128 UDP key")
  else if cipher = "2022-blake3-aes-256-gcm" then
    if key.length = 32 then .ok (.Aes256 key)
    else .error (BadShadowsocks "bad SS2022 aes-256 UDP key")
  else .error (BadShadowsocks s!"SS2022 cipher does not use separate UDP payload AEAD: {cipher}")

def key : Ss2022SeparatePayloadCipher → List UInt8
  | .Aes128 key => key
  | .Aes256 key => key

def decrypt (crypto : Crypto) (self : Ss2022SeparatePayloadCipher) (nonce ciphertext : List UInt8) :
    Except OutboundError (List UInt8) :=
  match crypto.aes_gcm_decrypt self.key nonce ciphertext with
  | some plain => .ok plain
  | none => .error (BadShadowsocks "SS2022 UDP decrypt failed")

end Ss2022SeparatePayloadCipher

def separate_payload_cipher (crypto : Crypto) (conf : CipherConf2022) (upsk : List UInt8)
    (session_id : UInt64) : Except OutboundError Ss2022SeparatePayloadCipher :=
  Ss2022SeparatePayloadCipher.new conf.cipher
    ((crypto.derive_session_subkey upsk session_id).take conf.key_len)

/-! ## Messages -/

/-- `u64::from_be_bytes` of the eight octets at `offset`. -/
def u64_at (input : List UInt8) (offset : Nat) : UInt64 :=
  UInt64.ofNat (Net.from_be_bytes ((input.drop offset).take 8))

def timestamp_out_of_tolerance (timestamp now : UInt64) : Bool :=
  Saturating.add timestamp TIMESTAMP_TOLERANCE_SECS < now ||
    Saturating.add now TIMESTAMP_TOLERANCE_SECS < timestamp

/-- What both kinds of message say; a client message has no session id. -/
structure ParsedMessage where
  packet_type : UInt8
  timestamp : UInt64
  client_session_id : Option UInt64
  target : String
  target_metadata_len : Nat
  padding_len : Nat
  payload : List UInt8
  deriving DecidableEq, Repr

def parse_type_timestamp (input : List UInt8) (now : UInt64) :
    Except OutboundError (UInt8 × UInt64 × Nat) :=
  if input.length < 9 then .error (BadShadowsocks "SS2022 UDP message too short")
  else
    let timestamp := u64_at input 1
    if timestamp_out_of_tolerance timestamp now then
      .error (BadShadowsocks "SS2022 UDP replay attack: timestamp out of tolerance")
    else .ok (input.headD 0, timestamp, 9)

def read_padding_len (input : List UInt8) (offset : Nat) : Except OutboundError (Nat × Nat) :=
  if input.length < offset + 2 then
    .error (BadShadowsocks "SS2022 UDP message missing padding length")
  else
    let padding_len := Net.from_be_bytes ((input.drop offset).take 2)
    if MAX_PADDING_LENGTH < padding_len then
      .error (BadShadowsocks s!"SS2022 UDP padding too large: {padding_len}")
    else .ok (padding_len, offset + 2)

def skip_padding (input : List UInt8) (offset padding_len : Nat) : Except OutboundError Nat :=
  if input.length < offset + padding_len then
    .error (BadShadowsocks "SS2022 UDP padding overflows packet")
  else .ok (offset + padding_len)

/-- The end of both kinds of message: padding, address and payload. -/
def parse_message_tail (input : List UInt8) (packet_type : UInt8) (timestamp : UInt64)
    (client_session_id : Option UInt64) (offset : Nat) : Except OutboundError ParsedMessage := do
  let (padding_len, offset) ← read_padding_len input offset
  let offset ← skip_padding input offset padding_len
  let (target, consumed) ← Socks5Address.decode (input.drop offset)
  pure {
    packet_type := packet_type
    timestamp := timestamp
    client_session_id := client_session_id
    target := target.authority
    target_metadata_len := consumed
    padding_len := padding_len
    payload := input.drop (offset + consumed) }

def parse_client_message (input : List UInt8) (now : UInt64) : Except OutboundError ParsedMessage := do
  let (packet_type, timestamp, offset) ← parse_type_timestamp input now
  parse_message_tail input packet_type timestamp none offset

def parse_server_message (input : List UInt8) (now : UInt64) : Except OutboundError ParsedMessage := do
  let (packet_type, timestamp, offset) ← parse_type_timestamp input now
  if input.length < offset + 8 then
    throw (BadShadowsocks "SS2022 UDP server message missing client session id")
  parse_message_tail input packet_type timestamp (some (u64_at input offset)) (offset + 8)

/-! ## Packets -/

structure Ss2022UdpDecodedPacket where
  cipher : String
  branch : String
  packet_type : UInt8
  packet_id : UInt64
  session_id : UInt64
  client_session_id : Option UInt64
  target : String
  target_metadata_len : Nat
  padding_len : Nat
  payload : List UInt8
  timestamp : UInt64
  identity_header_count : Nat := 0
  identity_header_bytes_len : Nat := 0
  identity_header_validated : Bool := true
  deriving DecidableEq, Repr

def decoded_packet (cipher branch : String) (session_id packet_id : UInt64) (parsed : ParsedMessage) :
    Ss2022UdpDecodedPacket where
  cipher := cipher
  branch := branch
  packet_type := parsed.packet_type
  packet_id := packet_id
  session_id := session_id
  client_session_id := parsed.client_session_id
  target := parsed.target
  target_metadata_len := parsed.target_metadata_len
  padding_len := parsed.padding_len
  payload := parsed.payload
  timestamp := parsed.timestamp

def parse_merged_message (message : List UInt8) (now : UInt64) : Except OutboundError ParsedMessage :=
  match message with
  | [] => .error (BadShadowsocks "SS2022 UDP merged message missing type")
  | packet_type :: _ =>
    if packet_type = HEADER_TYPE_CLIENT_PACKET then parse_client_message message now
    else if packet_type = HEADER_TYPE_SERVER_PACKET then parse_server_message message now
    else .error (BadShadowsocks s!"SS2022 UDP unexpected packet type: {packet_type}")

def open_merged_header_packet (crypto : Crypto) (conf : CipherConf2022) (upsk input : List UInt8) :
    Except OutboundError (List UInt8) :=
  if input.length < conf.packet_nonce_len + conf.tag_len then
    .error (BadShadowsocks "SS2022 UDP XChaCha packet too short")
  else if upsk.length ≠ 32 then .error (BadShadowsocks "bad SS2022 XChaCha packet key")
  else match crypto.xchacha_decrypt upsk (input.take conf.packet_nonce_len)
      (input.drop conf.packet_nonce_len) with
    | none => .error (BadShadowsocks "SS2022 UDP decrypt failed")
    | some plain =>
      if plain.length < 16 then .error (BadShadowsocks "SS2022 UDP merged header too short")
      else .ok plain

def decode_merged_header_packet (crypto : Crypto) (conf : CipherConf2022) (cipher : String)
    (upsk input : List UInt8) (now : UInt64) : Except OutboundError Ss2022UdpDecodedPacket := do
  let plain ← open_merged_header_packet crypto conf upsk input
  let parsed ← parse_merged_message (plain.drop 16) now
  pure (decoded_packet cipher "merged-header-xchacha20-poly1305" (u64_at plain 0) (u64_at plain 8)
    parsed)

/-- The payload cipher of the last session is kept for the next packet. -/
def open_separate_header_packet (crypto : Crypto) (conf : CipherConf2022) (upsk : List UInt8)
    (payload_cipher : Option (UInt64 × Ss2022SeparatePayloadCipher))
    (separate_header sealed_payload : List UInt8) :
    Except OutboundError (List UInt8) × Option (UInt64 × Ss2022SeparatePayloadCipher) :=
  let session_id := u64_at separate_header 0
  let nonce := (separate_header.drop 4).take 12
  match payload_cipher.filter (·.1 == session_id) with
  | some (_, cipher) => (cipher.decrypt crypto nonce sealed_payload, payload_cipher)
  | none =>
    match separate_payload_cipher crypto conf upsk session_id with
    | .error err => (.error err, payload_cipher)
    | .ok cipher =>
      match cipher.decrypt crypto nonce sealed_payload with
      | .error err => (.error err, payload_cipher)
      | .ok payload => (.ok payload, some (session_id, cipher))

def decode_separate_header_server_packet (crypto : Crypto) (conf : CipherConf2022) (cipher : String)
    (upsk : List UInt8) (header_cipher : Ss2022AesBlockCipher)
    (payload_cipher : Option (UInt64 × Ss2022SeparatePayloadCipher)) (input : List UInt8)
    (now : UInt64) : Except OutboundError Ss2022UdpDecodedPacket ×
      Option (UInt64 × Ss2022SeparatePayloadCipher) :=
  if input.length < AES_BLOCK_LEN then
    (.error (BadShadowsocks "SS2022 UDP server packet missing separate header"), payload_cipher)
  else match header_cipher.decrypt_block crypto (input.take AES_BLOCK_LEN) with
    | .error err => (.error err, payload_cipher)
    | .ok separate_header =>
      let (payload, payload_cipher) := open_separate_header_packet crypto conf upsk payload_cipher
        separate_header (input.drop AES_BLOCK_LEN)
      (do
        let parsed ← parse_server_message (← payload) now
        pure (decoded_packet cipher "aes-separate-header" (u64_at separate_header 0)
          (u64_at separate_header 8) parsed),
        payload_cipher)

/-! ## Sessions -/

/-- What decoding uses of a codec. -/
structure Ss2022UdpCodec where
  conf : CipherConf2022
  cipher : String
  upsk : List UInt8
  server_header_cipher : Ss2022AesBlockCipher
  server_payload_cipher : Option (UInt64 × Ss2022SeparatePayloadCipher)
  session_id : UInt64
  server_replay : Ss2022UdpReplayTable

namespace Ss2022UdpCodec

def new_with_replay_policy (crypto : Crypto) (cipher password : String) (session_id : UInt64)
    (replay_policy : Ss2022UdpReplayPolicy) : Except OutboundError Ss2022UdpCodec := do
  let conf ← require_cipher_conf cipher
  let psk_list ← parse_psk_list crypto password conf.key_len
  match psk_list.getLast? with
  | none => throw (BadShadowsocks "SS2022 PSK list is empty")
  | some upsk =>
    let _ ← Ss2022AesBlockCipher.new (psk_list.headD [])
    let server_header_cipher ← Ss2022AesBlockCipher.new upsk
    if conf.packet_cipher = false then
      let _ ← separate_payload_cipher crypto conf upsk session_id
    let server_replay ← Ss2022UdpReplayTable.new replay_policy
    pure {
      conf := conf
      cipher := cipher
      upsk := upsk
      server_header_cipher := server_header_cipher
      server_payload_cipher := none
      session_id := session_id
      server_replay := server_replay }

/-- The packet as it was opened, before the replay table is asked. -/
def open_server_packet (crypto : Crypto) (self : Ss2022UdpCodec) (input : List UInt8)
    (now : UInt64) : Except OutboundError Ss2022UdpDecodedPacket ×
      Option (UInt64 × Ss2022SeparatePayloadCipher) :=
  if self.conf.packet_cipher then
    (decode_merged_header_packet crypto self.conf self.cipher self.upsk input now,
      self.server_payload_cipher)
  else
    decode_separate_header_server_packet crypto self.conf self.cipher self.upsk
      self.server_header_cipher self.server_payload_cipher input now

/-- The tests between opening a packet and asking the replay table. -/
def validate_server_packet (self : Ss2022UdpCodec) (decoded : Ss2022UdpDecodedPacket) :
    Except OutboundError Unit :=
  if decoded.packet_type ≠ HEADER_TYPE_SERVER_PACKET then
    .error (BadShadowsocks
      s!"SS2022 UDP expected server packet type {HEADER_TYPE_SERVER_PACKET}, got {decoded.packet_type}")
  else if decoded.client_session_id ≠ some self.session_id then
    .error (BadShadowsocks "SS2022 UDP server packet client session mismatch")
  else .ok ()

def decode_server_packet (crypto : Crypto) (self : Ss2022UdpCodec) (input : List UInt8)
    (now : UInt64) : Except OutboundError Ss2022UdpDecodedPacket × Ss2022UdpCodec :=
  let (opened, payload_cipher) := self.open_server_packet crypto input now
  let self := { self with server_payload_cipher := payload_cipher }
  match opened with
  | .error err => (.error err, self)
  | .ok decoded =>
    match self.validate_server_packet decoded with
    | .error err => (.error err, self)
    | .ok () =>
      let (result, server_replay) := self.server_replay.check decoded.session_id decoded.packet_id now
      (result.map fun _ => decoded, { self with server_replay := server_replay })

end Ss2022UdpCodec

end DaeNext.Ss2022
