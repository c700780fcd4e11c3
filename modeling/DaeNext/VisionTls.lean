/-
The TLS filter of Vision (`dae-resident-transport/src/vision/tls_state.rs`, `tls_record_observer.rs`,
`tls_version.rs`, `record_prefix.rs` and `command.rs`).

The filter watches the TLS records of both directions. The client's hello turns it on; the server's
hello decides what the first application data of the client is sent with: `direct` for TLS 1.3 with
a usual cipher suite, `end` for anything else.

Records are taken apart by the `tls_parser` crate, a parameter here (`TlsParser`).
-/
import DaeNext.VisionPadding

set_option autoImplicit false

namespace DaeNext.Vision

def TLS_CONTENT_TYPE_APPLICATION_DATA : UInt8 := 23

def TLS_CONTENT_TYPE_HANDSHAKE : UInt8 := 22

def TLS_RECORD_HEADER_LEN : Nat := 5

def TLS_RECORD_MAX_PAYLOAD_LEN : Nat := 16 * 1024 + 2048

def VISION_TLS_OBSERVE_LIMIT : Nat := 64 * 1024

def TLS13_AES_128_CCM_8_SHA256 : UInt16 := 0x1305

/-! ## `tls_parser` -/

structure TlsRecordHeader where
  record_type : UInt8
  len : UInt16
deriving DecidableEq

inductive TlsMessageHandshake where
  | ClientHello (ext : Option (List UInt8))
  | ServerHello (ext : Option (List UInt8)) (cipher : UInt16)
  | ServerHelloV13Draft18 (version : UInt16) (ext : Option (List UInt8)) (cipher : UInt16)
  | Other

inductive TlsMessage where
  | Handshake (message : TlsMessageHandshake)
  | Other

structure TlsPlaintext where
  hdr : TlsRecordHeader
  msg : List TlsMessage

inductive TlsExtension where
  | SupportedVersions (versions : List UInt16)
  | Other

/-- `nom::Err`. -/
inductive ParseError where
  | Incomplete
  | Failed

structure TlsParser where
  parse_tls_record_header : List UInt8 → Except ParseError TlsRecordHeader
  parse_tls_plaintext : List UInt8 → Option TlsPlaintext
  parse_tls_client_hello_extension : List UInt8 → Option (List UInt8 × TlsExtension)
  parse_tls_server_hello_extension : List UInt8 → Option (List UInt8 × TlsExtension)

/-! ## Versions -/

/-- The loop of `parse_supported_versions`; `none` from `parse` is an error. -/
def supported_versions_from (parse : List UInt8 → Option (List UInt8 × TlsExtension))
    (input : List UInt8) : Option (List UInt16) :=
  if input = [] then none
  else
    match parse input with
    | some (_, .SupportedVersions versions) => some versions
    | some (remaining, .Other) =>
      if remaining.length < input.length then supported_versions_from parse remaining else none
    | none => none
termination_by input.length

def parse_supported_versions (extensions : Option (List UInt8))
    (parse : List UInt8 → Option (List UInt8 × TlsExtension)) : Option (List UInt16) :=
  extensions.bind (supported_versions_from parse)

/-- `TlsVersion::Tls13`. -/
def supported_versions_contains_tls13 (versions : List UInt16) : Bool := versions.contains 0x0304

variable (parser : TlsParser)

def client_hello_advertises_tls13 (extensions : Option (List UInt8)) : Option Bool :=
  (parse_supported_versions extensions parser.parse_tls_client_hello_extension).map
    supported_versions_contains_tls13

def server_hello_selects_tls13 (extensions : Option (List UInt8)) : Bool :=
  ((parse_supported_versions extensions parser.parse_tls_server_hello_extension).map
    supported_versions_contains_tls13).getD false

/-! ## Records -/

/-- The loop of `observe_tls_records` on what is behind `consumed_total`; `none` where the buffer is
cleared. -/
def observe_tls_records_from {σ : Type} (observe : σ → TlsPlaintext → σ) (input : List UInt8)
    (state : σ) : Option (List UInt8) × σ :=
  match parser.parse_tls_record_header input with
  | .error .Incomplete => (some input, state)
  | .error .Failed => (none, state)
  | .ok header =>
    if ¬ (20 ≤ header.record_type ∧ header.record_type ≤ 24) ∨
        TLS_RECORD_MAX_PAYLOAD_LEN < header.len.toNat then
      (none, state)
    else if _hshort : input.length < TLS_RECORD_HEADER_LEN + header.len.toNat then (some input, state)
    else
      let record := input.take (TLS_RECORD_HEADER_LEN + header.len.toNat)
      observe_tls_records_from observe (input.drop (TLS_RECORD_HEADER_LEN + header.len.toNat))
        ((parser.parse_tls_plaintext record).elim state (observe state))
termination_by input.length
decreasing_by
  rw [List.length_drop]
  unfold TLS_RECORD_HEADER_LEN at *
  omega

/-- The result, the buffer and what was observed. -/
def observe_tls_records {σ : Type} (observe : σ → TlsPlaintext → σ) (pending payload : List UInt8)
    (state : σ) : Except String Unit × List UInt8 × σ :=
  match observe_tls_records_from parser observe (pending ++ payload) state with
  | (none, state) => (.ok (), [], state)
  | (some pending, state) =>
    if VISION_TLS_OBSERVE_LIMIT < pending.length then
      (.error s!"Vision TLS observation exceeds {VISION_TLS_OBSERVE_LIMIT} bytes", [], state)
    else (.ok (), pending, state)

/-! ## The state of the filter -/

inductive VisionTlsDecision where
  | Unknown
  | Direct
  | PlainOverlay
deriving DecidableEq, Repr

structure VisionInnerTlsState where
  client_pending : List UInt8 := []
  server_pending : List UInt8 := []
  decision : VisionTlsDecision := .Unknown
  client_tls_observed : Bool := false
  client_tls13_advertised : Option Bool := none

def tls13_cipher_allows_direct (cipher : UInt16) : Bool :=
  0x1301 ≤ cipher && cipher ≤ 0x1305 && cipher != TLS13_AES_128_CCM_8_SHA256

def server_hello_decision (selected_tls13 : Bool) (cipher_suite : UInt16) : VisionTlsDecision :=
  if selected_tls13 && tls13_cipher_allows_direct cipher_suite then .Direct else .PlainOverlay

/-- The observer of the client's records: whether a hello was seen, and its versions. -/
def observe_client_record (state : Bool × Option Bool) (record : TlsPlaintext) : Bool × Option Bool :=
  if record.hdr.record_type ≠ TLS_CONTENT_TYPE_HANDSHAKE then state
  else
    record.msg.foldl
      (fun state message =>
        match message with
        | .Handshake (.ClientHello ext) => (true, client_hello_advertises_tls13 parser ext)
        | _ => state)
      state

/-- The observer of the server's records. -/
def observe_server_record (decision : VisionTlsDecision) (record : TlsPlaintext) : VisionTlsDecision :=
  if record.hdr.record_type ≠ TLS_CONTENT_TYPE_HANDSHAKE then decision
  else
    record.msg.foldl
      (fun decision message =>
        if decision ≠ .Unknown then decision
        else
          match message with
          | .Handshake (.ServerHello ext cipher) =>
            server_hello_decision (server_hello_selects_tls13 parser ext) cipher
          | .Handshake (.ServerHelloV13Draft18 version ext cipher) =>
            server_hello_decision (server_hello_selects_tls13 parser ext || version == 0x7f12) cipher
          | _ => .Unknown)
      decision

namespace VisionInnerTlsState

variable (self : VisionInnerTlsState)

def observe_client_payload (payload : List UInt8) : Except String Unit × VisionInnerTlsState :=
  match observe_tls_records parser (observe_client_record parser) self.client_pending payload
      (self.client_tls_observed, self.client_tls13_advertised) with
  | (.error error, client_pending, _) => (.error error, { self with client_pending })
  | (.ok (), client_pending, (client_tls_observed, client_tls13_advertised)) =>
    (.ok (), { self with client_pending, client_tls_observed, client_tls13_advertised })

def observe_server_payload (payload : List UInt8) : Except String Unit × VisionInnerTlsState :=
  if self.decision ≠ .Unknown then (.ok (), self)
  else
    match observe_tls_records parser (observe_server_record parser) self.server_pending payload
        self.decision with
    | (.error error, server_pending, _) => (.error error, { self with server_pending })
    | (.ok (), server_pending, decision) => (.ok (), { self with server_pending, decision })

def application_data_command : Option UInt8 :=
  match self.decision with
  | .Unknown => none
  | .Direct => some VISION_COMMAND_DIRECT
  | .PlainOverlay => some VISION_COMMAND_END

def client_tls_filter_active : Bool :=
  self.client_tls_observed || self.client_pending.head? == some TLS_CONTENT_TYPE_HANDSHAKE

end VisionInnerTlsState

/-! ## Records at the front of a buffer -/

def could_be_tls_record_prefix : List UInt8 → Bool
  | [] => true
  | [kind] => 20 ≤ kind && kind ≤ 23
  | [kind, major] => 20 ≤ kind && kind ≤ 23 && major == 3
  | kind :: major :: minor :: rest =>
    20 ≤ kind && kind ≤ 23 && major == 3 && 1 ≤ minor && minor ≤ 4 &&
      match rest with
      | hi :: lo :: _ => Net.from_be_bytes [hi, lo] ≤ TLS_RECORD_MAX_PAYLOAD_LEN
      | _ => true

def looks_like_tls_record_start (pending : List UInt8) : Bool := could_be_tls_record_prefix pending

def should_continue_vision_tls_filtering (pending : List UInt8) (tls_state : VisionInnerTlsState) :
    Bool :=
  tls_state.client_tls_filter_active && looks_like_tls_record_start pending

/-- The type and the length of a complete record. -/
def peek_complete_tls_record (pending : List UInt8) : Except String (Option (UInt8 × Nat)) :=
  match pending with
  | record_type :: major :: minor :: hi :: lo :: _ =>
    if ¬ (20 ≤ record_type ∧ record_type ≤ 23) then
      .error s!"unexpected TLS record type before VLESS Vision uplink overlay switch: {record_type}"
    else if major ≠ 3 ∨ ¬ (1 ≤ minor ∧ minor ≤ 4) then
      .error ("unexpected TLS record version before VLESS Vision uplink overlay switch: " ++
        s!"{major}.{minor}")
    else
      let payload_len := Net.from_be_bytes [hi, lo]
      if TLS_RECORD_MAX_PAYLOAD_LEN < payload_len then
        .error s!"TLS record too large before VLESS Vision uplink overlay switch: {payload_len} bytes"
      else if pending.length < TLS_RECORD_HEADER_LEN + payload_len then .ok none
      else .ok (some (record_type, TLS_RECORD_HEADER_LEN + payload_len))
  | _ => .ok none

def vision_uplink_command (record_type : UInt8) (tls_state : VisionInnerTlsState) : Option UInt8 :=
  if record_type ≠ TLS_CONTENT_TYPE_APPLICATION_DATA then some VISION_COMMAND_CONTINUE
  else tls_state.application_data_command

theorem peek_complete_tls_record_bounds {pending : List UInt8} {record_type : UInt8} {record_len : Nat}
    (h : peek_complete_tls_record pending = .ok (some (record_type, record_len))) :
    TLS_RECORD_HEADER_LEN ≤ record_len ∧ record_len ≤ pending.length ∧
      record_len ≤ TLS_RECORD_HEADER_LEN + TLS_RECORD_MAX_PAYLOAD_LEN := by
  unfold peek_complete_tls_record at h
  split at h
  · dsimp only at h
    split_ifs at h with hkind hversion hlarge hshort
    · cases h
    · obtain ⟨_, rfl⟩ := Prod.mk.inj (Option.some.inj (Except.ok.inj h))
      omega
  · cases h

theorem length_of_peek_none {pending : List UInt8} (h : peek_complete_tls_record pending = .ok none) :
    pending.length < TLS_RECORD_HEADER_LEN + TLS_RECORD_MAX_PAYLOAD_LEN := by
  obtain hshort | ⟨kind, major, minor, hi, lo, rest, rfl⟩ := header_cases pending
  · unfold TLS_RECORD_HEADER_LEN
    omega
  · unfold peek_complete_tls_record at h
    dsimp only at h
    split_ifs at h with hkind hversion hlarge hshort
    · omega
    · cases h

end DaeNext.Vision
