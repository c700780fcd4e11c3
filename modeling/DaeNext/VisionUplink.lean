/-
The client's bytes on their way into Vision (`dae-resident-transport/src/vision/uplink.rs`, and the
parts of `dae-resident-tcp/src/vless_relay/vision_duplex/driver.rs` that fill the buffer).

The first bytes go out as one block. After that TLS records are sent a block each, and the last
record of a batch carries the terminal command once the filter has decided. Bytes that are no TLS
records end the padding.

`random` gives the random numbers in the order they are drawn.
-/
import DaeNext.VisionTls

set_option autoImplicit false

namespace DaeNext.Vision

inductive VisionUplinkWriteMode where
  | PlainOverlay
  | DirectPass
deriving DecidableEq, Repr

structure VisionUplinkWrite where
  mode : VisionUplinkWriteMode
  payload : List UInt8
deriving DecidableEq

inductive VisionUplinkState where
  | Padding
  | PlainOverlay
  | DirectPass
deriving DecidableEq, Repr

/-- What `queue_vision_uplink` borrows of the driver, and the count of random numbers. -/
structure VisionUplink where
  pending : List UInt8
  writes : List VisionUplinkWrite
  uuid_sent : Bool
  first_block : Bool
  state : VisionUplinkState
  tls_state : VisionInnerTlsState
  drawn : Nat

def VISION_RELAY_BUFFER_SIZE : Nat := 32 * 1024

def VISION_PENDING_UPLINK_LIMIT : Nat := TLS_RECORD_MAX_PAYLOAD_LEN * 4

def pending_uplink_limit_error (bytes : Nat) : String :=
  s!"pending Vision uplink payload did not form complete TLS records: {bytes} bytes"

namespace VisionUplink

variable (parser : TlsParser) (user_uuid : Vector UInt8 16) (random : Nat → Nat) (self : VisionUplink)

def queue_vision_write (mode : VisionUplinkWriteMode) (payload : List UInt8) : VisionUplink :=
  if payload = [] then self else { self with writes := self.writes ++ [{ mode, payload }] }

/-- `queue_vision_write` of a `vision_padding_block`. -/
def queue_block (payload : List UInt8) (command : UInt8) (long_padding : Bool) : VisionUplink :=
  let padding_len := vision_padding_len payload.length long_padding (random self.drawn)
  let (block, uuid_sent) := vision_padding_block payload command user_uuid self.uuid_sent padding_len
  { self.queue_vision_write .PlainOverlay block with uuid_sent, drawn := self.drawn + 1 }

/-- The bytes left when there is no padding (any more). -/
def queue_pending (mode : VisionUplinkWriteMode) : VisionUplink :=
  { self with pending := [] }.queue_vision_write mode self.pending

/-- The command of the record at the front; `none` while the filter has not decided. -/
def record_command (record_type : UInt8) (record_len : Nat) : Option UInt8 :=
  if record_type = TLS_CONTENT_TYPE_APPLICATION_DATA ∧ record_len = self.pending.length then
    vision_uplink_command record_type self.tls_state
  else some VISION_COMMAND_CONTINUE

/-- The state after a block with the command. -/
def state_after (command : UInt8) : VisionUplinkState :=
  if command = VISION_COMMAND_END then .PlainOverlay
  else if command = VISION_COMMAND_DIRECT then .DirectPass
  else self.state

/-- The loop over records, and what follows it. -/
def queue_records (self : VisionUplink) : Except String Unit × VisionUplink :=
  if self.pending ≠ [] ∧ self.state = .Padding then
    if !should_continue_vision_tls_filtering self.pending self.tls_state then
      (.ok (), { { self with pending := [] }.queue_block user_uuid random self.pending VISION_COMMAND_END
        false with state := .PlainOverlay })
    else
      match _hpeek : peek_complete_tls_record self.pending with
      | .error error => (.error error, self)
      | .ok none => (.ok (), self)
      | .ok (some (record_type, record_len)) =>
        match self.record_command record_type record_len with
        | none => (.ok (), self)
        | some command =>
          match self.tls_state.observe_client_payload parser (self.pending.take record_len) with
          | (.error error, tls_state) =>
            (.error error, { self with pending := self.pending.drop record_len, tls_state })
          | (.ok (), tls_state) =>
            queue_records
              { { self with pending := [], tls_state }.queue_block user_uuid random
                  (self.pending.take record_len) command true with
                pending := self.pending.drop record_len
                state := self.state_after command }
  else
    match self.state with
    | .Padding => (.ok (), self)
    | .PlainOverlay => (.ok (), self.queue_pending .PlainOverlay)
    | .DirectPass => (.ok (), self.queue_pending .DirectPass)
termination_by self.pending.length
decreasing_by
  obtain ⟨hpos, hle, _⟩ := peek_complete_tls_record_bounds _hpeek
  rw [List.length_drop]
  unfold TLS_RECORD_HEADER_LEN at hpos
  omega

def queue_vision_uplink : Except String Unit × VisionUplink :=
  match self.state with
  | .PlainOverlay => (.ok (), self.queue_pending .PlainOverlay)
  | .DirectPass => (.ok (), self.queue_pending .DirectPass)
  | .Padding =>
    if self.first_block = true ∧ self.pending ≠ [] then
      match self.tls_state.observe_client_payload parser self.pending with
      | (.error error, tls_state) => (.error error, { self with pending := [], tls_state })
      | (.ok (), tls_state) =>
        (.ok (), { { self with pending := [], tls_state }.queue_block user_uuid random self.pending
          VISION_COMMAND_CONTINUE (looks_like_tls_record_start self.pending) with first_block := false })
    else self.queue_records parser user_uuid random

/-- The buffers of a new driver; the first payload must be within the limit. -/
def new (initial_payload : List UInt8) : Except String VisionUplink :=
  if VISION_PENDING_UPLINK_LIMIT < initial_payload.length then
    .error (pending_uplink_limit_error initial_payload.length)
  else
    .ok
      { pending := initial_payload
        writes := []
        uuid_sent := false
        first_block := true
        state := .Padding
        tls_state := {}
        drawn := 0 }

/-- What `poll_inbound_read` does with bytes it has read. -/
def accept_inbound (bytes : List UInt8) : Except String Unit × VisionUplink :=
  let self := { self with pending := self.pending ++ bytes }
  if VISION_PENDING_UPLINK_LIMIT < self.pending.length then
    (.error (pending_uplink_limit_error self.pending.length), self)
  else self.queue_vision_uplink parser user_uuid random

end VisionUplink

/-! ## Runs -/

/-- A read of the client's bytes, as many as the buffer takes at most, or a turn of the TLS filter on
the other direction, after which the driver queues again. -/
inductive UplinkEvent where
  | inbound_read (bytes : { bytes : List UInt8 // bytes.length ≤ VISION_RELAY_BUFFER_SIZE })
  | tls_filter (tls_state : VisionInnerTlsState)

def UplinkEvent.bytes : UplinkEvent → List UInt8
  | .inbound_read bytes => bytes
  | .tls_filter _ => []

namespace VisionUplink

variable (parser : TlsParser) (user_uuid : Vector UInt8 16) (random : Nat → Nat)

def handle (self : VisionUplink) : UplinkEvent → Except String Unit × VisionUplink
  | .inbound_read bytes => self.accept_inbound parser user_uuid random bytes
  | .tls_filter tls_state => { self with tls_state }.queue_vision_uplink parser user_uuid random

/-- An error ends the relay. -/
def ok_or_end (result : Except String Unit × VisionUplink) : Except String VisionUplink :=
  result.1.map fun _ => result.2

/-- The writes stay in the list here when they have been sent. -/
def run (initial_payload : List UInt8) (events : List UplinkEvent) : Except String VisionUplink := do
  let self ← new initial_payload
  let self ← ok_or_end (self.queue_vision_uplink parser user_uuid random)
  events.foldlM (fun self event => ok_or_end (self.handle parser user_uuid random event)) self

end VisionUplink

end DaeNext.Vision
