/-
The duplex driver of Vision (`dae-resident-tcp/src/vless_relay/vision_duplex/driver.rs`, and the
response header of `vless_relay/support.rs`).

One `poll_cycle` writes to the client, writes to the proxy, reads from the proxy and reads from the
client, each at most once, and passes a close on. What the sockets answer in a cycle is `CycleIo`. The
driver stands beside `VisionIo`, the record of what passed over the sockets; nothing of the driver
depends on it.

An error ends the relay. Buffers are their contents; metrics and the capacity of buffers are left
out.
-/
import DaeNext.LibFallible
import DaeNext.VisionUplink

set_option autoImplicit false

namespace DaeNext.Vision

open Fallible

/-! ## The response header -/

def VLESS_RESPONSE_VERSION : UInt8 := 0

structure VlessResponseStripper where
  header : List UInt8 := []
  header_len : Option Nat := none
  done : Bool := false
deriving DecidableEq

namespace VlessResponseStripper

variable (self : VlessResponseStripper)

def version_error (version : UInt8) : String := s!"unexpected VLESS response version: {version}"

/-- A header of known length is filled up. -/
def fill (header_len : Nat) (input : List UInt8) : Except String (List UInt8) × VlessResponseStripper :=
  let take := min (header_len - self.header.length) input.length
  let self := { self with header := self.header ++ input.take take, header_len := some header_len }
  if self.header.length < header_len then (.ok [], self)
  else if self.header.head? ≠ some VLESS_RESPONSE_VERSION then
    (.error (version_error (self.header.headD 0)), self)
  else (.ok (input.drop take), { self with done := true })

def consume (input : List UInt8) : Except String (List UInt8) × VlessResponseStripper :=
  if self.done then (.ok input, self)
  else
    match self.header_len with
    | some header_len => self.fill header_len input
    | none =>
      match self.header, input with
      | [], version :: len :: _ =>
        if version ≠ VLESS_RESPONSE_VERSION then (.error (version_error version), self)
        else
          let header_len := 2 + len.toNat
          if header_len ≤ input.length then
            (.ok (input.drop header_len), { self with header_len := some header_len, done := true })
          else (.ok [], { self with header_len := some header_len, header := self.header ++ input })
      | _, _ =>
        let take := min (2 - self.header.length) input.length
        let self := { self with header := self.header ++ input.take take }
        match self.header with
        | version :: len :: _ =>
          if version ≠ VLESS_RESPONSE_VERSION then (.error (version_error version), self)
          else self.fill (2 + len.toNat) (input.drop take)
        | _ => (.ok [], self)

end VlessResponseStripper

/-! ## Sockets -/

inductive ErrorKind where
  | BrokenPipe
  | ConnectionAborted
  | ConnectionReset
  | NotConnected
  | Other
deriving DecidableEq

structure IoError where
  kind : ErrorKind
  message : String

def is_graceful_stream_close_error (error : IoError) : Bool :=
  error.kind == .BrokenPipe || error.kind == .ConnectionAborted || error.kind == .ConnectionReset ||
    error.kind == .NotConnected

def is_graceful_stream_close_message (message : String) : Bool :=
  ["Broken pipe", "Connection reset", "Connection aborted", "Not connected", "broken pipe",
    "connection reset", "connection aborted", "not connected"].any (Text.contains · message)

def is_graceful_tls_plain_close_error (error : IoError) : Bool :=
  is_graceful_stream_close_error error || is_graceful_stream_close_message error.message ||
    Text.contains "peer closed connection without sending TLS close_notify" error.message ||
    Text.contains "without sending TLS close_notify" error.message

def is_boringssl_tls_plain_close_after_response_message (message : String) : Bool :=
  Text.contains "[BAD_DECRYPT]" message &&
    Text.contains "[DECRYPTION_FAILED_OR_BAD_RECORD_MAC]" message

structure RelayStats where
  client_to_proxy : Nat := 0
  proxy_to_client : Nat := 0
  response_header_stripped : Bool := false
  vision_unpadding_blocks : Nat := 0
  vision_direct_command_seen : Bool := false
  vision_raw_direct_recovered : Bool := false
  vision_downlink_direct_active : Bool := false

def is_graceful_vless_response_tls_plain_close_error (error : IoError) (stats : RelayStats) : Bool :=
  (stats.response_header_stripped || 0 < stats.proxy_to_client) &&
    (is_graceful_tls_plain_close_error error ||
      is_boringssl_tls_plain_close_after_response_message error.message)

inductive PollIo (α : Type) where
  | Pending
  | Ready (value : α)
  | Failed (error : IoError)

/-- A read fills at most the relay's buffer; no bytes are a close. -/
abbrev RelayRead := { bytes : List UInt8 // bytes.length ≤ VISION_RELAY_BUFFER_SIZE }

/-- A poll of the proxy, and whether a handoff is there when the read is pending. -/
structure ProxyPoll where
  read : PollIo RelayRead
  handoff : Bool

/-- What the sockets answer in a cycle, should they be asked. The count of a write is cut to what
there is to write. -/
structure CycleIo where
  downlink_write : PollIo Nat := .Pending
  uplink_write : PollIo Nat := .Pending
  uplink_flush : PollIo Unit := .Pending
  inbound_shutdown : PollIo Unit := .Pending
  proxy_reads : List ProxyPoll := []
  inbound_read : PollIo RelayRead := .Pending
  proxy_shutdown : PollIo Unit := .Pending

structure VisionIo where
  from_client : List UInt8 := []
  from_proxy : List UInt8 := []
  from_proxy_raw : List UInt8 := []
  to_proxy : List UInt8 := []
  to_proxy_raw : List UInt8 := []
  to_client : List UInt8 := []
  /-- Client's bytes thrown away at its close. -/
  discarded : List UInt8 := []
  read_handoff_requested : Bool := false
  write_handoff_requested : Bool := false
  /-- A direct block was completed by bytes that gave no payload. -/
  silent_direct : Bool := false
  /-- The overlay was polled after a direct block without a handoff. -/
  late_overlay_read : Bool := false
  failed : Bool := false

/-! ## The driver -/

inductive VisionDownlinkState where
  | Overlay
  | DirectPending
  | DirectPass
deriving DecidableEq, Repr

/-- `uplink` holds the fields that `queue_vision_uplink` borrows, `direct_downlink` is the part of the
proxy's buffer of length `direct_downlink_len`. -/
structure VisionDuplexDriver where
  stats : RelayStats := {}
  response_stripper : VlessResponseStripper := {}
  unpadder : VisionUnpadder
  uplink : VisionUplink
  downlink_state : VisionDownlinkState := .Overlay
  uplink_write_offset : Nat := 0
  uplink_flush_pending : Bool := false
  pending_downlink : List UInt8 := []
  outer_read_handoff_pending : Bool := false
  direct_downlink : List UInt8 := []
  downlink_write_offset : Nat := 0
  inbound_closed : Bool := false
  proxy_closed : Bool := false
  proxy_write_shutdown : Bool := false

/-- The driver, the record, and the outcome of the cycle so far. -/
structure VisionRelay where
  driver : VisionDuplexDriver
  io : VisionIo := {}
  progressed : Bool := false
  complete : Bool := false

namespace VisionDuplexDriver

variable (parser : TlsParser) (user_uuid : Vector UInt8 16) (random : Nat → Nat)
  (self : VisionDuplexDriver)

def queue_uplink : Except String VisionDuplexDriver :=
  (VisionUplink.ok_or_end (self.uplink.queue_vision_uplink parser user_uuid random)).map
    fun uplink => { self with uplink }

variable {self} in
theorem queue_uplink_ok {next : VisionDuplexDriver} (h : self.queue_uplink parser user_uuid random = .ok next) :
    ∃ uplink, self.uplink.queue_vision_uplink parser user_uuid random = (.ok (), uplink) ∧
      next = { self with uplink } := by
  rw [queue_uplink] at h
  rcases hresult : self.uplink.queue_vision_uplink parser user_uuid random with ⟨_ | _, uplink⟩
  · rw [hresult] at h
    cases h
  · rw [hresult] at h
    exact ⟨uplink, rfl, (Except.ok.inj h).symm⟩

def pending_downlink_bytes : List UInt8 :=
  if self.direct_downlink ≠ [] then self.direct_downlink else self.pending_downlink

/-- Whether the handoff is to be requested. -/
def consume_unpadded_overlay_payload (payload : List UInt8) : Except String (Bool × VisionDuplexDriver) :=
  if payload = [] then .ok (false, { self with pending_downlink := [] })
  else do
    let (observed, tls_state) := self.uplink.tls_state.observe_server_payload parser payload
    observed
    let request_handoff :=
      self.unpadder.direct_command_seen && decide (self.downlink_state = .Overlay)
    let self := { self with
      uplink := { self.uplink with tls_state }
      stats := { self.stats with
        vision_unpadding_blocks := self.unpadder.completed_blocks
        vision_direct_command_seen := self.unpadder.direct_command_seen }
      downlink_state := if request_handoff then .DirectPending else self.downlink_state }
    let self ← self.queue_uplink parser user_uuid random
    .ok (request_handoff, { self with pending_downlink := payload })

end VisionDuplexDriver

namespace VisionRelay

variable (parser : TlsParser) (user_uuid : Vector UInt8 16) (random : Nat → Nat) (self : VisionRelay)

def set_driver (driver : VisionDuplexDriver) : VisionRelay := { self with driver }

/-- The bytes of the overlay go through the stripper and the unpadder. -/
def consume_overlay (bytes : List UInt8) : Except String (Bool × VisionRelay) := do
  let (stripped, response_stripper) := self.driver.response_stripper.consume bytes
  let stripped ← stripped
  let (payload, unpadder) := self.driver.unpadder.consume stripped
  let payload ← payload
  let driver := { self.driver with
    response_stripper
    unpadder
    stats := { self.driver.stats with response_header_stripped := response_stripper.done } }
  let (request_handoff, driver) ←
    driver.consume_unpadded_overlay_payload parser user_uuid random payload
  .ok (request_handoff, { self with
    driver
    io := { self.io with
      from_proxy := self.io.from_proxy ++ bytes
      silent_direct := self.io.silent_direct || (payload.isEmpty &&
        unpadder.direct_command_seen && !self.driver.unpadder.direct_command_seen) } })

def new_with_response_prefix (initial_payload response_bytes : List UInt8) : Except String VisionRelay := do
  let uplink ← VisionUplink.new initial_payload
  let driver : VisionDuplexDriver :=
    { stats := { client_to_proxy := initial_payload.length }
      unpadder := VisionUnpadder.new user_uuid
      uplink }
  let driver ← driver.queue_uplink parser user_uuid random
  let self : VisionRelay := { driver, io := { from_client := initial_payload } }
  if response_bytes = [] then .ok self
  else do
    let (request_handoff, self) ← self.consume_overlay parser user_uuid random response_bytes
    .ok (self.set_driver { self.driver with outer_read_handoff_pending := request_handoff })

/-! ## The steps of a cycle -/

def request_read_handoff : VisionRelay :=
  { self with io := { self.io with read_handoff_requested := true } }

def begin_cycle : VisionRelay :=
  let self := { self with progressed := false }
  if self.driver.outer_read_handoff_pending then
    { self.request_read_handoff with
      driver := { self.driver with outer_read_handoff_pending := false }
      progressed := true }
  else self

def fail : VisionRelay := { self with io := { self.io with failed := true } }

def poll_downlink_write (answer : PollIo Nat) : Except String VisionRelay :=
  let pending := self.driver.pending_downlink_bytes
  let offset := self.driver.downlink_write_offset
  if pending.length ≤ offset then .ok self
  else
    match answer with
    | .Pending => .ok self
    | .Ready count =>
      let written := min count (pending.length - offset)
      if written = 0 then .error "write zero"
      else
        let io := { self.io with to_client := self.io.to_client ++ (pending.drop offset).take written }
        if offset + written = pending.length then
          .ok { self with
            driver := { self.driver with
              stats := { self.driver.stats with
                proxy_to_client := self.driver.stats.proxy_to_client + pending.length }
              pending_downlink := []
              direct_downlink := []
              downlink_write_offset := 0 }
            io
            progressed := true }
        else
          .ok { self with
            driver := { self.driver with downlink_write_offset := offset + written }
            io
            progressed := true }
    | .Failed error =>
      if is_graceful_stream_close_error error then
        .ok { self.fail with
          driver := { self.driver with
            proxy_closed := true
            pending_downlink := []
            direct_downlink := []
            downlink_write_offset := 0 }
          progressed := true }
      else .error s!"write VLESS Vision payload to inbound TCP: {error.message}"

def write_proxy (mode : VisionUplinkWriteMode) (bytes : List UInt8) : VisionIo :=
  match mode with
  | .PlainOverlay => { self.io with to_proxy := self.io.to_proxy ++ bytes }
  | .DirectPass =>
    { self.io with to_proxy_raw := self.io.to_proxy_raw ++ bytes, write_handoff_requested := true }

def poll_uplink_write (answer : PollIo Nat) (flush : PollIo Unit) : Except String VisionRelay :=
  match self.driver.uplink.writes with
  | [] => .ok self
  | write :: writes =>
    let offset := self.driver.uplink_write_offset
    if offset < write.payload.length then
      match answer with
      | .Pending => .ok { self with io := self.write_proxy write.mode [] }
      | .Ready count =>
        let written := min count (write.payload.length - offset)
        if written = 0 then .error "write zero"
        else
          .ok { self with
            driver := { self.driver with
              uplink_write_offset := offset + written
              uplink_flush_pending := decide (offset + written = write.payload.length) ||
                self.driver.uplink_flush_pending }
            io := self.write_proxy write.mode ((write.payload.drop offset).take written)
            progressed := true }
      | .Failed error => .error s!"write VLESS Vision uplink payload: {error.message}"
    else if self.driver.uplink_flush_pending then
      match flush with
      | .Pending => .ok self
      | .Ready _ =>
        .ok { self with
          driver := { self.driver with
            uplink := { self.driver.uplink with writes }
            uplink_write_offset := 0
            uplink_flush_pending := false }
          progressed := true }
      | .Failed error => .error s!"flush VLESS Vision uplink payload: {error.message}"
    else .ok self

def poll_inbound_shutdown (answer : PollIo Unit) : Except String VisionRelay :=
  if self.driver.proxy_closed = true ∧ self.driver.pending_downlink_bytes = [] then
    match answer with
    | .Pending => .ok self
    | .Ready _ => .ok { self with complete := true }
    | .Failed error =>
      if is_graceful_stream_close_error error then .ok { self.fail with complete := true }
      else .error s!"shutdown inbound TCP after VLESS Vision response: {error.message}"
  else .ok self

/-- A read of no bytes, or an error that counts as one. -/
def close_proxy : VisionRelay :=
  { self with driver := { self.driver with proxy_closed := true }, progressed := true }

def poll_overlay : VisionRelay :=
  { self with
    io := { self.io with
      late_overlay_read := self.io.late_overlay_read ||
        (self.driver.unpadder.direct_command_seen &&
          (decide (self.driver.downlink_state = .Overlay) || !self.io.read_handoff_requested)) } }

def proxy_read_overlay (bytes : List UInt8) : Except String VisionRelay := do
  let (request_handoff, self) ← self.consume_overlay parser user_uuid random bytes
  let self := if request_handoff then self.request_read_handoff else self
  .ok { self with driver := { self.driver with downlink_write_offset := 0 }, progressed := true }

def proxy_read_direct (bytes : List UInt8) : VisionRelay :=
  { self with
    driver := { self.driver with direct_downlink := bytes, downlink_write_offset := 0 }
    io := { self.io with from_proxy_raw := self.io.from_proxy_raw ++ bytes }
    progressed := true }

/-- The handoff is there. -/
def activate_direct : VisionRelay :=
  self.set_driver { self.driver with
    downlink_state := .DirectPass
    stats := { self.driver.stats with
      vision_raw_direct_recovered := true
      vision_downlink_direct_active := true } }

/-- The loop of `poll_proxy_read`. -/
def poll_proxy_read (self : VisionRelay) : List ProxyPoll → Except String VisionRelay
  | [] => .ok (if self.driver.downlink_state = .DirectPass then self else self.poll_overlay)
  | poll :: polls =>
    if self.driver.downlink_state = .DirectPass then
      match poll.read with
      | .Ready bytes => if bytes.1 = [] then .ok self.close_proxy else .ok (self.proxy_read_direct bytes)
      | .Failed error =>
        if is_graceful_stream_close_error error then .ok self.fail.close_proxy
        else .error s!"read VLESS Vision proxy response: {error.message}"
      | .Pending => .ok self
    else
      let self := self.poll_overlay
      match poll.read with
      | .Ready bytes =>
        if bytes.1 = [] then .ok self.close_proxy
        else self.proxy_read_overlay parser user_uuid random bytes
      | .Failed error =>
        if is_graceful_vless_response_tls_plain_close_error error self.driver.stats then
          .ok self.fail.close_proxy
        else .error s!"read VLESS Vision proxy response: {error.message}"
      | .Pending =>
        if poll.handoff then
          if self.driver.downlink_state = .DirectPending then
            poll_proxy_read self.activate_direct polls
          else poll_proxy_read self polls
        else .ok self

def proxy_read_step (polls : List ProxyPoll) : Except String VisionRelay :=
  if self.driver.proxy_closed = false ∧ self.driver.pending_downlink_bytes = [] then
    self.poll_proxy_read parser user_uuid random polls
  else .ok self

/-- The client's close. What waits for more of a record is thrown away. -/
def close_inbound : VisionRelay :=
  { self with
    driver := { self.driver with
      inbound_closed := true
      uplink := { self.driver.uplink with pending := [] } }
    io := { self.io with discarded := self.driver.uplink.pending }
    progressed := true }

def poll_inbound_read (answer : PollIo RelayRead) : Except String VisionRelay :=
  match answer with
  | .Pending => .ok self
  | .Ready bytes =>
    if bytes.1 = [] then .ok self.close_inbound
    else do
      let uplink ← VisionUplink.ok_or_end
        (self.driver.uplink.accept_inbound parser user_uuid random bytes)
      .ok { self with
        driver := { self.driver with
          uplink
          stats := { self.driver.stats with
            client_to_proxy := self.driver.stats.client_to_proxy + bytes.1.length } }
        io := { self.io with from_client := self.io.from_client ++ bytes }
        progressed := true }
  | .Failed error =>
    if is_graceful_stream_close_error error then .ok self.fail.close_inbound
    else .error s!"read inbound TCP for VLESS Vision: {error.message}"

def inbound_read_step (answer : PollIo RelayRead) : Except String VisionRelay :=
  if self.driver.proxy_closed = false ∧ self.driver.inbound_closed = false ∧
      self.driver.uplink.writes = [] then
    self.poll_inbound_read parser user_uuid random answer
  else .ok self

def poll_proxy_shutdown (answer : PollIo Unit) : Except String VisionRelay :=
  if self.driver.inbound_closed = true ∧ self.driver.uplink.writes = [] ∧
      self.driver.proxy_write_shutdown = false then
    match answer with
    | .Pending => .ok self
    | .Ready _ =>
      .ok { self with driver := { self.driver with proxy_write_shutdown := true }, progressed := true }
    | .Failed error =>
      if is_graceful_stream_close_error error then
        .ok { self.fail with
          driver := { self.driver with proxy_write_shutdown := true }
          progressed := true }
      else .error s!"shutdown VLESS Vision proxy upload: {error.message}"
  else .ok self

/-- The event of the cycle is `complete`, or else whether it made progress. -/
def poll_cycle (io : CycleIo) : Except String VisionRelay := do
  let self ← self.begin_cycle.poll_downlink_write io.downlink_write
  let self ← self.poll_uplink_write io.uplink_write io.uplink_flush
  let self ← self.poll_inbound_shutdown io.inbound_shutdown
  if self.complete then .ok self
  else do
    let self ← self.proxy_read_step parser user_uuid random io.proxy_reads
    let self ← self.inbound_read_step parser user_uuid random io.inbound_read
    self.poll_proxy_shutdown io.proxy_shutdown

def cycle (io : CycleIo) : Except String VisionRelay :=
  if self.complete then .ok self else self.poll_cycle parser user_uuid random io

def run (initial_payload response_bytes : List UInt8) (cycles : List CycleIo) :
    Except String VisionRelay := do
  let self ← new_with_response_prefix parser user_uuid random initial_payload response_bytes
  cycles.foldlM (fun self io => self.cycle parser user_uuid random io) self

/-! ## What bytes of the overlay do -/

/-- The driver after payload was unpadded. -/
def after_payload (response_stripper : VlessResponseStripper) (unpadder : VisionUnpadder)
    (uplink : VisionUplink) (request_handoff : Bool) (payload : List UInt8) : VisionDuplexDriver :=
  { self.driver with
    response_stripper
    unpadder
    uplink
    stats := { self.driver.stats with
      response_header_stripped := response_stripper.done
      vision_unpadding_blocks := unpadder.completed_blocks
      vision_direct_command_seen := unpadder.direct_command_seen }
    downlink_state := if request_handoff then .DirectPending else self.driver.downlink_state
    pending_downlink := payload }

/-- The driver after bytes without payload. -/
def after_silence (response_stripper : VlessResponseStripper) (unpadder : VisionUnpadder) :
    VisionDuplexDriver :=
  { self.driver with
    response_stripper
    unpadder
    stats := { self.driver.stats with response_header_stripped := response_stripper.done }
    pending_downlink := [] }

/-- The record after bytes of the overlay. -/
def after_overlay (bytes payload : List UInt8) (unpadder : VisionUnpadder) : VisionIo :=
  { self.io with
    from_proxy := self.io.from_proxy ++ bytes
    silent_direct := self.io.silent_direct || (payload.isEmpty &&
      unpadder.direct_command_seen && !self.driver.unpadder.direct_command_seen) }

variable {self}

variable {next : VisionRelay}

theorem consume_overlay_ok {bytes : List UInt8} {request_handoff : Bool}
    (h : self.consume_overlay parser user_uuid random bytes = .ok (request_handoff, next)) :
    ∃ stripped response_stripper payload unpadder,
      self.driver.response_stripper.consume bytes = (.ok stripped, response_stripper) ∧
      self.driver.unpadder.consume stripped = (.ok payload, unpadder) ∧
      (payload = [] ∧ request_handoff = false ∧
          next = { self with
            driver := self.after_silence response_stripper unpadder
            io := self.after_overlay bytes payload unpadder } ∨
        payload ≠ [] ∧ request_handoff =
            (unpadder.direct_command_seen && decide (self.driver.downlink_state = .Overlay)) ∧
          ∃ tls_state uplink,
            { self.driver.uplink with tls_state }.queue_vision_uplink parser user_uuid random
              = (.ok (), uplink) ∧
            next = { self with
              driver := self.after_payload response_stripper unpadder uplink request_handoff payload
              io := self.after_overlay bytes payload unpadder }) := by
  rw [consume_overlay] at h
  rcases hstrip : self.driver.response_stripper.consume bytes with ⟨result, response_stripper⟩
  rw [hstrip] at h
  obtain ⟨stripped, hstripped, hrest⟩ := bind_ok h
  rcases hunpad : self.driver.unpadder.consume stripped with ⟨result', unpadder⟩
  rw [hunpad] at hrest
  obtain ⟨payload, hpayload, hrest⟩ := bind_ok hrest
  obtain ⟨⟨request, driver⟩, hconsume, ⟨⟩⟩ := bind_pure_ok hrest
  refine ⟨stripped, response_stripper, payload, unpadder, ?_, ?_, ?_⟩
  · rw [hstripped]
  · rw [← hpayload, hunpad]
  · rw [VisionDuplexDriver.consume_unpadded_overlay_payload] at hconsume
    split_ifs at hconsume with hempty
    · cases hconsume
      exact .inl ⟨hempty, rfl, rfl⟩
    · rcases hobserve : self.driver.uplink.tls_state.observe_server_payload parser payload with
        ⟨observed, tls_state⟩
      rw [hobserve] at hconsume
      obtain ⟨_, _, hconsume⟩ := bind_ok hconsume
      obtain ⟨queued, hqueue, ⟨⟩⟩ := bind_pure_ok hconsume
      obtain ⟨uplink, hresult, rfl⟩ := VisionDuplexDriver.queue_uplink_ok _ _ _ hqueue
      exact .inr ⟨hempty, rfl, tls_state, uplink, hresult, rfl⟩

/-! ## Invariants -/

/-- What a poll of the proxy can do. -/
inductive ProxyReads : VisionRelay → VisionRelay → Prop
  | overlay_pending (self : VisionRelay) (h : self.driver.downlink_state ≠ .DirectPass) :
      ProxyReads self self.poll_overlay
  | overlay_close (self : VisionRelay) (h : self.driver.downlink_state ≠ .DirectPass) :
      ProxyReads self self.poll_overlay.close_proxy
  | overlay_failed (self : VisionRelay) (h : self.driver.downlink_state ≠ .DirectPass) :
      ProxyReads self self.poll_overlay.fail.close_proxy
  | overlay_bytes {self next : VisionRelay} (bytes : List UInt8)
      (h : self.driver.downlink_state ≠ .DirectPass) (hne : bytes ≠ [])
      (hnext : self.poll_overlay.proxy_read_overlay parser user_uuid random bytes = .ok next) :
      ProxyReads self next
  | handoff {self next : VisionRelay} (h : self.driver.downlink_state = .DirectPending)
      (hnext : ProxyReads self.poll_overlay.activate_direct next) : ProxyReads self next
  | no_handoff {self next : VisionRelay} (h : self.driver.downlink_state = .Overlay)
      (hnext : ProxyReads self.poll_overlay next) : ProxyReads self next
  | direct_pending (self : VisionRelay) (h : self.driver.downlink_state = .DirectPass) : ProxyReads self self
  | direct_close (self : VisionRelay) (h : self.driver.downlink_state = .DirectPass) :
      ProxyReads self self.close_proxy
  | direct_failed (self : VisionRelay) (h : self.driver.downlink_state = .DirectPass) :
      ProxyReads self self.fail.close_proxy
  | direct_bytes (self : VisionRelay) (bytes : List UInt8)
      (h : self.driver.downlink_state = .DirectPass) (hne : bytes ≠ []) :
      ProxyReads self (self.proxy_read_direct bytes)

variable {parser user_uuid random}

variable {self : VisionRelay}

theorem poll_proxy_read_reads (polls : List ProxyPoll)
    (h : self.poll_proxy_read parser user_uuid random polls = .ok next) :
    ProxyReads parser user_uuid random self next := by
  revert h
  fun_induction poll_proxy_read parser user_uuid random self polls with
  | case1 self =>
    rintro ⟨⟩
    split_ifs with hpass
    · exact .direct_pending self hpass
    · exact .overlay_pending self hpass
  | case2 self _ _ hpass => rintro ⟨⟩; exact .direct_close self hpass
  | case3 self _ _ hpass bytes _ hempty => rintro ⟨⟩; exact .direct_bytes self bytes hpass hempty
  | case4 self _ _ hpass => rintro ⟨⟩; exact .direct_failed self hpass
  | case5 | case10 => intro h; cases h
  | case6 _ _ _ hpass => rintro ⟨⟩; exact .direct_pending _ hpass
  | case7 self _ _ hpass => rintro ⟨⟩; exact .overlay_close self hpass
  | case8 _ _ _ hpass _ bytes _ hempty => exact .overlay_bytes bytes hpass hempty
  | case9 self _ _ hpass => rintro ⟨⟩; exact .overlay_failed self hpass
  | case11 _ _ _ _ _ _ _ hpending ih => exact fun h => .handoff hpending (ih h)
  | case12 self _ _ hpass _ _ _ hpending ih =>
    refine fun h => .no_handoff ?_ (ih h)
    cases hstate : self.driver.downlink_state with
    | Overlay => rfl
    | DirectPending => exact absurd hstate hpending
    | DirectPass => exact absurd hstate hpass
  | case13 self _ _ hpass => intro h; exact Except.ok.inj h ▸ .overlay_pending self hpass

variable (parser user_uuid random)

/-- `P` holds between cycles, `Q` from the first step of a cycle to its last. -/
structure Invariant (P Q : VisionRelay → Prop) : Prop where
  begin_cycle : ∀ {self : VisionRelay}, P self → Q self.begin_cycle
  poll_downlink_write : ∀ {self next : VisionRelay} {answer : PollIo Nat}, Q self →
    self.poll_downlink_write answer = .ok next → Q next
  poll_uplink_write : ∀ {self next : VisionRelay} {answer : PollIo Nat} {flush : PollIo Unit}, Q self →
    self.poll_uplink_write answer flush = .ok next → Q next
  poll_inbound_shutdown : ∀ {self next : VisionRelay} {answer : PollIo Unit}, Q self →
    self.poll_inbound_shutdown answer = .ok next → Q next
  proxy_reads : ∀ {self next : VisionRelay}, Q self → self.driver.proxy_closed = false →
    self.driver.pending_downlink_bytes = [] → ProxyReads parser user_uuid random self next → Q next
  inbound_read_step : ∀ {self next : VisionRelay} {answer : PollIo RelayRead}, Q self →
    self.inbound_read_step parser user_uuid random answer = .ok next → Q next
  poll_proxy_shutdown : ∀ {self next : VisionRelay} {answer : PollIo Unit}, Q self →
    self.poll_proxy_shutdown answer = .ok next → Q next
  end_cycle : ∀ {self : VisionRelay}, Q self → P self

namespace Invariant

variable {parser user_uuid random} {P Q : VisionRelay → Prop}

theorem cycle (hP : Invariant parser user_uuid random P Q) {io : CycleIo} (hself : P self)
    (h : self.cycle parser user_uuid random io = .ok next) : P next := by
  rw [VisionRelay.cycle] at h
  split_ifs at h with hcomplete
  · cases h
    exact hself
  · obtain ⟨written, hwritten, h⟩ := bind_ok h
    obtain ⟨sent, hsent, h⟩ := bind_ok h
    obtain ⟨shut, hshut, h⟩ := bind_ok h
    have hQshut : Q shut := hP.poll_inbound_shutdown (hP.poll_uplink_write (hP.poll_downlink_write
      (hP.begin_cycle hself) hwritten) hsent) hshut
    split_ifs at h with hdone
    · cases h
      exact hP.end_cycle hQshut
    · obtain ⟨read, hread, h⟩ := bind_ok h
      obtain ⟨accepted, haccepted, h⟩ := bind_ok h
      have hQread : Q read := by
        rw [proxy_read_step] at hread
        split_ifs at hread with hopen
        · exact hP.proxy_reads hQshut hopen.1 hopen.2 (poll_proxy_read_reads _ hread)
        · cases hread
          exact hQshut
      exact hP.end_cycle (hP.poll_proxy_shutdown (hP.inbound_read_step hQread haccepted) h)

theorem run (hP : Invariant parser user_uuid random P Q) {initial_payload response_bytes : List UInt8}
    {cycles : List CycleIo} {relay : VisionRelay}
    (hstart : ∀ {relay : VisionRelay}, new_with_response_prefix parser user_uuid random initial_payload
      response_bytes = .ok relay → P relay)
    (h : VisionRelay.run parser user_uuid random initial_payload response_bytes cycles = .ok relay) :
    P relay := by
  obtain ⟨start, hnew, h⟩ := bind_ok h
  have hfold : ∀ (cycles : List CycleIo) {self : VisionRelay}, P self →
      cycles.foldlM (fun self io => self.cycle parser user_uuid random io) self = .ok relay → P relay := by
    intro cycles
    induction cycles with
    | nil =>
      intro self hself hrun
      cases hrun
      exact hself
    | cons io cycles ih =>
      intro self hself hrun
      obtain ⟨next, hnext, hrun⟩ := bind_ok hrun
      exact ih (hP.cycle hself hnext) hrun
  exact hfold cycles (hstart hnew) h

end Invariant

/-! ### Steps that leave the downlink alone -/

/-- The relay with another one's downlink. -/
def with_downlink (self other : VisionRelay) : VisionRelay :=
  { self with
    driver := { self.driver with
      response_stripper := other.driver.response_stripper
      unpadder := other.driver.unpadder
      downlink_state := other.driver.downlink_state
      pending_downlink := other.driver.pending_downlink
      outer_read_handoff_pending := other.driver.outer_read_handoff_pending
      direct_downlink := other.driver.direct_downlink
      downlink_write_offset := other.driver.downlink_write_offset
      proxy_closed := other.driver.proxy_closed }
    io := { self.io with
      from_proxy := other.io.from_proxy
      from_proxy_raw := other.io.from_proxy_raw
      to_client := other.io.to_client
      read_handoff_requested := other.io.read_handoff_requested
      silent_direct := other.io.silent_direct
      late_overlay_read := other.io.late_overlay_read } }

structure SameDownlink (relay next : VisionRelay) : Prop where
  same : next = next.with_downlink relay
  failed : next.io.failed = false → relay.io.failed = false

namespace SameDownlink

variable {parser user_uuid random}

theorem poll_uplink_write {answer : PollIo Nat} {flush : PollIo Unit}
    (h : self.poll_uplink_write answer flush = .ok next) : SameDownlink self next := by
  revert h
  fun_cases self.poll_uplink_write answer flush with
  | case2 _ write | case4 _ write => rintro ⟨⟩; cases hmode : write.mode <;> exact ⟨rfl, id⟩
  | case3 | case5 | case8 => intro h; cases h
  | _ => rintro ⟨⟩; exact ⟨rfl, id⟩

theorem poll_inbound_shutdown {answer : PollIo Unit}
    (h : self.poll_inbound_shutdown answer = .ok next) : SameDownlink self next := by
  revert h
  fun_cases self.poll_inbound_shutdown answer with
  | case3 => rintro ⟨⟩; exact ⟨rfl, nofun⟩
  | case4 => intro h; cases h
  | _ => rintro ⟨⟩; exact ⟨rfl, id⟩

theorem inbound_read_step {answer : PollIo RelayRead}
    (h : self.inbound_read_step parser user_uuid random answer = .ok next) : SameDownlink self next := by
  revert h
  fun_cases self.inbound_read_step parser user_uuid random answer with
  | case1 =>
    fun_cases self.poll_inbound_read parser user_uuid random answer with
    | case3 =>
      intro h
      obtain ⟨uplink, _, rfl⟩ := bind_pure_ok h
      exact ⟨rfl, id⟩
    | case4 => rintro ⟨⟩; exact ⟨rfl, nofun⟩
    | case5 => intro h; cases h
    | _ => rintro ⟨⟩; exact ⟨rfl, id⟩
  | case2 => rintro ⟨⟩; exact ⟨rfl, id⟩

theorem poll_proxy_shutdown {answer : PollIo Unit}
    (h : self.poll_proxy_shutdown answer = .ok next) : SameDownlink self next := by
  revert h
  fun_cases self.poll_proxy_shutdown answer with
  | case3 => rintro ⟨⟩; exact ⟨rfl, nofun⟩
  | case4 => intro h; cases h
  | _ => rintro ⟨⟩; exact ⟨rfl, id⟩

/-- What is left to show of an invariant of the downlink. -/
theorem invariant {P Q : VisionRelay → Prop}
    (begin_cycle : ∀ {self : VisionRelay}, P self → Q self.begin_cycle)
    (poll_downlink_write : ∀ {self next : VisionRelay} {answer : PollIo Nat}, Q self →
      self.poll_downlink_write answer = .ok next → Q next)
    (proxy_reads : ∀ {self next : VisionRelay}, Q self → self.driver.proxy_closed = false →
      self.driver.pending_downlink_bytes = [] → ProxyReads parser user_uuid random self next → Q next)
    (same : ∀ {self next : VisionRelay}, Q self → SameDownlink self next → Q next)
    (end_cycle : ∀ {self : VisionRelay}, Q self → P self) : Invariant parser user_uuid random P Q where
  begin_cycle := begin_cycle
  poll_downlink_write := poll_downlink_write
  poll_uplink_write := fun h hnext => same h (SameDownlink.poll_uplink_write hnext)
  poll_inbound_shutdown := fun h hnext => same h (SameDownlink.poll_inbound_shutdown hnext)
  proxy_reads := proxy_reads
  inbound_read_step := fun h hnext => same h (SameDownlink.inbound_read_step hnext)
  poll_proxy_shutdown := fun h hnext => same h (SameDownlink.poll_proxy_shutdown hnext)
  end_cycle := end_cycle

end SameDownlink

end VisionRelay

end DaeNext.Vision
