/-
The multiplexed DNS upstream over UDP (`udp_multiplex/actor.rs`).

Callers queue requests, each with a one-shot channel for its answer. The actor gives a request an
id of the allocator, sends it under that id and keeps it in `pending`; a datagram that arrives is
matched by its id and its questions. Requests also leave by expiry, by a failed send, when their
caller has gone, and when the actor stops.

Channels are numbered in the order of the requests. `asked` has the payloads in that order and
`sends` all that was sent on channels, so the two are a journal of the run.

Readings of the clock, random ids and results of socket calls are arguments: `now 0`, `now 1`, ...
are the readings of one call in their order. The steps are the calls of the actor's loop; a run
is any sequence of them, between which callers come and go.
-/
import DaeNext.DnsMultiplex

set_option autoImplicit false

namespace DaeNext.Dns

/-! ## The actor -/

structure UdpMultiplexActorConfig where
  target : String
  queue_capacity : Nat
  pending_capacity : Nat
  inflight_window : Nat
  send_batch_limit : Nat
  attempt_timeout : Nat
deriving DecidableEq, Repr

structure UdpMultiplexRequest where
  payload : List UInt8
  deadline : Nat
  response : Nat
deriving DecidableEq, Repr

structure PendingDnsQuestion where
  qname_wire : List UInt8
  qtype : UInt16
  qclass : UInt16
deriving DecidableEq, Repr

structure PendingUdpRequest where
  upstream_id : UInt16
  original_id : UInt16
  generation : UInt64
  deadline : Nat
  questions : List PendingDnsQuestion
  response : Nat
deriving DecidableEq, Repr

structure PendingUdpDeadline where
  id : UInt16
  generation : UInt64
  deadline : Nat
deriving DecidableEq, Repr

structure PreparedUdpMultiplexRequest where
  upstream_id : UInt16
  payload : List UInt8
deriving DecidableEq, Repr

def PendingDnsQuestion.matches (self : PendingDnsQuestion) (qname_wire : List UInt8)
    (qtype qclass : UInt16) : Bool :=
  self.qtype == qtype && self.qclass == qclass &&
    Text.eq_ignore_ascii_case self.qname_wire qname_wire

def pending_dns_questions (request : DnsPacketView) : List PendingDnsQuestion :=
  request.questions.collect.map fun question =>
    { qname_wire := question.qname_wire, qtype := question.qtype, qclass := question.qclass }

/-- The variables of the actor, with the queue of its receiver. `abandoned` has the channels whose
caller does not wait any more. -/
structure UdpMultiplexActor where
  pending : Table UInt16 PendingUdpRequest
  id_allocator : DnsRequestIdAllocator
  deadlines : List PendingUdpDeadline
  next_generation : UInt64
  receiver : List UdpMultiplexRequest
  closed : Bool
  abandoned : List Nat
  asked : List (List UInt8)
  sends : List (Nat × Except String (List UInt8))

namespace UdpMultiplexActor

def new (config : UdpMultiplexActorConfig) : UdpMultiplexActor where
  pending := ∅
  id_allocator := .new config.attempt_timeout
  deadlines := []
  next_generation := 1
  receiver := []
  closed := false
  abandoned := []
  asked := []
  sends := []

variable (self : UdpMultiplexActor)

/-- `response.send(result)`. -/
def send (response : Nat) (result : Except String (List UInt8)) : UdpMultiplexActor :=
  { self with sends := self.sends ++ [(response, result)] }

/-- `pending.remove(&id)` and `id_allocator.release(id)`. -/
def retire (id : UInt16) (now : Nat) : UdpMultiplexActor :=
  { self with
    pending := self.pending.erase id
    id_allocator := self.id_allocator.release_at id now }

/-! ### New requests -/

/-- Insert a request under the id it got; the generation is never zero. -/
def insert_pending (config : UdpMultiplexActorConfig) (request : UdpMultiplexRequest)
    (view : DnsPacketView) (upstream_id : UInt16) (now : Nat) : UdpMultiplexActor :=
  let deadline := min request.deadline (now + config.attempt_timeout)
  let generation := self.next_generation
  { self with
    next_generation := if generation + 1 = 0 then 1 else generation + 1
    pending := self.pending.insert upstream_id
      { upstream_id
        original_id := view.id
        generation
        deadline
        questions := pending_dns_questions view
        response := request.response }
    deadlines := self.deadlines ++ [{ id := upstream_id, generation, deadline }] }

def prepare_udp_multiplex_request (config : UdpMultiplexActorConfig)
    (request : UdpMultiplexRequest) (now : Nat → Nat) (random : Nat → Except String UInt16) :
    Option PreparedUdpMultiplexRequest × UdpMultiplexActor :=
  if self.pending.size ≥ config.pending_capacity then
    (none, self.send request.response (.error "DNS UDP multiplex pending queue is full"))
  else if request.deadline ≤ now 0 then
    (none, self.send request.response
      (.error "DNS UDP multiplex request deadline expired before admission"))
  else
    match DnsPacketView.parse request.payload with
    | .error err =>
      (none, self.send request.response
        (.error ("parse DNS UDP multiplex request: " ++ err.to_string)))
    | .ok view =>
      match self.id_allocator.allocate_at config.pending_capacity (now 1) random with
      | (.error err, id_allocator) =>
        (none, { self with id_allocator }.send request.response (.error err))
      | (.ok upstream_id, id_allocator) =>
        (some { upstream_id,
                payload := rewrite_dns_packet_id_in_place request.payload upstream_id },
          { self with id_allocator }.insert_pending config request view upstream_id (now 2))

/-- `error` is that of the socket call, where it failed. -/
def send_prepared_udp_request (config : UdpMultiplexActorConfig)
    (request : PreparedUdpMultiplexRequest) (error : Option String) (now : Nat) :
    UdpMultiplexActor :=
  match error with
  | none => self
  | some err =>
    match self.pending[request.upstream_id]? with
    | none => self
    | some pending =>
      (self.retire request.upstream_id now).send pending.response
        (.error ("send DNS UDP multiplex packet to " ++ config.target ++ ": " ++ err))

/-- What the actor meets while it handles a batch: for each request of it the readings of the
clock and the random ids, how many datagrams `sendmmsg` took (none where it failed), and for each
single send its error and the reading of the clock after it. -/
structure Conditions where
  now : Nat → Nat → Nat
  random : Nat → Nat → Except String UInt16
  sent : Nat
  errors : Nat → Option String
  released : Nat → Nat

/-- The loop of preparations: request `i` of the batch is the next one. -/
def prepare_all (config : UdpMultiplexActorConfig) (conditions : Conditions) :
    Nat → List UdpMultiplexRequest → UdpMultiplexActor →
      List PreparedUdpMultiplexRequest × UdpMultiplexActor
  | _, [], self => ([], self)
  | i, request :: requests, self =>
    let (prepared, self) := self.prepare_udp_multiplex_request config request
      (conditions.now i) (conditions.random i)
    let (rest, self) := prepare_all config conditions (i + 1) requests self
    (prepared.toList ++ rest, self)

/-- The loop of single sends. -/
def send_all (config : UdpMultiplexActorConfig) (conditions : Conditions) :
    Nat → List PreparedUdpMultiplexRequest → UdpMultiplexActor → UdpMultiplexActor
  | _, [], self => self
  | i, request :: prepared, self =>
    send_all config conditions (i + 1) prepared
      (self.send_prepared_udp_request config request (conditions.errors i) (conditions.released i))

/-- The request that was received first is handled together with those queued behind it. -/
def handle_udp_multiplex_requests (config : UdpMultiplexActorConfig)
    (request : UdpMultiplexRequest) (conditions : Conditions) : UdpMultiplexActor :=
  let ready_limit :=
    min config.send_batch_limit (max (config.inflight_window - self.pending.size) 1)
  let requests := request :: self.receiver.take (ready_limit - 1)
  let self := { self with receiver := self.receiver.drop (ready_limit - 1) }
  let (prepared, self) := prepare_all config conditions 0 requests self
  if prepared.length ≤ 1 then send_all config conditions 0 prepared self
  else send_all config conditions 0 (prepared.drop conditions.sent) self

def receive_request (config : UdpMultiplexActorConfig) (conditions : Conditions) :
    UdpMultiplexActor :=
  if self.pending.size < config.inflight_window then
    match self.receiver with
    | [] => self
    | request :: receiver =>
      { self with receiver }.handle_udp_multiplex_requests config request conditions
  else self

/-! ### Datagrams -/

/-- The loop over the questions of both sides, from `index` on. -/
def match_pending_questions : Nat → List PendingDnsQuestion → List DnsPacketQuestionView →
    Except String Unit
  | index, want :: wants, got :: gots =>
    if want.matches got.qname_wire got.qtype got.qclass then
      match_pending_questions (index + 1) wants gots
    else .error s!"validate DNS UDP multiplex response: question mismatch at index {index}"
  | _, _, _ => .ok ()

def validate_dns_udp_multiplex_response_for_request (pending : PendingUdpRequest)
    (response : DnsPacketView) : Except String Unit :=
  if response.response = false then
    .error "validate DNS UDP multiplex response: DNS request received"
  else if response.id ≠ pending.upstream_id then
    let got := response.id
    let want := pending.upstream_id
    .error s!"validate DNS UDP multiplex response: id mismatch got {got} want {want}"
  else if pending.questions.isEmpty then .ok ()
  else if response.question_count.toNat = 0 then
    .error "validate DNS UDP multiplex response: missing question"
  else if response.question_count.toNat ≠ pending.questions.length then
    let got := response.question_count
    let want := pending.questions.length
    .error s!"validate DNS UDP multiplex response: question count mismatch got {got} want {want}"
  else match_pending_questions 0 pending.questions response.questions.collect

def validate_and_restore_udp_multiplex_response (pending : PendingUdpRequest)
    (response : List UInt8) : Except String (List UInt8) := do
  let response_view ← Fallible.map_err
    (fun err => "parse DNS UDP multiplex response: " ++ err.to_string)
    (DnsPacketView.parse response)
  validate_dns_udp_multiplex_response_for_request pending response_view
  match restore_packed_response_request_id response pending.original_id with
  | none => throw "DNS UDP multiplex response is too short to restore request id"
  | some restored => pure restored

def handle_udp_multiplex_response (response : List UInt8) (now : Nat) : UdpMultiplexActor :=
  match dns_packet_id response with
  | .error _ => self
  | .ok response_id =>
    match self.pending[response_id]? with
    | none => self
    | some pending_request =>
      match validate_and_restore_udp_multiplex_response pending_request response with
      | .error _ => self
      | .ok restored_response =>
        (self.retire response_id now).send pending_request.response (.ok restored_response)

/-! ### Expiry, cancellation and failure -/

/-- The loop of `expire_pending_udp_requests` over the deadlines that are left. -/
def expire_from (now : Nat) (released : Nat → Nat) :
    List PendingUdpDeadline → UdpMultiplexActor → UdpMultiplexActor
  | [], self => { self with deadlines := [] }
  | deadline :: deadlines, self =>
    match self.pending[deadline.id]? with
    | none => expire_from now released deadlines self
    | some request =>
      if request.generation ≠ deadline.generation ∨ request.deadline ≠ deadline.deadline then
        expire_from now released deadlines self
      else if request.deadline > now ∧ request.response ∉ self.abandoned then
        { self with deadlines := deadline :: deadlines }
      else
        expire_from now released deadlines
          ((self.retire deadline.id (released deadlines.length)).send request.response
            (.error "DNS UDP multiplex pending request timed out"))

def expire_pending_udp_requests (now : Nat) (released : Nat → Nat) : UdpMultiplexActor :=
  expire_from now released self.deadlines self

def retire_all (now : Nat → Nat) : List UInt16 → UdpMultiplexActor → UdpMultiplexActor
  | [], self => self
  | id :: ids, self => retire_all now ids (self.retire id (now ids.length))

def cancel_abandoned_udp_requests (now : Nat → Nat) : UdpMultiplexActor :=
  let cancelled := self.pending.toList.filter fun entry => entry.2.response ∈ self.abandoned
  retire_all now (cancelled.map Prod.fst) self

/-- The loop of `fail_pending_udp_requests` over the entries that were taken. -/
def fail_all (error : String) (now : Nat → Nat) :
    List (UInt16 × PendingUdpRequest) → UdpMultiplexActor → UdpMultiplexActor
  | [], self => self
  | (id, request) :: entries, self =>
    fail_all error now entries
      ({ self with id_allocator := self.id_allocator.release_at id (now entries.length) }.send
        request.response (.error error))

def fail_pending_udp_requests (error : String) (now : Nat → Nat) : UdpMultiplexActor :=
  fail_all error now self.pending.toList { self with pending := ∅ }

def fail_queued_udp_requests (error : String) : UdpMultiplexActor :=
  { self with
    receiver := []
    sends := self.sends ++ self.receiver.map fun request => (request.response, .error error) }

/-- The loop of `next_udp_multiplex_deadline`: stale deadlines at the front go. -/
def next_deadline_from : List PendingUdpDeadline → Option Nat × UdpMultiplexActor
  | [] => (none, { self with deadlines := [] })
  | deadline :: deadlines =>
    match self.pending[deadline.id]? with
    | none => next_deadline_from deadlines
    | some request =>
      if request.generation ≠ deadline.generation ∨ request.deadline ≠ deadline.deadline then
        next_deadline_from deadlines
      else (some deadline.deadline, { self with deadlines := deadline :: deadlines })

def next_udp_multiplex_deadline : Option Nat × UdpMultiplexActor :=
  self.next_deadline_from self.deadlines

/-- The branch of `stop`, and that of an error of the socket: the receiver is closed, and what is
pending or queued fails. -/
def shut_down (pending_error queued_error : String) (now : Nat → Nat) : UdpMultiplexActor :=
  ({ self with closed := true }.fail_pending_udp_requests pending_error now).fail_queued_udp_requests
    queued_error

/-! ## Steps -/

inductive Event where
  | request (payload : List UInt8) (deadline : Nat)
  | abandon (response : Nat)
  | receive (conditions : Conditions)
  | datagram (bytes : List UInt8) (now : Nat)
  | expire (now : Nat) (released : Nat → Nat)
  | next_deadline
  | cancel (now : Nat → Nat)
  | stop (now : Nat → Nat)
  | fail (err : String) (now : Nat → Nat)

def request (config : UdpMultiplexActorConfig) (payload : List UInt8) (deadline : Nat) :
    UdpMultiplexActor :=
  if self.closed ∨ self.receiver.length ≥ config.queue_capacity then self
  else
    { self with
      receiver := self.receiver ++ [{ payload, deadline, response := self.asked.length }]
      asked := self.asked ++ [payload] }

def step (config : UdpMultiplexActorConfig) : Event → UdpMultiplexActor
  | .request payload deadline => self.request config payload deadline
  | .abandon response => { self with abandoned := response :: self.abandoned }
  | .receive conditions => self.receive_request config conditions
  | .datagram bytes now => self.handle_udp_multiplex_response bytes now
  | .expire now released => self.expire_pending_udp_requests now released
  | .next_deadline => self.next_udp_multiplex_deadline.2
  | .cancel now => self.cancel_abandoned_udp_requests now
  | .stop now =>
    self.shut_down "DNS UDP multiplex actor is shutting down"
      "DNS UDP multiplex actor is shutting down" now
  | .fail err now =>
    self.shut_down ("receive DNS UDP multiplex response from " ++ config.target ++ ": " ++ err)
      "DNS UDP multiplex actor stopped after socket failure" now

def run (config : UdpMultiplexActorConfig) (events : List Event) : UdpMultiplexActor :=
  Run.after (step · config) (new config) events

end UdpMultiplexActor

end DaeNext.Dns
