/-
The multiplexed DNS upstream over TCP (`tcp_multiplex.rs`).

A caller first takes a slot of the connection (`reserve_slot`), gets a token and then sends its
request into the queue of commands; the slot is given back when the request is dropped, wherever
that happens. The actor admits queued requests under an id of the allocator, with the token as a
second key for cancellation and an entry in the heap of deadlines. A response frame takes the
request under its id out of the table and is checked only then.

A caller is `entering` from the checks of `exchange` until it has tried to get a slot, and
`waiting` from there until its request is in the queue: other callers and the actor may run in
between. One-shot channels are numbered in the order of the slots; `asked` has the payloads in that
order and `sends` all that was sent on channels.
-/
import DaeNext.DnsMultiplex

set_option autoImplicit false

namespace DaeNext.Dns

/-! ## Errors -/

/-- The `Debug` text of the errors of a check. -/
def DnsValidationError.debug : DnsValidationError → String
  | .DnsResponseNil => "DnsResponseNil"
  | .DnsRequestReceived => "DnsRequestReceived"
  | .MissingQuestion => "MissingQuestion"
  | .QuestionCountMismatch got want =>
    s!"QuestionCountMismatch \x7b got: {got}, want: {want} \x7d"
  | .QuestionMismatch index => s!"QuestionMismatch \x7b index: {index} \x7d"
  | .IdMismatch got want => s!"IdMismatch \x7b got: {got}, want: {want} \x7d"

/-! ## The connection -/

def RESIDENT_UDP_RESPONSE_TIMEOUT : Nat := 8000000000

structure ResidentDnsTcpMultiplexRequest where
  token : UInt64
  payload : List UInt8
  deadline : Nat
  response : Nat
deriving DecidableEq, Repr

inductive ResidentDnsTcpMultiplexCommand where
  | Request (request : ResidentDnsTcpMultiplexRequest)
  | Cancel (token : UInt64)
deriving DecidableEq, Repr

structure ResidentDnsTcpPendingRequest where
  token : UInt64
  original_id : UInt16
  generation : UInt64
  request : List UInt8
  deadline : Nat
  response : Nat
deriving DecidableEq, Repr

/-- `TrySendError` of the queue of the writer. -/
inductive TrySendError where
  | Full | Closed
deriving DecidableEq, Repr

/-- Until the loop ends; until the registration is dropped; from then on. -/
inductive Phase where
  | Running | Stopping | Stopped
deriving DecidableEq, Repr

/-- An entry of the heap: deadline, id, generation. -/
abbrev DeadlineEntry := Nat × UInt16 × UInt64

/-- The order of the entries; a `BinaryHeap` of `Reverse` pops the least. -/
def DeadlineEntry.le (a b : DeadlineEntry) : Prop :=
  a.1 < b.1 ∨ a.1 = b.1 ∧ (a.2.1 < b.2.1 ∨ a.2.1 = b.2.1 ∧ a.2.2 ≤ b.2.2)

instance : DecidableRel DeadlineEntry.le := fun a b =>
  inferInstanceAs (Decidable (a.1 < b.1 ∨ a.1 = b.1 ∧ (a.2.1 < b.2.1 ∨ a.2.1 = b.2.1 ∧ a.2.2 ≤ b.2.2)))

structure DnsTcpMultiplex where
  capacity : Nat
  active : Nat
  next_token : UInt64
  closing : Bool
  phase : Phase
  entering : List (List UInt8 × Nat)
  waiting : List ResidentDnsTcpMultiplexRequest
  commands : List ResidentDnsTcpMultiplexCommand
  pending : Table UInt16 ResidentDnsTcpPendingRequest
  tokens : Table UInt64 UInt16
  deadlines : List DeadlineEntry
  allocator : DnsRequestIdAllocator
  generation : UInt64
  abandoned : List Nat
  asked : List (List UInt8)
  sends : List (Nat × Except ProxyDnsRequestError (List UInt8))

namespace DnsTcpMultiplex

def new (capacity : Nat) : DnsTcpMultiplex where
  capacity := min (max capacity 1) 65536
  active := 0
  next_token := 1
  closing := false
  phase := .Running
  entering := []
  waiting := []
  commands := []
  pending := ∅
  tokens := ∅
  deadlines := []
  allocator := .new RESIDENT_UDP_RESPONSE_TIMEOUT
  generation := 0
  abandoned := []
  asked := []
  sends := []

variable (self : DnsTcpMultiplex)

/-- The queue of commands is closed when the registration is dropped. -/
def is_closed : Bool := self.closing || self.phase = .Stopped

def send (response : Nat) (result : Except ProxyDnsRequestError (List UInt8)) : DnsTcpMultiplex :=
  { self with sends := self.sends ++ [(response, result)] }

/-- `release_resident_dns_tcp_slot`, when a reservation is dropped. -/
def release_slot : DnsTcpMultiplex := { self with active := self.active - 1 }

/-- A request fails: the error is sent, and the request is dropped with its reservation. -/
def fail (response : Nat) (error : ProxyDnsRequestError) : DnsTcpMultiplex :=
  (self.send response (.error error)).release_slot

/-- `pending.remove`, `tokens.remove` and `allocator.release`. -/
def unlink (id : UInt16) (token : UInt64) (now : Nat) : DnsTcpMultiplex :=
  { self with
    pending := self.pending.erase id
    tokens := self.tokens.erase token
    allocator := self.allocator.release_at id now }

/-! ### Callers -/

/-- `exchange` up to `reserve_slot`; where it returns an error nothing is left. -/
def enter (payload : List UInt8) (deadline : Nat) : DnsTcpMultiplex :=
  if self.is_closed then self
  else if payload.length > 65535 then self
  else { self with entering := self.entering ++ [(payload, deadline)] }

/-- `reserve_slot` by a caller that is entering. -/
def reserve_slot (caller : Nat) : DnsTcpMultiplex :=
  match self.entering[caller]? with
  | none => self
  | some (payload, deadline) =>
    let self := { self with entering := self.entering.eraseIdx caller }
    if self.active < self.capacity then
      { self with
        active := self.active + 1
        next_token := self.next_token + 1
        waiting := self.waiting
          ++ [{ token := self.next_token, payload, deadline, response := self.asked.length }]
        asked := self.asked ++ [payload] }
    else self

/-- The request of a waiting caller goes into the queue, where there is room. -/
def enqueue (caller : Nat) : DnsTcpMultiplex :=
  match self.waiting[caller]? with
  | none => self
  | some request =>
    if self.phase = .Stopped ∨ self.commands.length ≥ self.capacity then self
    else
      { self with
        waiting := self.waiting.eraseIdx caller
        commands := self.commands ++ [.Request request] }

/-- A waiting caller meets the closed queue or its deadline, or is dropped. -/
def give_up (caller : Nat) : DnsTcpMultiplex :=
  match self.waiting[caller]? with
  | none => self
  | some _ => { self with waiting := self.waiting.eraseIdx caller }.release_slot

/-- A caller whose request was queued is dropped: it asks for the cancellation, where the queue
has room. -/
def abandon (response : Nat) (token : UInt64) : DnsTcpMultiplex :=
  let self := { self with abandoned := response :: self.abandoned }
  if self.phase = .Stopped ∨ self.commands.length ≥ self.capacity then self
  else { self with commands := self.commands ++ [.Cancel token] }

def close : DnsTcpMultiplex := { self with closing := true }

/-! ### The actor -/

def parse_error (text : String) (err : DnsError) : ProxyDnsRequestError where
  stage := .Parse
  failure := .Protocol
  detail := text ++ err.to_string

/-- The part of `admit_resident_dns_tcp_request` after an id was found; `write` is the error of
the queue of the writer. -/
def admit_with_id (request : ResidentDnsTcpMultiplexRequest) (generation : UInt64)
    (original_id id : UInt16) (now : Nat) (write : Option TrySendError) : DnsTcpMultiplex :=
  let payload := with_id request.payload id
  match DnsPacketView.parse payload with
  | .error err =>
    { self with allocator := self.allocator.release_at id now }.fail request.response
      (parse_error "parse DNS TCP multiplex request: " err)
  | .ok _ =>
    match write with
    | some error =>
      { self with allocator := self.allocator.release_at id now }.fail request.response
        { stage := .Send
          failure := match error with | .Full => .Capacity | .Closed => .Network
          detail := "DNS TCP multiplex writer queue is unavailable" }
    | none =>
      { self with
        deadlines := self.deadlines.orderedInsert DeadlineEntry.le (request.deadline, id, generation)
        tokens := self.tokens.insert request.token id
        pending := self.pending.insert id
          { token := request.token
            original_id
            generation
            request := payload
            deadline := request.deadline
            response := request.response } }

/-- The readings of the clock are `now 0` for the deadline, `now 1` for the allocation and
`now 2` for a release. -/
def admit_resident_dns_tcp_request (request : ResidentDnsTcpMultiplexRequest)
    (generation : UInt64) (capacity : Nat) (now : Nat → Nat)
    (random : Nat → Except String UInt16) (write : Option TrySendError) : DnsTcpMultiplex :=
  if request.response ∈ self.abandoned then self.release_slot
  else if request.deadline ≤ now 0 then
    self.fail request.response (ProxyDnsRequestError.deadline .Pending)
  else
    match dns_packet_id request.payload with
    | .error error =>
      self.fail request.response { stage := .Parse, failure := .Protocol, detail := error }
    | .ok original_id =>
      match self.allocator.allocate_at capacity (now 1) random with
      | (.error error, allocator) =>
        { self with allocator }.fail request.response
          { stage := .Identifier, failure := .Capacity, detail := error }
      | (.ok id, allocator) =>
        { self with allocator }.admit_with_id request generation original_id id (now 2) write

def cancel_resident_dns_tcp_request (token : UInt64) (now : Nat) : DnsTcpMultiplex :=
  match self.tokens[token]? with
  | none => self
  | some id =>
    match self.pending[id]? with
    | none => { self with tokens := self.tokens.erase token }
    | some _ => (self.unlink id token now).release_slot

def receive_command (now : Nat → Nat) (random : Nat → Except String UInt16)
    (write : Option TrySendError) : DnsTcpMultiplex :=
  if self.pending.size < self.capacity then
    match self.commands with
    | [] => self
    | .Request request :: commands =>
      let generation := self.generation + 1
      { self with commands, generation }.admit_resident_dns_tcp_request request generation
        self.capacity now random write
    | .Cancel token :: commands =>
      { self with commands }.cancel_resident_dns_tcp_request token (now 0)
  else self

def validate_resident_dns_tcp_response (request : ResidentDnsTcpPendingRequest)
    (response : List UInt8) : Except ProxyDnsRequestError Unit := do
  let request_view ← Fallible.map_err (parse_error "parse pending DNS TCP request: ")
    (DnsPacketView.parse request.request)
  let response_view ← Fallible.map_err
    (fun err => { stage := .Read, failure := .Protocol,
                  detail := "parse DNS TCP multiplex response: " ++ err.to_string })
    (DnsPacketView.parse response)
  Fallible.map_err
    (fun err => { stage := .Read, failure := .Protocol,
                  detail := "validate DNS TCP multiplex response: " ++ err.debug })
    (validate_dns_packet_response_for_request_fast request_view (some response_view) true)

/-- What the caller gets for a frame under its id. -/
def response_result (request : ResidentDnsTcpPendingRequest) (response : List UInt8) :
    Except ProxyDnsRequestError (List UInt8) := do
  validate_resident_dns_tcp_response request response
  pure (with_id response request.original_id)

def dispatch_resident_dns_tcp_response (response : List UInt8) (now : Nat) : DnsTcpMultiplex :=
  match dns_packet_id response with
  | .error _ => self
  | .ok id =>
    match self.pending[id]? with
    | none => self
    | some request =>
      ((self.unlink id request.token now).send request.response
        (response_result request response)).release_slot

/-- The loop of `discard_cancelled_resident_dns_tcp_requests`. -/
def discard_all (now : Nat → Nat) : List UInt16 → DnsTcpMultiplex → DnsTcpMultiplex
  | [], self => self
  | id :: ids, self =>
    match self.pending[id]? with
    | none => discard_all now ids self
    | some request =>
      discard_all now ids (self.unlink id request.token (now ids.length)).release_slot

def discard_cancelled_resident_dns_tcp_requests (now : Nat → Nat) : DnsTcpMultiplex :=
  let cancelled := self.pending.toList.filter fun entry => entry.2.response ∈ self.abandoned
  discard_all now (cancelled.map Prod.fst) self

/-- The loop of `expire_resident_dns_tcp_requests` over the heap, least entry first. -/
def expire_from (now : Nat) (released : Nat → Nat) :
    List DeadlineEntry → DnsTcpMultiplex → DnsTcpMultiplex
  | [], self => { self with deadlines := [] }
  | (deadline, id, generation) :: deadlines, self =>
    if deadline ≤ now then
      match self.pending[id]? with
      | none => expire_from now released deadlines self
      | some request =>
        if request.generation = generation ∧ request.deadline ≤ now then
          expire_from now released deadlines
            ((self.unlink id request.token (released deadlines.length)).fail request.response
              (ProxyDnsRequestError.deadline .Read))
        else expire_from now released deadlines self
    else { self with deadlines := (deadline, id, generation) :: deadlines }

def expire_resident_dns_tcp_requests (now : Nat) (released : Nat → Nat) : DnsTcpMultiplex :=
  expire_from now released self.deadlines self

/-- The loop of `fail_all_resident_dns_tcp_requests` over the entries of the table. -/
def fail_all (error : ProxyDnsRequestError) (now : Nat → Nat) :
    List (UInt16 × ResidentDnsTcpPendingRequest) → DnsTcpMultiplex → DnsTcpMultiplex
  | [], self => self
  | (id, request) :: entries, self =>
    fail_all error now entries
      ((self.unlink id request.token (now entries.length)).fail request.response error)

def fail_all_resident_dns_tcp_requests (detail : String) (now : Nat → Nat) : DnsTcpMultiplex :=
  fail_all { stage := .Cleanup, failure := .Network, detail } now self.pending.toList self

/-- The loop of `fail_queued_resident_dns_tcp_requests` over the queue. -/
def fail_queued_from : List ResidentDnsTcpMultiplexCommand → DnsTcpMultiplex → DnsTcpMultiplex
  | [], self => { self with commands := [] }
  | .Cancel _ :: commands, self => fail_queued_from commands self
  | .Request request :: commands, self =>
    fail_queued_from commands
      (self.fail request.response
        { stage := .Cleanup, failure := .Network,
          detail := "DNS TCP multiplex connection stopped before request admission" })

/-- The end of the loop, where `detail` is the error that ended it. -/
def stop (detail : Option String) (now : Nat → Nat) : DnsTcpMultiplex :=
  let self := { self with closing := true, phase := .Stopping }
  let self := self.fail_all_resident_dns_tcp_requests
    (detail.getD "DNS TCP multiplex connection stopped") now
  fail_queued_from self.commands self

/-- The loop of the registration's `drop` over what was queued meanwhile. -/
def drop_queued_from : List ResidentDnsTcpMultiplexCommand → DnsTcpMultiplex → DnsTcpMultiplex
  | [], self => { self with commands := [] }
  | .Cancel _ :: commands, self => drop_queued_from commands self
  | .Request _ :: commands, self => drop_queued_from commands self.release_slot

def drop_registration : DnsTcpMultiplex :=
  let self := { self with closing := true, phase := .Stopped }
  drop_queued_from self.commands self

/-! ## Steps -/

inductive Event where
  | enter (payload : List UInt8) (deadline : Nat)
  | reserve_slot (caller : Nat)
  | enqueue (caller : Nat)
  | give_up (caller : Nat)
  | abandon (response : Nat) (token : UInt64)
  | close
  | notified (now : Nat → Nat)
  | command (now : Nat → Nat) (random : Nat → Except String UInt16) (write : Option TrySendError)
  | frame (response : List UInt8) (now : Nat)
  | expire (now : Nat) (released : Nat → Nat)
  | stop (detail : Option String) (now : Nat → Nat)
  | drop_registration

/-- A step of the actor's loop, while that runs. -/
def running (after : DnsTcpMultiplex) : DnsTcpMultiplex :=
  if self.phase = .Running then after else self

def step : Event → DnsTcpMultiplex
  | .enter payload deadline => self.enter payload deadline
  | .reserve_slot caller => self.reserve_slot caller
  | .enqueue caller => self.enqueue caller
  | .give_up caller => self.give_up caller
  | .abandon response token => self.abandon response token
  | .close => self.close
  | .notified now => self.running (self.discard_cancelled_resident_dns_tcp_requests now)
  | .command now random write => self.running (self.receive_command now random write)
  | .frame response now => self.running (self.dispatch_resident_dns_tcp_response response now)
  | .expire now released => self.running (self.expire_resident_dns_tcp_requests now released)
  | .stop detail now => self.running (self.stop detail now)
  | .drop_registration => if self.phase = .Stopping then self.drop_registration else self

def run (capacity : Nat) (events : List Event) : DnsTcpMultiplex :=
  Run.after step (new capacity) events

end DnsTcpMultiplex

end DaeNext.Dns
