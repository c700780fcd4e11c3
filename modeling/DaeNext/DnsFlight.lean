/-
One flight for equal DNS requests (`dae-resident-dns/src/cache.rs`).

`begin_flight` gives the first request for a key the lead of a flight and registers it; later
requests join as followers and wait for the outcome. The leader publishes a result or is dropped
before it does. Registry, counter of followers, outcome and byte budget are separate critical
sections: each one is a step here, so a publication is five steps and the drop of a leader that has
not published is four, and any other steps come in between.

The state that leader and followers share is one record with the places they are at. A follower
registers with `notify` before it looks at the outcome (`Registered`) and waits after it found
none (`Parked`); `woken` says that `notify_waiters` has reached it. When leader and followers are
gone the state is freed, and the bytes of its outcome with it.
-/
import DaeNext.DnsMultiplex

set_option autoImplicit false

namespace DaeNext.Dns

/-! ## Flights -/

structure ResidentDnsFlightOutcome where
  leader_terminated : Bool
  result : Except String (List UInt8)
  retained : Option Nat
deriving DecidableEq

inductive ResidentDnsFlightWaitError where
  | LeaderTerminated
  | Failed (error : String)
deriving DecidableEq, Repr

/-- Where the leader is: `dropping` tells its drop from a publication. -/
inductive LeaderPhase where
  | Idle
  | Counting (result : Except String (List UInt8))
  | Reserving (result : Except String (List UInt8))
  | Storing (dropping : Bool) (outcome : ResidentDnsFlightOutcome)
  | Notifying (dropping : Bool)
  | Removing (dropping : Bool)
  | Gone
deriving DecidableEq

inductive FollowerPhase where
  | Idle | Registered | Parked | Gone
deriving DecidableEq, Repr

structure Follower where
  phase : FollowerPhase
  woken : Bool
deriving DecidableEq, Repr

/-- What a follower got: its place among the followers, its request id and the result. -/
structure Returned where
  follower : Nat
  request_id : UInt16
  result : Except ResidentDnsFlightWaitError (List UInt8)
deriving DecidableEq

/-- `ResidentDnsFlightState` with its permits. `publication` is what the leader's `publish` was
given, and `returned` what the followers' waits gave. -/
structure Flight (Key : Type) where
  key : Key
  detached : Bool
  leader : LeaderPhase
  published : Bool
  publication : Option (Except String (List UInt8))
  outcome : Option ResidentDnsFlightOutcome
  followers : Nat
  members : List Follower
  returned : List Returned

structure ResidentDnsFlightLimits where
  flight_entry_limit : Nat
  flight_follower_limit : Nat
  flight_retained_bytes : Nat
deriving DecidableEq, Repr

/-- The flights of a cache. `reuse` says for a key whether `reuse` is set. -/
structure DnsFlights (Key : Type) [Ord Key] where
  limits : ResidentDnsFlightLimits
  reuse : Key → Bool
  inflight : Table Key Nat
  flights : Table Nat (Flight Key)
  next : Nat
  current : Nat

namespace Flight

variable {Key : Type} (flight : Flight Key)

def terminated : ResidentDnsFlightOutcome where
  leader_terminated := true
  result := .error "resident DNS flight leader ended before publishing a result"
  retained := none

def byte_limit_reached : String := "resident DNS flight retained response byte limit reached"

/-- The text of a wait that ran into its own deadline. -/
def deadline_expired : String := (ProxyDnsRequestError.deadline .Queued).to_string

def restore_flight_response_id (outcome : ResidentDnsFlightOutcome) (request_id : UInt16) :
    Except String (List UInt8) :=
  match outcome.result with
  | .error error => .error error
  | .ok response =>
    if response.length < 2 then
      .error "resident DNS flight response is too short to restore request id"
    else .ok (with_id response request_id)

def wait_result (outcome : ResidentDnsFlightOutcome) (request_id : UInt16) :
    Except ResidentDnsFlightWaitError (List UInt8) :=
  if outcome.leader_terminated then .error .LeaderTerminated
  else Fallible.map_err .Failed (restore_flight_response_id outcome request_id)

def retained_bytes (result : Except String (List UInt8)) : Nat :=
  max 1 (match result with | .ok response => response.length | .error error => (Text.as_bytes error).length)

def live (follower : Follower) : Bool := follower.phase ≠ .Gone

/-- `notify_waiters`: all that have registered. -/
def woken (follower : Follower) : Follower :=
  match follower.phase with
  | .Registered | .Parked => { follower with woken := true }
  | .Idle | .Gone => follower

/-- The bytes the flight holds a lease for: that of its outcome, or one in the leader's hands. -/
def lease : Nat :=
  (match flight.outcome with | some outcome => outcome.retained.getD 0 | none => 0)
    + (match flight.leader with | .Storing _ outcome => outcome.retained.getD 0 | _ => 0)

/-- The last permit frees the state. -/
def freed : Flight Key :=
  if flight.leader = .Gone ∧ flight.members.all (fun follower => !live follower) then
    { flight with outcome := none }
  else flight

def set_member (index : Nat) (follower : Follower) : Flight Key :=
  { flight with members := flight.members.set index follower }

def give (index : Nat) (request_id : UInt16)
    (result : Except ResidentDnsFlightWaitError (List UInt8)) : Flight Key :=
  { flight with returned := flight.returned ++ [{ follower := index, request_id, result }] }

/-- The leader may publish or be dropped. -/
def open_ : Bool := flight.leader = .Idle && !flight.published

/-- New followers find the flight in the registry. -/
def registered : Bool := !flight.detached && flight.open_

end Flight

namespace DnsFlights

variable {Key : Type} [Ord Key] [DecidableEq Key]

def new (limits : ResidentDnsFlightLimits) (reuse : Key → Bool) : DnsFlights Key where
  limits := { limits with flight_retained_bytes := max limits.flight_retained_bytes 1 }
  reuse
  inflight := ∅
  flights := ∅
  next := 0
  current := 0

variable (self : DnsFlights Key)

def set (flight : Nat) (value : Flight Key) : DnsFlights Key :=
  { self with flights := self.flights.insert flight value }

def update (flight : Nat) (change : Flight Key → DnsFlights Key) : DnsFlights Key :=
  match self.flights[flight]? with
  | none => self
  | some value => change value

/-! ### `begin_flight` -/

def new_flight (key : Key) (detached : Bool) : Flight Key where
  key
  detached
  leader := .Idle
  published := false
  publication := none
  outcome := none
  followers := 0
  members := []
  returned := []

def lead (key : Key) (detached : Bool) : DnsFlights Key :=
  { self with
    inflight := if detached then self.inflight else self.inflight.insert key self.next
    flights := self.flights.insert self.next (new_flight key detached)
    next := self.next + 1 }

/-- A follower that would be one too many gets an error and no permit. -/
def join (flight : Nat) : DnsFlights Key :=
  self.update flight fun value =>
    if value.followers < self.limits.flight_follower_limit then
      self.set flight
        { value with
          followers := value.followers + 1
          members := value.members ++ [{ phase := .Idle, woken := false }] }
    else self

def begin_flight (key : Key) : DnsFlights Key :=
  if self.reuse key then
    match self.inflight[key]? with
    | some flight => self.join flight
    | none => self.lead key (self.inflight.size ≥ self.limits.flight_entry_limit)
  else self.lead key true

/-! ### The leader -/

def remove_registry_entry (flight : Nat) (value : Flight Key) : DnsFlights Key :=
  if value.detached then self
  else if self.inflight[value.key]? = some flight then
    { self with inflight := self.inflight.erase value.key }
  else self

/-- `publish` with its first removal; a second call gets an error. -/
def publish (flight : Nat) (result : Except String (List UInt8)) : DnsFlights Key :=
  self.update flight fun value =>
    if value.open_ then
      (self.remove_registry_entry flight value).set flight
        { value with leader := .Counting result, publication := some result }
    else self

def count (flight : Nat) : DnsFlights Key :=
  self.update flight fun value =>
    match value.leader with
    | .Counting result =>
      if value.followers = 0 then self.set flight { value with leader := .Idle, published := true }
      else self.set flight { value with leader := .Reserving result }
    | _ => self

/-- `try_reserve`, with the outcome that follows from it. -/
def reserve (flight : Nat) : DnsFlights Key :=
  self.update flight fun value =>
    match value.leader with
    | .Reserving result =>
      let bytes := Flight.retained_bytes result
      if self.current + bytes ≤ self.limits.flight_retained_bytes then
        { self with current := self.current + bytes }.set flight
          { value with
            leader := .Storing false { leader_terminated := false, result, retained := some bytes } }
      else
        self.set flight
          { value with
            leader := .Storing false
              { leader_terminated := false, result := .error Flight.byte_limit_reached,
                retained := none } }
    | _ => self

def store (flight : Nat) : DnsFlights Key :=
  self.update flight fun value =>
    match value.leader with
    | .Storing dropping outcome =>
      if value.outcome = none then
        self.set flight { value with leader := .Notifying dropping, outcome := some outcome }
      else if dropping then self.set flight { value with leader := .Notifying true }
      else
        { self with current := self.current - outcome.retained.getD 0 }.set flight
          { value with leader := .Idle }
    | _ => self

def notify (flight : Nat) : DnsFlights Key :=
  self.update flight fun value =>
    match value.leader with
    | .Notifying dropping =>
      self.set flight
        { value with
          leader := .Removing dropping
          published := value.published || !dropping
          members := value.members.map Flight.woken }
    | _ => self

/-- The permit of the flight that was just changed is gone. -/
def free (flight : Nat) (value : Flight Key) : DnsFlights Key :=
  { self with current := self.current - (value.lease - value.freed.lease) }.set flight value.freed

/-- The second removal, with which the publication or the drop ends. -/
def remove (flight : Nat) : DnsFlights Key :=
  self.update flight fun value =>
    match value.leader with
    | .Removing dropping =>
      let self := self.remove_registry_entry flight value
      if dropping then self.free flight { value with leader := .Gone }
      else self.set flight { value with leader := .Idle }
    | _ => self

/-- The drop of the leader's permit, with its first removal. -/
def drop_leader (flight : Nat) : DnsFlights Key :=
  self.update flight fun value =>
    if value.leader = .Idle then
      if value.published then self.free flight { value with leader := .Gone }
      else
        (self.remove_registry_entry flight value).set flight
          { value with leader := .Storing true Flight.terminated }
    else self

/-! ### Followers -/

/-- A follower at a place where the change applies. -/
def at_member (flight index : Nat) (phase : FollowerPhase)
    (change : Flight Key → Follower → DnsFlights Key) : DnsFlights Key :=
  self.update flight fun value =>
    match value.members[index]? with
    | none => self
    | some follower => if follower.phase = phase then change value follower else self

/-- `notified.enable()` at the start of a wait and of each turn of its loop. -/
def enable (flight index : Nat) : DnsFlights Key :=
  self.at_member flight index .Idle fun value _ =>
    self.set flight (value.set_member index { phase := .Registered, woken := false })

/-- A look at the outcome; without one the follower waits, unless its deadline has passed. -/
def check (flight index : Nat) (request_id : UInt16) (expired : Bool) : DnsFlights Key :=
  self.at_member flight index .Registered fun value follower =>
    match value.outcome with
    | some outcome =>
      self.set flight
        ((value.set_member index { phase := .Idle, woken := false }).give index request_id
          (Flight.wait_result outcome request_id))
    | none =>
      if expired then
        self.set flight
          ((value.set_member index { phase := .Idle, woken := false }).give index request_id
            (.error (.Failed Flight.deadline_expired)))
      else self.set flight (value.set_member index { follower with phase := .Parked })

def wake (flight index : Nat) : DnsFlights Key :=
  self.at_member flight index .Parked fun value follower =>
    if follower.woken then
      self.set flight (value.set_member index { phase := .Idle, woken := false })
    else self

def timeout (flight index : Nat) (request_id : UInt16) : DnsFlights Key :=
  self.at_member flight index .Parked fun value _ =>
    self.set flight
      ((value.set_member index { phase := .Idle, woken := false }).give index request_id
        (.error (.Failed Flight.deadline_expired)))

/-- The drop of a follower's permit, with a wait that is under way. -/
def drop_follower (flight index : Nat) : DnsFlights Key :=
  self.update flight fun value =>
    match value.members[index]? with
    | none => self
    | some follower =>
      if Flight.live follower then
        self.free flight
          { value.set_member index { phase := .Gone, woken := false } with
            followers := value.followers - 1 }
      else self

/-! ## Steps -/

inductive FlightEvent (Key : Type) where
  | begin_flight (key : Key)
  | publish (flight : Nat) (result : Except String (List UInt8))
  | count (flight : Nat)
  | reserve (flight : Nat)
  | store (flight : Nat)
  | notify (flight : Nat)
  | remove (flight : Nat)
  | drop_leader (flight : Nat)
  | enable (flight index : Nat)
  | check (flight index : Nat) (request_id : UInt16) (expired : Bool)
  | wake (flight index : Nat)
  | timeout (flight index : Nat) (request_id : UInt16)
  | drop_follower (flight index : Nat)

def step : FlightEvent Key → DnsFlights Key
  | .begin_flight key => self.begin_flight key
  | .publish flight result => self.publish flight result
  | .count flight => self.count flight
  | .reserve flight => self.reserve flight
  | .store flight => self.store flight
  | .notify flight => self.notify flight
  | .remove flight => self.remove flight
  | .drop_leader flight => self.drop_leader flight
  | .enable flight index => self.enable flight index
  | .check flight index request_id expired => self.check flight index request_id expired
  | .wake flight index => self.wake flight index
  | .timeout flight index request_id => self.timeout flight index request_id
  | .drop_follower flight index => self.drop_follower flight index

def run (limits : ResidentDnsFlightLimits) (reuse : Key → Bool) (events : List (FlightEvent Key)) :
    DnsFlights Key :=
  Run.after step (new limits reuse) events

end DnsFlights

end DaeNext.Dns
