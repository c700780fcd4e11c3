/-
Sending a UDP payload in QUIC datagrams.

A payload that fits goes out whole. Otherwise it is cut for the limit that the connection
answered, under a packet id of its own, and cut again under another id when a fragment turns
out too large on the way. What the connection and the clock answer is an argument: the `n`-th
answer to each question. The events of a call are recorded in their order.

Both protocols share everything after the first limit; how they size the payload against it
differs.
-/
import DaeNext.Hysteria2Wire
import DaeNext.QuicFragmentOrder
import DaeNext.QuicPacketId
import DaeNext.TuicWire

set_option autoImplicit false

namespace DaeNext

open Fallible Hysteria2 Tuic
open List hiding map_map
open Option hiding map_map

/-- `Display` of the error. -/
def OutboundError.to_string : OutboundError → String
  | .BadHysteria2 value => s!"bad hysteria2: {value}"
  | .BadShadowsocks value => s!"bad shadowsocks: {value}"
  | .BadSharedTransport value => s!"bad shared transport: {value}"
  | .BadSocks5Address value => s!"bad socks5 address: {value}"
  | .BadTuic value => s!"bad tuic: {value}"

namespace Quic

/-! ## The connection and what happened on it -/

/-- `Hysteria2UdpDatagramSendFailure` and `TuicUdpDatagramSendFailure`. -/
inductive UdpDatagramSendFailure where
  | TooLarge
  | Fatal (err : String)
deriving DecidableEq, Repr

/-- What the connection and the clock answer, by the number of the question. -/
structure Connection where
  max_datagram_size : Nat → Option Nat
  send_datagram : Nat → Except UdpDatagramSendFailure Unit
  now : Nat → Instant

inductive Event where
  | limit (answer : Option Nat)
  | layout (packet_id : UInt16)
  | accepted (datagram : List UInt8)
  | refused (datagram : List UInt8)
deriving DecidableEq, Repr

/-- A call on its way: the ids, the questions asked so far and the events. -/
structure Sending where
  packet_ids : QuicUdpPacketIdAllocator
  limits_asked : Nat
  datagrams_tried : Nat
  clock_read : Nat
  events : List Event

/-- `Hysteria2UdpSendReport` and `TuicUdpSendReport`. -/
structure UdpSendReport where
  whole_datagram_sent : Bool
  datagrams_sent : UInt64
  fragment_layouts : Nat
  final_max_wire_size : Option Nat
deriving DecidableEq, Repr

def Sending.start (packet_ids : QuicUdpPacketIdAllocator) : Sending where
  packet_ids
  limits_asked := 0
  datagrams_tried := 0
  clock_read := 0
  events := []

/-- Fallible steps of a call; an early return keeps what happened. -/
abbrev Send := ExceptT String (StateM Sending)

section

variable (connection : Connection)

def max_datagram_size : Send (Option Nat) := fun s =>
  let answer := connection.max_datagram_size s.limits_asked
  (.ok answer, { s with
    limits_asked := s.limits_asked + 1
    events := s.events ++ [.limit answer] })

def send_datagram (datagram : List UInt8) : Send (Except UdpDatagramSendFailure Unit) := fun s =>
  let result := connection.send_datagram s.datagrams_tried
  (.ok result, { s with
    datagrams_tried := s.datagrams_tried + 1
    events := s.events ++ [if result.isOk then .accepted datagram else .refused datagram] })

/-- `packet_ids.allocate()?`, for the next layout. -/
def allocate : Send UInt16 := fun s =>
  match s.packet_ids.allocate_at (connection.now s.clock_read) with
  | (.ok packet_id, packet_ids) =>
    (.ok packet_id, { s with
      packet_ids
      clock_read := s.clock_read + 1
      events := s.events ++ [.layout packet_id] })
  | (.error err, packet_ids) =>
    (.error err, { s with packet_ids, clock_read := s.clock_read + 1 })

end

/-- `map_err(|err| format!("{context}: {err}"))?`. -/
def attempt {α : Type} (context : String) : Except OutboundError α → Send α
  | .ok a => pure a
  | .error err =>
    let err := err.to_string
    throw s!"{context}: {err}"

/-! ## Layouts -/

section

variable (connection : Connection) {φ : Type} (protocol : String)
  (encode : φ → Except OutboundError (List UInt8))

/-- The fragments of one layout, until one of them is too large: then the reduced limit. -/
def send_fragments (max_wire_size : Nat) : List φ → UInt64 → Send (Option Nat × UInt64)
  | [], datagrams_sent => pure (none, datagrams_sent)
  | fragment :: fragments, datagrams_sent => do
    let encoded ← attempt s!"encode {protocol} UDP fragment" (encode fragment)
    match ← send_datagram connection encoded with
    | .ok () => send_fragments max_wire_size fragments (Saturating.add datagrams_sent 1)
    | .error (.Fatal err) => throw s!"send {protocol} UDP fragment: {err}"
    | .error .TooLarge =>
      match ← max_datagram_size connection with
      | none => throw s!"{protocol} peer disabled QUIC datagrams during PMTU retry"
      | some reduced =>
        if max_wire_size ≤ reduced then
          throw s!"{protocol} QUIC datagram limit did not decrease after TooLarge: {max_wire_size} -> {reduced}"
        else pure (some reduced, datagrams_sent)

variable (fragment : UInt16 → Nat → Except OutboundError (List φ)) (pmtu_retries : Nat)

/-- The layouts that are left of the budget. -/
def send_layouts : (left max_wire_size : Nat) → UInt64 → Send UdpSendReport
  | 0, _, _ =>
    throw s!"{protocol} UDP PMTU retry budget exhausted after {pmtu_retries} fragment layouts"
  | left + 1, max_wire_size, datagrams_sent => do
    let packet_id ← allocate connection
    let fragments ← attempt
      s!"fragment {protocol} UDP datagram for {max_wire_size}-byte QUIC limit"
      (fragment packet_id max_wire_size)
    match ← send_fragments connection protocol encode max_wire_size fragments datagrams_sent with
    | (none, datagrams_sent) =>
      pure { whole_datagram_sent := false
             datagrams_sent
             fragment_layouts := pmtu_retries - left
             final_max_wire_size := some max_wire_size }
    | (some reduced, datagrams_sent) => send_layouts left reduced datagrams_sent

/-- What follows when the payload did not go out whole. -/
def send_fragmented : Send UdpSendReport := do
  match ← max_datagram_size connection with
  | none =>
    throw s!"{protocol} peer disabled QUIC datagrams after reporting an oversized datagram"
  | some max_wire_size =>
    send_layouts connection protocol encode fragment pmtu_retries pmtu_retries max_wire_size 0

end

/-- One datagram for all of the payload; nothing is returned when it was too large. -/
def send_whole (connection : Connection) (protocol : String) (max_wire_size : Option Nat)
    (whole : List UInt8) : Send (Option UdpSendReport) := do
  match ← send_datagram connection whole with
  | .ok () =>
    pure (some { whole_datagram_sent := true
                 datagrams_sent := 1
                 fragment_layouts := 0
                 final_max_wire_size := max_wire_size })
  | .error .TooLarge => pure none
  | .error (.Fatal err) => throw s!"send complete {protocol} UDP datagram: {err}"

/-- The limit is asked again only for an oversized payload. -/
def recheck (connection : Connection) (known_oversize : Bool)
    (initial_max_wire_size : Option Nat) : Send (Option Nat) :=
  if known_oversize then max_datagram_size connection else pure initial_max_wire_size

/-- The attempt to send the payload whole, where it fits as far as known. -/
def try_whole (connection : Connection) (protocol : String) (known_oversize : Bool)
    (max_wire_size : Option Nat) (fits : Nat → Bool)
    (whole : Except OutboundError (List UInt8)) : Send (Option UdpSendReport) :=
  if !known_oversize || max_wire_size.any fits then do
    let whole ← attempt s!"encode complete {protocol} UDP datagram" whole
    send_whole connection protocol max_wire_size whole
  else pure none

/-- What both protocols do once they know whether the payload exceeds the first limit. An
oversized payload is still tried whole when the limit has recovered by then. -/
def send_sized (connection : Connection) {μ φ : Type} (protocol built : String)
    (known_oversize : Bool) (initial_max_wire_size : Option Nat) (fits : Nat → Bool)
    (whole : Except OutboundError (List UInt8)) (message : Except OutboundError μ)
    (encode : φ → Except OutboundError (List UInt8))
    (fragment : μ → UInt16 → Nat → Except OutboundError (List φ)) (pmtu_retries : Nat) :
    Send UdpSendReport := do
  let initial_max_wire_size ← recheck connection known_oversize initial_max_wire_size
  match ← try_whole connection protocol known_oversize initial_max_wire_size fits whole with
  | some report => pure report
  | none => do
    let message ← attempt s!"build oversized {protocol} UDP {built}" message
    send_fragmented connection protocol encode (fragment message) pmtu_retries

/-! ## The two protocols -/

section

variable (connection : Connection)

def send_hysteria2_udp_payload_with (session_id : UInt32) (target : String) (payload : List UInt8)
    (resources : QuicUdpDatagramResourceProfile) : Send UdpSendReport := do
  let wire_len ← attempt "size complete Hysteria2 UDP datagram"
    (Hysteria2.hysteria2_udp_payload_wire_len target payload.length)
  let initial_max_wire_size ← max_datagram_size connection
  let known_oversize := initial_max_wire_size.any fun limit => decide (limit < wire_len)
  send_sized connection "Hysteria2" "datagram" known_oversize initial_max_wire_size
    (fun limit => decide (wire_len ≤ limit))
    (Hysteria2.encode_hysteria2_udp_payload session_id 0 0 1 target payload)
    (Hysteria2.Hysteria2UdpMessage.new session_id target payload)
    Hysteria2.encode_hysteria2_udp_message Hysteria2.fragment_hysteria2_udp_message
    resources.pmtu_retries.toNat

/-- `tuic_udp_payload_wire_len(target, payload).is_ok_and(|len| len <= limit)`. -/
def tuic_fits (target : String) (payload : List UInt8) (limit : Nat) : Bool :=
  match Tuic.tuic_udp_payload_wire_len target payload with
  | .ok len => decide (len ≤ limit)
  | .error _ => false

/-- The address is parsed only when the longest header would not fit. -/
def tuic_known_oversize (target : String) (payload : List UInt8) : Option Nat → Send Bool
  | some limit =>
    if limit < Saturating.usize_add payload.length Tuic.TUIC_MAX_UDP_HEADER_LENGTH then do
      let wire_len ← attempt "size complete TUIC UDP datagram"
        (Tuic.tuic_udp_payload_wire_len target payload)
      pure (decide (limit < wire_len))
    else pure false
  | none => pure false

def send_tuic_udp_payload_with (association_id packet_id : UInt16) (target : String)
    (payload : List UInt8) (resources : QuicUdpDatagramResourceProfile) :
    Send UdpSendReport := do
  let initial_max_wire_size ← max_datagram_size connection
  let known_oversize ← tuic_known_oversize target payload initial_max_wire_size
  send_sized connection "TUIC" "packet" known_oversize initial_max_wire_size
    (tuic_fits target payload)
    (Tuic.encode_tuic_udp_payload association_id packet_id 1 0 (some target) payload)
    (Tuic.TuicUdpPacket.new association_id packet_id target payload)
    Tuic.encode_tuic_udp_packet Tuic.fragment_tuic_udp_packet resources.pmtu_retries.toNat

end

/-! ## What the events amount to -/

/-- The limit answered last, the layouts, the datagrams accepted since the last of them, and
whether no datagram was accepted above the limit of its time. -/
structure Seen where
  limit : Option Nat
  layouts : List UInt16
  accepted : List (List UInt8)
  within : Bool
deriving DecidableEq, Repr

def Seen.next (self : Seen) : Event → Seen
  | .limit answer => { self with limit := answer }
  | .layout packet_id => { self with layouts := self.layouts ++ [packet_id], accepted := [] }
  | .accepted datagram =>
    { self with
      accepted := self.accepted ++ [datagram]
      within := self.within && self.limit.all fun limit => decide (datagram.length ≤ limit) }
  | .refused _ => self

def seen (events : List Event) : Seen :=
  events.foldl Seen.next { limit := none, layouts := [], accepted := [], within := true }

theorem seen_append (events : List Event) (event : Event) :
    seen (events ++ [event]) = (seen events).next event := by
  rw [seen, foldl_append]
  rfl

/-- A datagram within the limit only adds to those accepted. -/
theorem Seen.next_accepted {seen : Seen} {datagram : List UInt8}
    (hfits : ∀ limit, seen.limit = some limit → datagram.length ≤ limit) :
    seen.next (.accepted datagram)
      = { seen with accepted := seen.accepted ++ [datagram] } := by
  have hall : seen.limit.all (fun limit => decide (datagram.length ≤ limit)) = true := by
    cases hlimit : seen.limit with
    | none => rfl
    | some limit => exact decide_eq_true (hfits limit hlimit)
  rw [Seen.next, hall, Bool.and_true]

variable {packet_id : UInt16} {report : UdpSendReport}

section

variable {connection : Connection} {s t : Sending}

theorem max_datagram_size_ok {answer : Option Nat}
    (h : max_datagram_size connection s = (.ok answer, t)) :
    t.packet_ids = s.packet_ids ∧ seen t.events = { seen s.events with limit := answer } := by
  obtain ⟨hanswer, rfl⟩ := Prod.mk.inj h
  cases hanswer
  exact ⟨rfl, seen_append _ _⟩

theorem send_datagram_ok {datagram : List UInt8} {result : Except UdpDatagramSendFailure Unit}
    (h : send_datagram connection datagram s = (.ok result, t)) :
    t.packet_ids = s.packet_ids
      ∧ seen t.events
        = (seen s.events).next (if result.isOk then .accepted datagram else .refused datagram) := by
  obtain ⟨hresult, rfl⟩ := Prod.mk.inj h
  cases hresult
  exact ⟨rfl, seen_append _ _⟩

theorem allocate_ok (h : allocate connection s = (.ok packet_id, t)) :
    s.packet_ids.allocate_at (connection.now s.clock_read) = (.ok packet_id, t.packet_ids)
      ∧ seen t.events = (seen s.events).next (.layout packet_id) := by
  rw [allocate] at h
  rcases hids : s.packet_ids.allocate_at (connection.now s.clock_read) with ⟨result, packet_ids⟩
  rw [hids] at h
  cases result with
  | error err => cases h
  | ok id =>
    obtain ⟨hid, rfl⟩ := Prod.mk.inj h
    cases hid
    exact ⟨rfl, seen_append _ _⟩

theorem attempt_ok {α : Type} {context : String} {result : Except OutboundError α} {a : α}
    (h : attempt context result s = (.ok a, t)) : result = .ok a ∧ s = t := by
  cases result with
  | error err => cases h
  | ok b =>
    obtain ⟨rfl, rfl⟩ := run_pure_ok h
    exact ⟨rfl, rfl⟩

/-! ## One layout, then all of them -/

variable {φ : Type} {protocol : String} {encode : φ → Except OutboundError (List UInt8)}

/-- The fragments of a layout go out in order. Either all were accepted, or one was too large
and the connection answered a smaller limit. -/
theorem send_fragments_ok {max_wire_size : Nat} {fragments : List φ} {sent sent' : UInt64}
    {restart : Option Nat} (hsize : ∀ fragment ∈ fragments, ∀ bytes, encode fragment = .ok bytes →
      bytes.length ≤ max_wire_size)
    (hlimit : (seen s.events).limit = some max_wire_size) (hwithin : (seen s.events).within = true)
    (h : send_fragments connection protocol encode max_wire_size fragments sent s
      = (.ok (restart, sent'), t)) :
    t.packet_ids = s.packet_ids ∧ (seen t.events).layouts = (seen s.events).layouts
      ∧ (seen t.events).within = true
      ∧ (restart = none → ∃ datagrams, fragments.mapM encode = .ok datagrams
        ∧ (seen t.events).accepted = (seen s.events).accepted ++ datagrams)
      ∧ (∀ reduced, restart = some reduced → (seen t.events).limit = some reduced) := by
  induction fragments generalizing s sent with
  | nil =>
    obtain ⟨hresult, rfl⟩ := run_pure_ok h
    cases hresult
    refine ⟨rfl, rfl, hwithin, fun _ => ⟨[], mapM_nil, (append_nil _).symm⟩, ?_⟩
    nofun
  | cons fragment fragments ih =>
    obtain ⟨encoded, u, hattempt, h⟩ := run_bind_ok h
    obtain ⟨hencode, rfl⟩ := attempt_ok hattempt
    obtain ⟨result, v, hsend, h⟩ := run_bind_ok h
    obtain ⟨hids, hseen⟩ := send_datagram_ok hsend
    have hfits := hsize fragment mem_cons_self encoded hencode
    cases result with
    | ok sent_unit =>
      have hv : seen v.events = { seen s.events with
          accepted := (seen s.events).accepted ++ [encoded] } := by
        refine hseen.trans (Seen.next_accepted fun limit hsome => ?_)
        rw [hlimit] at hsome
        rw [← some.inj hsome]
        exact hfits
      obtain ⟨hids', hlayouts, hin, hall, hreduced⟩ := ih
        (fun f hf => hsize f (mem_cons_of_mem _ hf)) (by rw [hv]; exact hlimit)
        (by rw [hv]; exact hwithin) h
      refine ⟨hids'.trans hids, by rw [hlayouts, hv], hin, fun hnone => ?_, hreduced⟩
      obtain ⟨datagrams, hmap, haccepted⟩ := hall hnone
      refine ⟨encoded :: datagrams, by rw [mapM_cons, hencode, hmap]; rfl, ?_⟩
      rw [haccepted, hv, append_assoc]
      rfl
    | error failure =>
      have hv : seen v.events = seen s.events := hseen
      cases failure with
      | Fatal err => cases h
      | TooLarge =>
        obtain ⟨answer, w, hanswer, h⟩ := run_bind_ok h
        obtain ⟨hids', hw⟩ := max_datagram_size_ok hanswer
        cases answer with
        | none => cases h
        | some reduced =>
          dsimp only at h
          by_cases hle : max_wire_size ≤ reduced
          · rw [if_pos hle] at h
            cases h
          · rw [if_neg hle] at h
            obtain ⟨hresult, rfl⟩ := run_pure_ok h
            cases hresult
            rw [hw, hv]
            refine ⟨hids'.trans hids, rfl, hwithin, fun hnone => ?_, fun r hr => hr⟩
            cases hnone

/-- A layout under an id that no earlier layout used went out in full. -/
structure LaidOut (encode : φ → Except OutboundError (List UInt8))
    (fragment : UInt16 → Nat → Except OutboundError (List φ)) (seen : Seen) : Prop where
  within : seen.within = true
  layout : ∃ earlier packet_id limit fragments, seen.layouts = earlier ++ [packet_id]
    ∧ packet_id ∉ earlier ∧ fragment packet_id limit = .ok fragments
    ∧ fragments.mapM encode = .ok seen.accepted

variable {fragment : UInt16 → Nat → Except OutboundError (List φ)} {pmtu_retries : Nat}

section

variable
  (hsize : ∀ packet_id limit fragments, fragment packet_id limit = .ok fragments →
    ∀ f ∈ fragments, ∀ bytes, encode f = .ok bytes → bytes.length ≤ limit)

include hsize

theorem send_layouts_ok {left max_wire_size : Nat} {sent : UInt64}
    (hfresh : s.packet_ids.Fresh ((seen s.events).layouts.map UInt16.toNat))
    (hfew : QuicUdpPacketIdAllocator.FewLayouts s.packet_ids.resources)
    (hleft : (seen s.events).layouts.length + left ≤ s.packet_ids.resources.pmtu_retries.toNat)
    (hlimit : (seen s.events).limit = some max_wire_size) (hwithin : (seen s.events).within = true)
    (h : send_layouts connection protocol encode fragment pmtu_retries left max_wire_size sent s
      = (.ok report, t)) :
    LaidOut encode fragment (seen t.events) := by
  induction left generalizing s max_wire_size sent with
  | zero => cases h
  | succ left ih =>
    obtain ⟨packet_id, u, hallocate, h⟩ := run_bind_ok h
    obtain ⟨hallocated, hu⟩ := allocate_ok hallocate
    obtain ⟨hnew, hfresh', hresources⟩ := hfresh.allocate hfew
      (by rw [length_map]; omega) hallocated
    obtain ⟨fragments, v, hattempt, h⟩ := run_bind_ok h
    obtain ⟨hfragment, rfl⟩ := attempt_ok hattempt
    obtain ⟨⟨restart, sent'⟩, w, hsent, h⟩ := run_bind_ok h
    obtain ⟨hids, hlayouts, hin, hall, hreduced⟩ := send_fragments_ok
      (hsize packet_id max_wire_size fragments hfragment) (by rw [hu]; exact hlimit)
      (by rw [hu]; exact hwithin) hsent
    have hlaid : (seen w.events).layouts = (seen s.events).layouts ++ [packet_id] := by
      rw [hlayouts, hu]
      rfl
    cases restart with
    | none =>
      obtain ⟨-, rfl⟩ := run_pure_ok h
      obtain ⟨datagrams, hmap, haccepted⟩ := hall rfl
      refine ⟨hin, _, packet_id, max_wire_size, fragments, hlaid, ?_, hfragment, ?_⟩
      · intro hmem
        exact hnew (mem_map_of_mem hmem)
      · rw [haccepted, hu]
        exact hmap
    | some reduced =>
      refine ih ?_ ?_ ?_ (hreduced reduced rfl) hin h
      · rw [hids, hlaid, map_append]
        exact hfresh'
      · rw [hids, hresources]
        exact hfew
      · rw [hids, hresources, hlaid, length_append, length_singleton]
        omega

theorem send_fragmented_ok (hready : s.packet_ids.Ready)
    (hfew : QuicUdpPacketIdAllocator.FewLayouts s.packet_ids.resources)
    (hretries : pmtu_retries ≤ s.packet_ids.resources.pmtu_retries.toNat)
    (hlayouts : (seen s.events).layouts = []) (hwithin : (seen s.events).within = true)
    (h : send_fragmented connection protocol encode fragment pmtu_retries s = (.ok report, t)) :
    LaidOut encode fragment (seen t.events) := by
  obtain ⟨answer, u, hanswer, h⟩ := run_bind_ok h
  obtain ⟨hids, hu⟩ := max_datagram_size_ok hanswer
  cases answer with
  | none => cases h
  | some max_wire_size =>
    have hlaid : (seen u.events).layouts = [] := by rw [hu, hlayouts]
    refine send_layouts_ok hsize ?_ ?_ ?_ ?_ ?_ h
    · rw [hids, hlaid]
      exact QuicUdpPacketIdAllocator.Fresh.start hready
    · rw [hids]
      exact hfew
    · rw [hids, hlaid, length_nil, Nat.zero_add]
      exact hretries
    · rw [hu]
    · rw [hu]
      exact hwithin

end

/-- The payload went out in one datagram, before any layout. -/
structure SentWhole (whole : List UInt8) (seen : Seen) : Prop where
  within : seen.within = true
  layouts : seen.layouts = []
  accepted : seen.accepted = [whole]

/-- A call that has sent nothing so far. -/
structure Untouched (packet_ids : QuicUdpPacketIdAllocator) (s : Sending) : Prop where
  ids : s.packet_ids = packet_ids
  within : (seen s.events).within = true
  layouts : (seen s.events).layouts = []
  accepted : (seen s.events).accepted = []

variable {packet_ids : QuicUdpPacketIdAllocator}

theorem Untouched.start : Untouched packet_ids (Sending.start packet_ids) := ⟨rfl, rfl, rfl, rfl⟩

variable (h : Untouched packet_ids s)

include h

theorem Untouched.asked {answer : Option Nat}
    (hanswer : max_datagram_size connection s = (.ok answer, t)) :
    Untouched packet_ids t ∧ (seen t.events).limit = answer := by
  obtain ⟨hids, ht⟩ := max_datagram_size_ok hanswer
  rw [ht]
  exact ⟨⟨hids.trans h.ids, by rw [ht]; exact h.within, by rw [ht]; exact h.layouts,
    by rw [ht]; exact h.accepted⟩, rfl⟩

theorem Untouched.send_whole {max_wire_size : Option Nat} {whole : List UInt8}
    {result : Option UdpSendReport}
    (hfits : ∀ limit, (seen s.events).limit = some limit → whole.length ≤ limit)
    (hsend : send_whole connection protocol max_wire_size whole s = (.ok result, t)) :
    (result = none → Untouched packet_ids t)
      ∧ (∀ report, result = some report → SentWhole whole (seen t.events)) := by
  obtain ⟨outcome, u, hdatagram, hsend⟩ := run_bind_ok hsend
  obtain ⟨hids, hu⟩ := send_datagram_ok hdatagram
  cases outcome with
  | ok sent_unit =>
    obtain ⟨rfl, rfl⟩ := run_pure_ok hsend
    have hnext : seen u.events = { seen s.events with
        accepted := (seen s.events).accepted ++ [whole] } := hu.trans (Seen.next_accepted hfits)
    refine ⟨nofun, fun report _ => ?_⟩
    rw [hnext]
    exact ⟨h.within, h.layouts, by rw [h.accepted]; rfl⟩
  | error failure =>
    have hsame : seen u.events = seen s.events := hu
    cases failure with
    | Fatal err => cases hsend
    | TooLarge =>
      obtain ⟨rfl, rfl⟩ := run_pure_ok hsend
      refine ⟨fun _ => ?_, nofun⟩
      exact ⟨hids.trans h.ids, by rw [hsame]; exact h.within, by rw [hsame]; exact h.layouts,
        by rw [hsame]; exact h.accepted⟩

/-- What a call that succeeded did. -/
theorem Untouched.send_sized (hready : packet_ids.Ready)
    (hfew : QuicUdpPacketIdAllocator.FewLayouts packet_ids.resources)
    (hretries : pmtu_retries ≤ packet_ids.resources.pmtu_retries.toNat) {μ : Type} {built : String}
    {known_oversize : Bool} {initial : Option Nat} {fits : Nat → Bool}
    {whole : Except OutboundError (List UInt8)} {message : Except OutboundError μ}
    {fragment : μ → UInt16 → Nat → Except OutboundError (List φ)}
    (hsize : ∀ m, message = .ok m → ∀ packet_id limit fragments, fragment m packet_id limit =
      .ok fragments → ∀ f ∈ fragments, ∀ bytes, encode f = .ok bytes → bytes.length ≤ limit)
    (hlimit : (seen s.events).limit = initial)
    (hknown : known_oversize = false → ∀ limit, initial = some limit → ∀ bytes, whole =
      .ok bytes → bytes.length ≤ limit)
    (hfits : ∀ limit, fits limit = true → ∀ bytes, whole = .ok bytes → bytes.length ≤ limit)
    (hsend : send_sized connection protocol built known_oversize initial fits whole message encode
      fragment pmtu_retries s = (.ok report, t)) :
    (∃ bytes, whole = .ok bytes ∧ SentWhole bytes (seen t.events))
      ∨ ∃ m, message = .ok m ∧ LaidOut encode (fragment m) (seen t.events) := by
  obtain ⟨limit, u, hasked, hsend⟩ := run_bind_ok hsend
  obtain ⟨sent, v, htried, hsend⟩ := run_bind_ok hsend
  -- the limit by the time the whole datagram is tried
  have hu : Untouched packet_ids u ∧ (seen u.events).limit = limit
      ∧ (known_oversize = false → limit = initial) := by
    cases known_oversize with
    | true =>
      obtain ⟨hu, hanswer⟩ := h.asked hasked
      exact ⟨hu, hanswer, nofun⟩
    | false =>
      obtain ⟨rfl, rfl⟩ := run_pure_ok hasked
      exact ⟨h, hlimit, fun _ => rfl⟩
  obtain ⟨hu, hulimit, hsame⟩ := hu
  have hv : (sent = none → Untouched packet_ids v)
      ∧ ∀ r, sent = some r → ∃ bytes, whole = .ok bytes ∧ SentWhole bytes (seen v.events) := by
    rw [try_whole] at htried
    by_cases htry : (!known_oversize || limit.any fits) = true
    · rw [if_pos htry] at htried
      obtain ⟨bytes, w, hattempt, htried⟩ := run_bind_ok htried
      obtain ⟨hwhole, rfl⟩ := attempt_ok hattempt
      have hbytes : ∀ l, (seen u.events).limit = some l → bytes.length ≤ l := by
        intro l hl
        rw [hulimit] at hl
        cases hoversize : known_oversize with
        | false =>
          rw [hsame hoversize] at hl
          exact hknown hoversize l hl bytes hwhole
        | true =>
          rw [hoversize, hl] at htry
          exact hfits l htry bytes hwhole
      obtain ⟨hnone, hsome⟩ := hu.send_whole hbytes htried
      exact ⟨hnone, fun r hr => ⟨bytes, hwhole, hsome r hr⟩⟩
    · rw [if_neg htry] at htried
      obtain ⟨rfl, rfl⟩ := run_pure_ok htried
      exact ⟨fun _ => hu, nofun⟩
  cases sent with
  | some r =>
    obtain ⟨-, rfl⟩ := run_pure_ok hsend
    exact .inl (hv.2 r rfl)
  | none =>
    have hnothing := hv.1 rfl
    obtain ⟨m, w, hattempt, hsend⟩ := run_bind_ok hsend
    obtain ⟨hmessage, rfl⟩ := attempt_ok hattempt
    refine .inr ⟨m, hmessage, send_fragmented_ok (hsize m hmessage) ?_ ?_ ?_ hnothing.layouts
      hnothing.within hsend⟩
    · rw [hnothing.ids]
      exact hready
    · rw [hnothing.ids]
      exact hfew
    · rw [hnothing.ids]
      exact hretries

end

/-! ## Reading the datagrams back -/

/-- What a datagram is decoded to, and what the reassembly buffer is given of it. -/
structure Piece where
  target : Option String
  input : QuicUdpFragmentInput
deriving DecidableEq, Repr

def hysteria2_piece (message : Hysteria2.Hysteria2UdpMessage) : Piece where
  target := some message.target
  input :=
    { packet_id := message.packet_id
      fragment_id := message.fragment_id
      fragment_count := message.fragment_count
      payload := message.payload }

def tuic_piece (packet : Tuic.TuicUdpPacket) : Piece where
  target := packet.target
  input :=
    { packet_id := packet.packet_id
      fragment_id := packet.fragment_id
      fragment_count := packet.fragment_count
      payload := packet.payload }

def decode_hysteria2 (datagram : List UInt8) : Except OutboundError Piece :=
  (Hysteria2.decode_hysteria2_udp_message datagram).map hysteria2_piece

def decode_tuic (datagram : List UInt8) : Except OutboundError Piece :=
  (Tuic.decode_tuic_udp_packet datagram).map tuic_piece

/-- Decoded in any order, the datagrams carry the target, and an empty buffer with sufficient
budgets returns the payload, once. -/
def Reassembles (decode : List UInt8 → Except OutboundError Piece) (target : String)
    (payload : List UInt8) (datagrams : List (List UInt8)) : Prop :=
  ∀ order : List (List UInt8), order.Perm datagrams → ∃ pieces, order.mapM decode = .ok pieces
    ∧ (∃ piece ∈ pieces, piece.target = some target)
    ∧ (∀ piece ∈ pieces, ∀ text, piece.target = some text → text = target)
    ∧ ∀ (resources : QuicUdpDatagramResourceProfile) (max_reassembled_bytes : UInt64)
        (arrivals : List Arrival),
      arrivals.map (·.fragment) = pieces.map (·.input) →
      Sufficient resources max_reassembled_bytes payload.length arrivals →
      payloads ((QuicUdpFragmentBuffer.new resources max_reassembled_bytes).outcomes arrivals)
        = [payload]

/-- The datagrams accepted since the last layout are one whole datagram, or under an id that no
earlier layout used all fragments once; none was longer than the limit of its time; and they
can be put together again. -/
structure Delivered (decode : List UInt8 → Except OutboundError Piece) (target : String)
    (payload : List UInt8) (seen : Seen) : Prop where
  within : seen.within = true
  complete :
    (∃ piece, seen.accepted.mapM decode = .ok [piece] ∧ piece.input.fragment_id = 0
      ∧ piece.input.fragment_count = 1)
    ∨ ∃ earlier packet_id parts pieces, seen.layouts = earlier ++ [packet_id]
      ∧ packet_id ∉ earlier ∧ seen.accepted.mapM decode = .ok pieces
      ∧ pieces.map (·.input) = fragments_of packet_id parts ∧ 2 ≤ parts.length
      ∧ parts.length ≤ 255
  reassembles : Reassembles decode target payload seen.accepted

section

variable {decode : List UInt8 → Except OutboundError Piece} {target : String}
  {payload : List UInt8} {φ : Type}

theorem Delivered.of_whole {whole : List UInt8} {piece : Piece} {seen : Seen}
    (h : SentWhole whole seen) (hdecode : decode whole = .ok piece)
    (htarget : piece.target = some target) (hid : piece.input.fragment_id = 0)
    (hcount : piece.input.fragment_count = 1) (hpayload : piece.input.payload = payload)
    (hnonempty : payload ≠ []) : Delivered decode target payload seen where
  within := h.within
  complete := by
    refine .inl ⟨piece, ?_, hid, hcount⟩
    rw [h.accepted, mapM_cons, hdecode, mapM_nil]
    rfl
  reassembles := by
    intro order hperm
    rw [h.accepted, perm_singleton] at hperm
    refine ⟨[piece], ?_, ⟨piece, mem_singleton_self piece, htarget⟩, ?_, ?_⟩
    · rw [hperm, mapM_cons, hdecode, mapM_nil]
      rfl
    · intro other hmem text htext
      rw [mem_singleton.mp hmem, htarget] at htext
      exact (some.inj htext).symm
    · intro resources max_reassembled_bytes arrivals harrivals hs
      obtain ⟨x, rfl, hx⟩ := List.map_eq_singleton_iff.mp harrivals
      have hx' : x.fragment = piece.input := hx
      rw [← hpayload, ← hx'] at hs ⊢
      exact QuicUdpFragmentBuffer.payloads_single (by rw [hx', hcount]) (by rw [hx', hid])
        (by rw [hx', hpayload]; exact hnonempty) hs

/-- The fragments of a layout: all parts of the payload, numbered, with the target on the first. -/
structure Layout (piece : φ → Piece) (target : String) (payload : List UInt8)
    (packet_id : UInt16) (fragments : List φ) : Prop where
  several : 2 ≤ fragments.length
  counted : fragments.length ≤ 255
  payload_eq : (fragments.map fun f => (piece f).input.payload).flatten = payload
  numbered : ∀ i f, fragments[i]? = some f →
    (piece f).input.packet_id = packet_id ∧ (piece f).input.fragment_id = UInt8.ofNat i
      ∧ (piece f).input.fragment_count = UInt8.ofNat fragments.length
      ∧ (piece f).input.payload ≠ []
  first : ∀ f, fragments[0]? = some f → (piece f).target = some target
  others : ∀ f ∈ fragments, ∀ text, (piece f).target = some text → text = target

variable {piece : φ → Piece} {fragments : List φ}

theorem Layout.cut (h : Layout piece target payload packet_id fragments) :
    QuicUdpFragmentBuffer.Cut (fragments.map fun f => (piece f).input.payload) where
  several := by
    rw [length_map]
    exact h.several
  counted := by
    rw [length_map]
    exact h.counted
  nonempty := by
    intro part hmem
    obtain ⟨f, hf, rfl⟩ := mem_map.mp hmem
    obtain ⟨i, hi⟩ := List.mem_iff_getElem?.mp hf
    exact (h.numbered i f hi).2.2.2

theorem Layout.inputs (h : Layout piece target payload packet_id fragments) :
    (fragments.map piece).map (·.input)
      = fragments_of packet_id (fragments.map fun f => (piece f).input.payload) := by
  apply ext_getElem?
  intro i
  rw [fragments_of, List.map_map, List.getElem?_map, List.getElem?_map, List.getElem?_zipIdx,
    List.getElem?_map]
  cases hget : fragments[i]? with
  | none => rfl
  | some f =>
    obtain ⟨hpacket, hid, hcount, -⟩ := h.numbered i f hget
    rw [map_some, map_some, map_some, map_some, fragment_of, length_map, Nat.zero_add]
    congr 1
    change (piece f).input = _
    rw [← hpacket, ← hid, ← hcount]

theorem Delivered.of_layout {encode : φ → Except OutboundError (List UInt8)}
    {fragment : UInt16 → Nat → Except OutboundError (List φ)} {seen : Seen}
    (h : LaidOut encode fragment seen)
    (hlayout : ∀ packet_id limit fragments, fragment packet_id limit = .ok fragments →
      fragments.mapM encode = .ok seen.accepted →
      Layout piece target payload packet_id fragments
        ∧ ∀ f ∈ fragments, ∀ bytes, encode f = .ok bytes → decode bytes = .ok (piece f)) :
    Delivered decode target payload seen := by
  obtain ⟨earlier, packet_id, limit, fragments, hlaid, hnew, hfragment, hencode⟩ := h.layout
  obtain ⟨hl, hdecode⟩ := hlayout packet_id limit fragments hfragment hencode
  have hpieces := mapM_mapM hdecode hencode
  have hcut := hl.cut
  refine ⟨h.within, .inr ⟨earlier, packet_id, _, _, hlaid, hnew, hpieces, hl.inputs, hcut.several,
    hcut.counted⟩, fun order hperm => ?_⟩
  obtain ⟨pieces, horder, hperm'⟩ := mapM_perm hperm hpieces
  refine ⟨pieces, horder, ?_, ?_, ?_⟩
  · have hpos : 0 < fragments.length := Nat.lt_of_lt_of_le (by decide) hl.several
    refine ⟨piece fragments[0], hperm'.mem_iff.mpr (mem_map_of_mem (getElem_mem hpos)), ?_⟩
    exact hl.first _ (getElem?_eq_getElem hpos)
  · intro other hmem text htext
    obtain ⟨f, hf, rfl⟩ := mem_map.mp (hperm'.mem_iff.mp hmem)
    exact hl.others f hf text htext
  · intro resources max_reassembled_bytes arrivals harrivals hs
    have honce : QuicUdpFragmentBuffer.Once packet_id
        (fragments.map fun f => (piece f).input.payload) arrivals := by
      refine ⟨hcut, ?_⟩
      rw [harrivals, ← hl.inputs]
      exact hperm'.map _
    rw [← hl.payload_eq] at hs ⊢
    exact honce.payloads hs

end

/-! ## Both protocols -/

section

variable {connection : Connection} {s t : Sending} {target : String} {payload : List UInt8}
  {packet_ids : QuicUdpPacketIdAllocator} {resources : QuicUdpDatagramResourceProfile}

theorem hysteria2_layout {session_id : UInt32} {message : Hysteria2.Hysteria2UdpMessage}
    (hnew : Hysteria2.Hysteria2UdpMessage.new session_id target payload = .ok message)
    {limit : Nat} {fragments : List Hysteria2.Hysteria2UdpMessage}
    (h : fragment_hysteria2_udp_message message packet_id limit = .ok fragments) :
    Layout hysteria2_piece target payload packet_id fragments := by
  obtain ⟨-, rfl⟩ := from_parts_ok hnew
  obtain ⟨hseveral, hcounted, hpayload, hat⟩ := fragment_ok h
  have htarget : ∀ f ∈ fragments, f.target = target := by
    intro f hf
    obtain ⟨i, hi⟩ := List.mem_iff_getElem?.mp hf
    rw [(hat i f hi).1]
  refine ⟨hseveral, hcounted, hpayload, fun i f hget => ?_, fun f hget => ?_, fun f hf text h => ?_⟩
  · obtain ⟨hf, hne, -⟩ := hat i f hget
    exact ⟨congrArg (·.packet_id) hf, congrArg (·.fragment_id) hf, congrArg (·.fragment_count) hf, hne⟩
  · exact congrArg some (htarget f (mem_of_getElem? hget))
  · rw [← some.inj h]
    exact htarget f hf

theorem hysteria2_delivered {session_id : UInt32} (hready : packet_ids.Ready)
    (hfew : QuicUdpPacketIdAllocator.FewLayouts packet_ids.resources)
    (hsame : packet_ids.resources = resources)
    (h : send_hysteria2_udp_payload_with connection session_id target payload resources
      (Sending.start packet_ids) = (.ok report, t)) :
    Delivered decode_hysteria2 target payload (seen t.events) := by
  obtain ⟨wire_len, u, hattempt, h⟩ := run_bind_ok h
  obtain ⟨hwire, rfl⟩ := attempt_ok hattempt
  obtain ⟨initial, v, hanswer, h⟩ := run_bind_ok h
  obtain ⟨hv, hlimit⟩ := Untouched.start.asked hanswer
  have hlength : ∀ bytes,
      encode_hysteria2_udp_payload session_id 0 0 1 target payload = .ok bytes →
      bytes.length = wire_len := by
    intro bytes hbytes
    rw [wire_len_ok hwire]
    exact @Hysteria2.length_encode bytes ⟨session_id, 0, 0, 1, target, payload⟩ hbytes
  have hresult := hv.send_sized hready hfew (by rw [hsame]) ?_ hlimit ?_ ?_ h
  · rcases hresult with ⟨bytes, hwhole, hsent⟩ | ⟨message, hmessage, hlaid⟩
    · have hvalid := (@Hysteria2.encode_ok bytes ⟨session_id, 0, 0, 1, target, payload⟩ hwhole).1
      have hdecode : decode_hysteria2 bytes
          = .ok (hysteria2_piece ⟨session_id, 0, 0, 1, target, payload⟩) := by
        rw [decode_hysteria2,
          @Hysteria2.decode_encode bytes ⟨session_id, 0, 0, 1, target, payload⟩ hwhole]
        rfl
      exact Delivered.of_whole hsent hdecode rfl rfl rfl rfl
        (validate_fields_ok hvalid).1
    · refine Delivered.of_layout hlaid fun packet_id limit fragments hfragment _ =>
        ⟨hysteria2_layout hmessage hfragment, fun f _ bytes hbytes => ?_⟩
      rw [decode_hysteria2, decode_encode hbytes]
      rfl
  · intro message _ packet_id limit fragments hfragment f hf bytes hbytes
    obtain ⟨i, hi⟩ := List.mem_iff_getElem?.mp hf
    rw [length_encode hbytes]
    exact ((fragment_ok hfragment).2.2.2 i f hi).2.2
  · intro hknown limit hinitial bytes hbytes
    rw [hinitial] at hknown
    rw [hlength bytes hbytes]
    exact Nat.not_lt.mp (of_decide_eq_false hknown)
  · intro limit hfits bytes hbytes
    rw [hlength bytes hbytes]
    exact of_decide_eq_true hfits

variable {association_id : UInt16}

theorem tuic_layout {packet_id₀ : UInt16} {packet : Tuic.TuicUdpPacket}
    (hnew : Tuic.TuicUdpPacket.new association_id packet_id₀ target payload = .ok packet)
    {address : Tuic.TuicAddress} (haddress : build_address target = .ok address)
    {limit : Nat} {fragments : List Tuic.TuicUdpPacket}
    (h : fragment_tuic_udp_packet packet packet_id limit = .ok fragments) :
    Layout (fun f => tuic_piece { f with target := decoded_target f.target address })
        address.target payload packet_id fragments
      ∧ ∀ f ∈ fragments, ∀ bytes, encode_tuic_udp_packet f = .ok bytes →
        decode_tuic bytes
          = .ok (tuic_piece { f with target := decoded_target f.target address }) := by
  obtain ⟨-, rfl⟩ := from_parts_ok hnew
  obtain ⟨hseveral, hcounted, hpayload, hat⟩ := fragment_ok h
  have htarget : ∀ i f, fragments[i]? = some f → f.target = if i = 0 then some target else none := by
    intro i f hget
    rw [(hat i f hget).1]
  refine ⟨⟨hseveral, hcounted, hpayload, fun i f hget => ?_, fun f hget => ?_,
    fun f hf text htext => ?_⟩, fun f hf bytes hbytes => ?_⟩
  · obtain ⟨hf, hne, -⟩ := hat i f hget
    exact ⟨congrArg (·.packet_id) hf, congrArg (·.fragment_id) hf, congrArg (·.fragment_count) hf, hne⟩
  · rw [htarget 0 f hget]
    rfl
  · change decoded_target f.target address = _ at htext
    rw [decoded_target, map_eq_some_iff] at htext
    obtain ⟨-, -, htext⟩ := htext
    exact htext.symm
  · obtain ⟨i, hi⟩ := List.mem_iff_getElem?.mp hf
    rw [decode_tuic]
    by_cases hzero : i = 0
    · have hfirst := htarget i f hi
      rw [if_pos hzero] at hfirst
      rw [decode_encode hbytes (by rw [hfirst]; exact haddress)]
      rfl
    · have hother := htarget i f hi
      rw [if_neg hzero] at hother
      rw [decode_encode hbytes (by rw [hother]; rfl), hother]
      rfl

/-- What is known of the whole datagram when it is not taken for oversized. -/
theorem tuic_known_oversize_ok {initial : Option Nat} {known_oversize : Bool}
    (h : tuic_known_oversize target payload initial s = (.ok known_oversize, t)) :
    s = t ∧ (known_oversize = false → ∀ limit, initial = some limit → ∀ bytes,
      encode_tuic_udp_payload association_id packet_id 1 0 (some target) payload = .ok bytes →
      bytes.length ≤ limit) := by
  cases initial with
  | none =>
    obtain ⟨-, rfl⟩ := run_pure_ok h
    exact ⟨rfl, nofun⟩
  | some limit =>
    rw [tuic_known_oversize] at h
    by_cases hlong : limit < Saturating.usize_add payload.length Tuic.TUIC_MAX_UDP_HEADER_LENGTH
    · rw [if_pos hlong] at h
      obtain ⟨wire_len, u, hattempt, h⟩ := run_bind_ok h
      obtain ⟨hwire, rfl⟩ := attempt_ok hattempt
      obtain ⟨rfl, rfl⟩ := run_pure_ok h
      refine ⟨rfl, fun hknown other hsome bytes hbytes => ?_⟩
      cases hsome
      obtain ⟨address, haddress, rfl⟩ := wire_len_ok hwire
      rw [@Tuic.length_encode ⟨association_id, packet_id, 1, 0, some target, payload⟩ bytes
        address hbytes haddress]
      exact Nat.not_lt.mp (of_decide_eq_false hknown)
    · rw [if_neg hlong] at h
      obtain ⟨-, rfl⟩ := run_pure_ok h
      refine ⟨rfl, fun _ other hsome bytes hbytes => ?_⟩
      cases hsome
      -- no header is longer than the longest one
      obtain ⟨hvalid, address, haddress, -⟩ :=
        @Tuic.encode_ok ⟨association_id, packet_id, 1, 0, some target, payload⟩ bytes hbytes
      have hlen := @Tuic.length_encode ⟨association_id, packet_id, 1, 0, some target, payload⟩
        bytes address hbytes haddress
      have hheader := (encoded_len_le haddress).2
      have hmax := (validate_fields_ok hvalid).1.2
      rw [Saturating.usize_add] at hlong
      rw [Tuic.TUIC_MAX_UDP_HEADER_LENGTH] at hlong hheader
      rw [Tuic.TUIC_MAX_UDP_PAYLOAD_LENGTH] at hmax
      dsimp only at hlen hmax
      omega

theorem tuic_delivered (hready : packet_ids.Ready)
    (hfew : QuicUdpPacketIdAllocator.FewLayouts packet_ids.resources)
    (hsame : packet_ids.resources = resources)
    (h : send_tuic_udp_payload_with connection association_id packet_id target payload resources
      (Sending.start packet_ids) = (.ok report, t)) :
    ∃ address, build_address target = .ok address
      ∧ Delivered decode_tuic address.target payload (seen t.events) := by
  obtain ⟨initial, u, hanswer, h⟩ := run_bind_ok h
  obtain ⟨hu, hlimit⟩ := Untouched.start.asked hanswer
  obtain ⟨known_oversize, v, hoversize, h⟩ := run_bind_ok h
  obtain ⟨rfl, hknown⟩ := tuic_known_oversize_ok hoversize
  have hresult := hu.send_sized hready hfew (by rw [hsame]) ?_ hlimit hknown ?_ h
  · rcases hresult with ⟨bytes, hwhole, hsent⟩ | ⟨packet, hpacket, hlaid⟩
    · obtain ⟨hvalid, address, haddress, -⟩ :=
        @Tuic.encode_ok ⟨association_id, packet_id, 1, 0, some target, payload⟩ bytes hwhole
      have hdecode : decode_tuic bytes
          = .ok (tuic_piece ⟨association_id, packet_id, 1, 0, some address.target, payload⟩) := by
        rw [decode_tuic, @Tuic.decode_encode address
          ⟨association_id, packet_id, 1, 0, some target, payload⟩ bytes hwhole haddress]
        rfl
      exact ⟨address, haddress, Delivered.of_whole hsent hdecode rfl rfl rfl rfl
        (validate_fields_ok hvalid).1.1⟩
    · obtain ⟨-, layout_id, limit, fragments, -, -, hfragment, -⟩ := hlaid.layout
      obtain ⟨address, haddress⟩ := fragment_address hfragment
      obtain ⟨-, heq⟩ := from_parts_ok hpacket
      rw [heq] at haddress
      exact ⟨address, haddress, Delivered.of_layout hlaid
        fun packet_id limit fragments hfragment _ => tuic_layout hpacket haddress hfragment⟩
  · intro packet _ packet_id limit fragments hfragment f hf bytes hbytes
    obtain ⟨i, hi⟩ := List.mem_iff_getElem?.mp hf
    exact ((fragment_ok hfragment).2.2.2 i f hi).2.2 bytes hbytes
  · intro limit hfits bytes hbytes
    rw [tuic_fits] at hfits
    cases hwire : tuic_udp_payload_wire_len target payload with
    | error err =>
      rw [hwire] at hfits
      cases hfits
    | ok wire_len =>
      rw [hwire] at hfits
      obtain ⟨address, haddress, rfl⟩ := wire_len_ok hwire
      rw [@Tuic.length_encode ⟨association_id, packet_id, 1, 0, some target, payload⟩ bytes
        address hbytes haddress]
      exact of_decide_eq_true hfits

/-- Whatever the target, the payload, the state of the allocator and the answers of the
connection: when a send returns, the datagrams accepted since its last layout are one whole
datagram or all fragments under an id of their own, none above the limit, and in any order they
give the payload and the target again. Hysteria2 carries the target as it was given, TUIC in
the form of its address. -/
theorem accepted_datagrams_reassemble (profile : ResidentRuntimeProfile)
    (calls : List QuicUdpPacketIdAllocator.Call) (connection : Connection) (target : String)
    (payload : List UInt8) :
    let resources := QuicUdpDatagramResourceProfile.from_runtime_profile profile
    let start := Sending.start
      (calls.foldl QuicUdpPacketIdAllocator.call (QuicUdpPacketIdAllocator.new resources))
    (∀ session_id report t,
      send_hysteria2_udp_payload_with connection session_id target payload resources start
        = (.ok report, t) → Delivered decode_hysteria2 target payload (seen t.events))
    ∧ ∀ association_id packet_id report t,
      send_tuic_udp_payload_with connection association_id packet_id target payload resources start
        = (.ok report, t) →
      ∃ address, Tuic.build_address target = .ok address
        ∧ Delivered decode_tuic address.target payload (seen t.events) := by
  intro resources start
  obtain ⟨hready, hresources⟩ := QuicUdpPacketIdAllocator.ready_calls resources calls
  have hfew : QuicUdpPacketIdAllocator.FewLayouts (calls.foldl QuicUdpPacketIdAllocator.call
      (QuicUdpPacketIdAllocator.new resources)).resources := by
    rw [hresources]
    exact QuicUdpPacketIdAllocator.fewLayouts_profile profile
  exact ⟨fun session_id report t h => hysteria2_delivered hready hfew hresources h,
    fun association_id packet_id report t h => tuic_delivered hready hfew hresources h⟩

/-- A limit that shrinks while the first layout is on its way. -/
def shrinking (first second : Nat) : Connection where
  max_datagram_size := fun n => if n < 3 then some first else some second
  send_datagram := fun n => if n = 1 then .error .TooLarge else .ok ()
  now := fun _ => 0

/-- A new allocator of the smallest profile. -/
def low_memory_start : Sending :=
  Sending.start (([] : List QuicUdpPacketIdAllocator.Call).foldl QuicUdpPacketIdAllocator.call
    (QuicUdpPacketIdAllocator.new (.from_runtime_profile .LowMemory)))

def hysteria2_shrinking : Except String UdpSendReport × Sending :=
  send_hysteria2_udp_payload_with (shrinking 16 14) 7 "a:1" [1, 2, 3, 4, 5, 6]
    (.from_runtime_profile .LowMemory) low_memory_start

def tuic_shrinking : Except String UdpSendReport × Sending :=
  send_tuic_udp_payload_with (shrinking 19 17) 7 0 "a:1" [1, 2, 3, 4, 5, 6]
    (.from_runtime_profile .LowMemory) low_memory_start

/-- Both protocols lay a payload out twice. -/
theorem accepted_datagrams_reassemble_shrinking :
    (hysteria2_shrinking.1.isOk = true ∧ (seen hysteria2_shrinking.2.events).layouts = [1, 2]
      ∧ Delivered decode_hysteria2 "a:1" [1, 2, 3, 4, 5, 6] (seen hysteria2_shrinking.2.events))
    ∧ tuic_shrinking.1.isOk = true ∧ (seen tuic_shrinking.2.events).layouts = [1, 2]
      ∧ ∃ address, Tuic.build_address "a:1" = .ok address
        ∧ Delivered decode_tuic address.target [1, 2, 3, 4, 5, 6] (seen tuic_shrinking.2.events) := by
  have hok : hysteria2_shrinking.1.isOk = true := by decide +kernel
  have hok' : tuic_shrinking.1.isOk = true := by decide +kernel
  have hlayouts : (seen hysteria2_shrinking.2.events).layouts = [1, 2] := by decide +kernel
  have hlayouts' : (seen tuic_shrinking.2.events).layouts = [1, 2] := by decide +kernel
  obtain ⟨report, hreport⟩ := exists_of_isOk hok
  obtain ⟨report', hreport'⟩ := exists_of_isOk hok'
  have hrun : hysteria2_shrinking = (.ok report, hysteria2_shrinking.2) := by rw [← hreport]
  have hrun' : tuic_shrinking = (.ok report', tuic_shrinking.2) := by rw [← hreport']
  exact ⟨⟨hok, hlayouts, (accepted_datagrams_reassemble .LowMemory [] (shrinking 16 14) "a:1"
      [1, 2, 3, 4, 5, 6]).1 7 report _ hrun⟩,
    hok', hlayouts', (accepted_datagrams_reassemble .LowMemory [] (shrinking 19 17) "a:1"
      [1, 2, 3, 4, 5, 6]).2 7 0 report' _ hrun'⟩

/-- A connection that takes everything. -/
def unlimited : Connection where
  max_datagram_size := fun _ => none
  send_datagram := fun _ => .ok ()
  now := fun _ => 0

def tuic_leading_zero : Except String UdpSendReport × Sending :=
  send_tuic_udp_payload_with unlimited 7 0 "example.com:053" [1]
    (.from_runtime_profile .LowMemory) low_memory_start

/-- TUIC sends a port with a leading zero as a number, so the target comes back without it. -/
theorem tuic_target_rewritten :
    tuic_leading_zero.1.isOk = true
      ∧ (seen tuic_leading_zero.2.events).accepted.mapM decode_tuic
        = .ok [tuic_piece ⟨7, 0, 1, 0, some "example.com:53", [1]⟩]
      ∧ ¬ Reassembles decode_tuic "example.com:053" [1]
        (seen tuic_leading_zero.2.events).accepted := by
  have hok : tuic_leading_zero.1.isOk = true := by decide +kernel
  have hpieces : (seen tuic_leading_zero.2.events).accepted.mapM decode_tuic
      = .ok [tuic_piece ⟨7, 0, 1, 0, some "example.com:53", [1]⟩] := by decide +kernel
  refine ⟨hok, hpieces, fun h => ?_⟩
  obtain ⟨pieces, hmap, ⟨piece, hmem, htarget⟩, -⟩ := h _ (List.Perm.refl _)
  rw [← Except.ok.inj hmap] at hmem
  rw [mem_singleton.mp hmem] at htarget
  exact absurd (some.inj htarget) (by decide)

end

end Quic
end DaeNext
