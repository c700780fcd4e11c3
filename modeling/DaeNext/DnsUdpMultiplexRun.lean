/-
Runs of the multiplexed DNS upstream over UDP.

Every function of the actor gets one description (`Keeps`): ids and table stay in step, a channel
that is used was in use before or came in with a request, and an entry of the table is old or
belongs to such a request. Only a datagram can answer a request, and what it does is `Reaction`.
From the two follows what holds after any run (`Consistent`).
-/
import DaeNext.DnsUdpMultiplex

set_option autoImplicit false

namespace DaeNext.Dns

open Table DnsPacketView
open List hiding getElem?_insert

namespace UdpMultiplexActor

variable (self : UdpMultiplexActor)

/-! ## What a call keeps -/

structure EntryFor (id : UInt16) (entry : PendingUdpRequest) (payload : List UInt8) : Prop where
  key : entry.upstream_id = id
  view : ∃ view, DnsPacketView.parse payload = .ok view ∧ entry.original_id = view.id ∧
    entry.questions = pending_dns_questions view

/-- One where the entry holds the channel. -/
def holds (response : Nat) (entry : PendingUdpRequest) : Nat :=
  if entry.response = response then 1 else 0

/-- How often a channel occurs: in the table, in the queue and among the sends. -/
def uses (response : Nat) : Nat :=
  Table.total (holds response) self.pending
    + (self.receiver.map UdpMultiplexRequest.response).count response
    + (self.sends.map Prod.fst).count response

/-- A call of the actor with `requests` in its hands. -/
structure Keeps (requests : List UdpMultiplexRequest) (before after : UdpMultiplexActor) : Prop where
  ids : InStep before.pending before.id_allocator → InStep after.pending after.id_allocator
  uses : InStep before.pending before.id_allocator → ∀ response, after.uses response
    ≤ before.uses response + (requests.map UdpMultiplexRequest.response).count response
  entries : ∀ (id : UInt16) entry, after.pending[id]? = some entry →
    before.pending[id]? = some entry ∨
      ∃ request ∈ requests ++ before.receiver, entry.response = request.response ∧
        EntryFor id entry request.payload
  answers : ∀ response bytes, (response, .ok bytes) ∈ after.sends →
    (response, .ok bytes) ∈ before.sends
  queue : after.receiver ⊆ before.receiver
  asked : after.asked = before.asked

namespace Keeps

variable {self s t u : UdpMultiplexActor}
  {requests others : List UdpMultiplexRequest}

/-- What is no part of the description may change. -/
theorem aside (s : UdpMultiplexActor) (deadlines : List PendingUdpDeadline) (closed : Bool)
    (abandoned : List Nat) : Keeps [] s { s with deadlines, closed, abandoned } where
  ids := id
  uses := fun _ _ => Nat.le_add_right _ _
  entries := fun _ _ h => .inl h
  answers := fun _ _ h => h
  queue := fun _ h => h
  asked := rfl

theorem refl (s : UdpMultiplexActor) : Keeps [] s s := aside s s.deadlines s.closed s.abandoned

theorem trans (h : Keeps requests s t) (h' : Keeps others t u) : Keeps (requests ++ others) s u where
  ids := fun hs => h'.ids (h.ids hs)
  uses := by
    intro hs response
    have hfirst := h.uses hs response
    have hsecond := h'.uses (h.ids hs) response
    rw [map_append, count_append]
    omega
  entries := by
    intro id entry hentry
    have hmono : requests ++ s.receiver ⊆ (requests ++ others) ++ s.receiver := by
      intro request hmem
      obtain hrequest | hqueued := mem_append.mp hmem
      · exact mem_append_left _ (mem_append_left _ hrequest)
      · exact mem_append_right _ hqueued
    obtain hold | ⟨request, hmem, hrequest⟩ := h'.entries id entry hentry
    · obtain hold | ⟨request, hmem, hrequest⟩ := h.entries id entry hold
      · exact .inl hold
      · exact .inr ⟨request, hmono hmem, hrequest⟩
    · refine .inr ⟨request, ?_, hrequest⟩
      obtain hother | hqueued := mem_append.mp hmem
      · exact mem_append_left _ (mem_append_right _ hother)
      · exact mem_append_right _ (h.queue hqueued)
  answers := fun response bytes hmem => h.answers response bytes (h'.answers response bytes hmem)
  queue := fun request hmem => h.queue (h'.queue hmem)
  asked := h'.asked.trans h.asked

theorem trans_nil (h : Keeps [] s t) (h' : Keeps [] t u) : Keeps [] s u := h.trans h'

/-- The calls that take requests from the front of the queue. -/
theorem of_queue {receiver : List UdpMultiplexRequest} (hqueue : s.receiver = requests ++ receiver)
    (h : Keeps requests { s with receiver } t) : Keeps [] s t where
  ids := h.ids
  uses := by
    intro hs response
    have hle := h.uses hs response
    have hcount : s.uses response = { s with receiver }.uses response
        + (requests.map UdpMultiplexRequest.response).count response := by
      rw [UdpMultiplexActor.uses, UdpMultiplexActor.uses, hqueue, map_append, count_append]
      dsimp only
      omega
    omega
  entries := by
    intro id entry hentry
    obtain hold | ⟨request, hmem, hrequest⟩ := h.entries id entry hentry
    · exact .inl hold
    · exact .inr ⟨request, by rwa [nil_append, hqueue], hrequest⟩
  answers := h.answers
  queue := by
    intro request hmem
    rw [hqueue]
    exact mem_append_right _ (h.queue hmem)
  asked := h.asked

/-! ### Requests that leave the table -/

theorem retire (s : UdpMultiplexActor) (id : UInt16) (now : Nat) : Keeps [] s (s.retire id now) :=
  { refl s with
    ids := fun hs => hs.erase id now
    uses := by
      intro _ response
      have hle := total_erase_le (holds response) s.pending id
      rw [UdpMultiplexActor.uses, UdpMultiplexActor.uses, UdpMultiplexActor.retire]
      dsimp only
      omega
    entries := fun _ _ hentry => .inl (getElem?_of_erase hentry) }

end Keeps

variable {entry : PendingUdpRequest}

variable {self} in
/-- The channel of an entry that leaves with an answer moves from the table to the sends. -/
theorem uses_retire_send {id : UInt16} (hentry : self.pending[id]? = some entry)
    (result : Except String (List UInt8)) (now : Nat) (response : Nat) :
    ((self.retire id now).send entry.response result).uses response = self.uses response := by
  rw [uses, uses, send, retire, total_eq_add_erase (holds response) hentry, holds]
  rw [map_append, count_append, map_singleton, count_singleton]
  simp only [beq_iff_eq]
  omega

namespace Keeps

variable {s t u : UdpMultiplexActor} {requests others : List UdpMultiplexRequest}

theorem retire_send {id : UInt16} {entry : PendingUdpRequest}
    (hentry : s.pending[id]? = some entry) (error : String) (now : Nat) :
    Keeps [] s ((s.retire id now).send entry.response (.error error)) :=
  { retire s id now with
    uses := by
      intro _ response
      rw [uses_retire_send hentry]
      exact Nat.le_add_right _ _
    answers := by
      intro response bytes hmem
      obtain hold | hnew := mem_append.mp hmem
      · exact hold
      · cases mem_singleton.mp hnew }

/-! ### New requests -/

variable (s : UdpMultiplexActor)

theorem refuse (request : UdpMultiplexRequest) (error : String) :
    Keeps [request] s (s.send request.response (.error error)) where
  ids := id
  uses := by
    intro _ response
    rw [UdpMultiplexActor.uses, UdpMultiplexActor.uses, send]
    rw [map_append, count_append, map_singleton, map_singleton]
    dsimp only
    omega
  entries := fun _ _ h => .inl h
  answers := by
    intro response bytes hmem
    obtain hold | hnew := mem_append.mp hmem
    · exact hold
    · cases mem_singleton.mp hnew
  queue := fun _ h => h
  asked := rfl

theorem reap (now : Nat) :
    Keeps [] s { s with id_allocator := s.id_allocator.reap_quarantine now } :=
  { refl s with ids := fun hs => hs.reap_quarantine now }

theorem insert_pending {config : UdpMultiplexActorConfig} {request : UdpMultiplexRequest}
    {view : DnsPacketView} {id : UInt16} (hview : parse request.payload = .ok view)
    (hfree : s.id_allocator.is_occupied id = false) (now : Nat) :
    Keeps [request] s
      ({ s with id_allocator := s.id_allocator.occupy id }.insert_pending config request view id
        now) where
  ids := fun hs => hs.insert id _
  uses := by
    intro hs response
    rw [UdpMultiplexActor.uses, UdpMultiplexActor.uses, UdpMultiplexActor.insert_pending]
    rw [total_insert_of_none _ (hs.absent hfree), holds, map_singleton, count_singleton]
    simp only [beq_iff_eq]
    omega
  entries := by
    intro other entry hentry
    rw [UdpMultiplexActor.insert_pending, getElem?_insert] at hentry
    split_ifs at hentry with hid
    · cases hentry
      exact .inr ⟨request, mem_append_left _ (mem_singleton.mpr rfl), rfl,
        ⟨hid.symm, view, hview, rfl, rfl⟩⟩
    · exact .inl hentry
  answers := fun _ _ h => h
  queue := fun _ h => h
  asked := rfl

variable (config : UdpMultiplexActorConfig)

theorem prepare_udp_multiplex_request (request : UdpMultiplexRequest) (now : Nat → Nat)
    (random : Nat → Except String UInt16) :
    Keeps [request] s (s.prepare_udp_multiplex_request config request now random).2 := by
  rw [UdpMultiplexActor.prepare_udp_multiplex_request]
  split_ifs with hfull hlate
  · exact refuse s request _
  · exact refuse s request _
  · cases hview : parse request.payload with
    | error err => exact refuse s request _
    | ok view =>
      obtain ⟨id, hfree, _, heq⟩ | ⟨⟨error, heq⟩, _⟩ :=
        s.id_allocator.allocate_at_cases config.pending_capacity (now 1) random
      · rw [heq]
        rw [DnsRequestIdAllocator.is_unavailable, Bool.or_eq_false_iff] at hfree
        exact (reap s (now 1)).trans
          (insert_pending (s := { s with id_allocator := s.id_allocator.reap_quarantine (now 1) })
            hview hfree.1 (now 2))
      · rw [heq]
        exact (reap s (now 1)).trans (refuse _ request error)

variable (conditions : Conditions)

theorem prepare_all (requests : List UdpMultiplexRequest) (i : Nat) (s : UdpMultiplexActor) :
    Keeps requests s (prepare_all config conditions i requests s).2 := by
  induction requests generalizing i s with
  | nil => exact refl s
  | cons request requests ih =>
    exact (prepare_udp_multiplex_request s config request _ _).trans (ih _ _)

theorem send_prepared_udp_request (request : PreparedUdpMultiplexRequest) (error : Option String)
    (now : Nat) : Keeps [] s (s.send_prepared_udp_request config request error now) := by
  cases error with
  | none => exact refl s
  | some err =>
    rw [UdpMultiplexActor.send_prepared_udp_request]
    cases hentry : s.pending[request.upstream_id]? with
    | none => exact refl s
    | some entry => exact retire_send hentry _ now

theorem send_all (prepared : List PreparedUdpMultiplexRequest) (i : Nat) (s : UdpMultiplexActor) :
    Keeps [] s (send_all config conditions i prepared s) := by
  induction prepared generalizing i s with
  | nil => exact refl s
  | cons request prepared ih =>
    exact (send_prepared_udp_request s config request _ _).trans_nil (ih _ _)

theorem receive_request : Keeps [] s (s.receive_request config conditions) := by
  rw [UdpMultiplexActor.receive_request]
  split_ifs with hwindow
  · cases hqueue : s.receiver with
    | nil => exact refl s
    | cons request receiver =>
      simp only [handle_udp_multiplex_requests]
      set taken := min config.send_batch_limit (max (config.inflight_window - s.pending.size) 1) - 1
      have hsplit : s.receiver = (request :: receiver.take taken) ++ receiver.drop taken := by
        rw [hqueue, cons_append, take_append_drop]
      have hprepare := prepare_all config conditions (request :: receiver.take taken) 0
        { s with receiver := receiver.drop taken }
      -- whatever part of the batch is sent one by one
      have hsend : ∀ prepared, Keeps (request :: receiver.take taken)
          { s with receiver := receiver.drop taken } (UdpMultiplexActor.send_all config conditions 0
            prepared (UdpMultiplexActor.prepare_all config conditions 0
              (request :: receiver.take taken) { s with receiver := receiver.drop taken }).2) := by
        intro prepared
        have hall := hprepare.trans (send_all config conditions prepared 0 _)
        rwa [append_nil] at hall
      apply of_queue hsplit
      split_ifs with hone
      · exact hsend _
      · exact hsend _
  · exact refl s

/-! ### Expiry, cancellation and failure -/

theorem expire_from (now : Nat) (released : Nat → Nat) (deadlines : List PendingUdpDeadline)
    (s : UdpMultiplexActor) : Keeps [] s (expire_from now released deadlines s) := by
  induction deadlines generalizing s with
  | nil => exact aside s [] s.closed s.abandoned
  | cons deadline deadlines ih =>
    rw [UdpMultiplexActor.expire_from]
    cases hentry : s.pending[deadline.id]? with
    | none => exact ih s
    | some request =>
      dsimp only
      split_ifs with hstale hwaiting
      · exact ih s
      · exact aside s _ s.closed s.abandoned
      · exact (retire_send hentry _ _).trans_nil (ih _)

theorem next_deadline_from (deadlines : List PendingUdpDeadline) (s : UdpMultiplexActor) :
    Keeps [] s (s.next_deadline_from deadlines).2 := by
  induction deadlines with
  | nil => exact aside s [] s.closed s.abandoned
  | cons deadline deadlines ih =>
    rw [UdpMultiplexActor.next_deadline_from]
    cases hentry : s.pending[deadline.id]? with
    | none => exact ih
    | some request =>
      dsimp only
      split_ifs with hstale
      · exact ih
      · exact aside s _ s.closed s.abandoned

theorem retire_all (now : Nat → Nat) (ids : List UInt16) (s : UdpMultiplexActor) :
    Keeps [] s (retire_all now ids s) := by
  induction ids generalizing s with
  | nil => exact refl s
  | cons id ids ih => exact (retire s id _).trans_nil (ih _)

end Keeps

section Fail

variable (error : String) (now : Nat → Nat)

variable (entries : List (UInt16 × PendingUdpRequest))

/-- All entries fail: their ids are free and their channels have the error. -/
theorem fail_all_spec (s : UdpMultiplexActor) :
    let t := fail_all error now entries s
    t.pending = s.pending ∧ t.receiver = s.receiver ∧ t.asked = s.asked ∧
    t.sends = s.sends ++ entries.map (fun entry => (entry.2.response, .error error)) ∧
    ∀ id, t.id_allocator.is_occupied id
      = if id ∈ entries.map Prod.fst then false else s.id_allocator.is_occupied id := by
  induction entries generalizing s with
  | nil => exact ⟨rfl, rfl, rfl, (append_nil _).symm, fun _ => rfl⟩
  | cons entry entries ih =>
    obtain ⟨id, request⟩ := entry
    rw [fail_all]
    obtain ⟨hpending, hreceiver, hasked, hsends, hocc⟩ := ih
      ({ s with id_allocator := s.id_allocator.release_at id (now entries.length) }.send
        request.response (.error error))
    refine ⟨hpending, hreceiver, hasked, ?_, ?_⟩
    · rw [hsends, send, map_cons, append_assoc]
      rfl
    · intro other
      rw [hocc other, send, DnsRequestIdAllocator.is_occupied_release_at, map_cons]
      simp only [mem_cons, @eq_comm _ other, or_comm (a := id = other), ite_or]

theorem count_responses (response : Nat) :
    (entries.map fun entry => entry.2.response).count response
      = (entries.map fun entry => holds response entry.2).sum := by
  induction entries with
  | nil => rfl
  | cons entry entries ih =>
    rw [map_cons, map_cons, count_cons, sum_cons, ih, holds]
    simp only [beq_iff_eq]
    omega

theorem Keeps.fail_pending_udp_requests (s : UdpMultiplexActor) :
    Keeps [] s (s.fail_pending_udp_requests error now) := by
  obtain ⟨hpending, hreceiver, hasked, hsends, hocc⟩ :=
    fail_all_spec error now s.pending.toList { s with pending := ∅ }
  rw [← UdpMultiplexActor.fail_pending_udp_requests] at *
  refine ⟨?_, ?_, ?_, ?_, ?_, hasked⟩
  · intro hs id
    rw [hpending, Std.TreeMap.getElem?_emptyc, hocc id]
    split_ifs with hmem
    · rfl
    · rw [← hs id, eq_comm, Option.isSome_none]
      by_contra hsome
      obtain ⟨entry, hentry⟩ := Option.isSome_iff_exists.mp (Bool.eq_true_of_not_eq_false hsome)
      exact hmem (mem_map_of_mem (Std.TreeMap.mem_toList_iff_getElem?_eq_some.mpr hentry))
  · intro _ response
    rw [UdpMultiplexActor.uses, UdpMultiplexActor.uses, hpending, hreceiver, hsends, total_empty,
      map_append, count_append, map_map]
    have hcount := count_responses s.pending.toList response
    rw [total, ← hcount]
    simp only [Function.comp_def, map_nil, count_nil]
    omega
  · intro id entry hentry
    rw [hpending, Std.TreeMap.getElem?_emptyc] at hentry
    cases hentry
  · intro response bytes hmem
    rw [hsends] at hmem
    obtain hold | hnew := mem_append.mp hmem
    · exact hold
    · obtain ⟨entry, _, heq⟩ := mem_map.mp hnew
      cases heq
  · rw [hreceiver]
    exact fun _ h => h

theorem Keeps.fail_queued_udp_requests (s : UdpMultiplexActor) :
    Keeps [] s (s.fail_queued_udp_requests error) where
  ids := id
  uses := by
    intro _ response
    have hmap : (s.receiver.map fun request =>
        (request.response, (.error error : Except String (List UInt8)))).map Prod.fst
          = s.receiver.map UdpMultiplexRequest.response := by
      rw [map_map]
      rfl
    rw [UdpMultiplexActor.uses, UdpMultiplexActor.uses, UdpMultiplexActor.fail_queued_udp_requests]
    dsimp only
    rw [map_append, count_append, hmap, map_nil, count_nil]
    omega
  entries := fun _ _ h => .inl h
  answers := by
    intro response bytes hmem
    obtain hold | hnew := mem_append.mp hmem
    · exact hold
    · obtain ⟨request, _, heq⟩ := mem_map.mp hnew
      cases heq
  queue := nil_subset _
  asked := rfl

theorem Keeps.shut_down (s : UdpMultiplexActor) (pending_error queued_error : String) :
    Keeps [] s (s.shut_down pending_error queued_error now) :=
  ((Keeps.aside s s.deadlines true s.abandoned).trans_nil
    (Keeps.fail_pending_udp_requests pending_error now _)).trans_nil
      (Keeps.fail_queued_udp_requests queued_error _)

end Fail

/-! ## What a datagram does -/

/-- Two lists of questions ask the same, one by one and up to the case of names. -/
def SameQuestions (wants : List PendingDnsQuestion) (gots : List DnsPacketQuestionView) : Prop :=
  List.Forall₂ (fun want got => want.matches got.qname_wire got.qtype got.qclass = true) wants gots

theorem match_pending_questions_ok {index : Nat} {wants : List PendingDnsQuestion}
    {gots : List DnsPacketQuestionView} (hlen : gots.length = wants.length)
    (h : match_pending_questions index wants gots = .ok ()) : SameQuestions wants gots := by
  induction wants generalizing index gots with
  | nil =>
    obtain rfl := length_eq_zero_iff.mp hlen
    exact List.Forall₂.nil
  | cons want wants ih =>
    cases gots with
    | nil => cases hlen
    | cons got gots =>
      rw [match_pending_questions] at h
      split_ifs at h with hmatch
      exact List.Forall₂.cons hmatch (ih (Nat.succ.inj hlen) h)

/-- A datagram that answers an entry: it is a response under the entry's id, with the questions of
the entry unless that has none. -/
structure Answers (entry : PendingUdpRequest) (datagram : List UInt8) (view : DnsPacketView) :
    Prop where
  parsed : DnsPacketView.parse datagram = .ok view
  response : view.response = true
  id : view.id = entry.upstream_id
  questions : entry.questions = [] ∨ SameQuestions entry.questions view.questions.collect

theorem validate_ok {datagram : List UInt8} {view : DnsPacketView} (hview : parse datagram = .ok view)
    (h : validate_dns_udp_multiplex_response_for_request entry view = .ok ()) :
    Answers entry datagram view := by
  rw [validate_dns_udp_multiplex_response_for_request] at h
  split_ifs at h with hresponse hid hnone hzero hcount
  · exact ⟨hview, Bool.eq_true_of_not_eq_false hresponse, not_not.mp hid,
      .inl (List.isEmpty_iff.mp hnone)⟩
  · have hlen : view.questions.collect.length = entry.questions.length := by
      rw [length_collect_questions hview, not_not.mp hcount]
    exact ⟨hview, Bool.eq_true_of_not_eq_false hresponse, not_not.mp hid,
      .inr (match_pending_questions_ok hlen h)⟩

theorem validate_and_restore_ok {datagram restored : List UInt8}
    (h : validate_and_restore_udp_multiplex_response entry datagram = .ok restored) :
    (∃ view, Answers entry datagram view) ∧ restored = with_id datagram entry.original_id := by
  obtain ⟨view, hview, h⟩ := Fallible.bind_ok h
  obtain ⟨⟨⟩, hvalid, h⟩ := Fallible.bind_ok h
  cases hrestore : restore_packed_response_request_id datagram entry.original_id with
  | none =>
    rw [hrestore] at h
    cases h
  | some bytes =>
    rw [hrestore] at h
    cases h
    exact ⟨⟨view, validate_ok (Fallible.map_err_ok hview) hvalid⟩,
      restore_packed_response_request_id_eq hrestore⟩

/-- A datagram changes nothing, or it completes the entry under its id. -/
inductive Reaction (before : UdpMultiplexActor) (datagram : List UInt8) (now : Nat) :
    UdpMultiplexActor → Prop
  | ignored : Reaction before datagram now before
  | completed (entry : PendingUdpRequest) (view : DnsPacketView)
      (hentry : before.pending[entry.upstream_id]? = some entry) (hanswers : Answers entry datagram view) :
      Reaction before datagram now
        ((before.retire entry.upstream_id now).send entry.response
          (.ok (with_id datagram entry.original_id)))

theorem reaction (datagram : List UInt8) (now : Nat) :
    Reaction self datagram now (self.handle_udp_multiplex_response datagram now) := by
  rw [handle_udp_multiplex_response]
  cases hid : dns_packet_id datagram with
  | error err => exact .ignored
  | ok id =>
    dsimp only
    cases hentry : self.pending[id]? with
    | none => exact .ignored
    | some entry =>
      dsimp only
      cases hvalid : validate_and_restore_udp_multiplex_response entry datagram with
      | error err => exact .ignored
      | ok restored =>
        obtain ⟨⟨view, hanswers⟩, rfl⟩ := validate_and_restore_ok hvalid
        -- the id of the datagram is the key of the entry
        rw [dns_packet_id_of_view hanswers.parsed] at hid
        cases hid
        rw [hanswers.id] at hentry ⊢
        exact .completed entry view hentry hanswers

/-! ## Runs -/

/-- The bytes that answer a request with this payload, made of a datagram. -/
def AnswerTo (payload datagram bytes : List UInt8) : Prop :=
  ∃ request response, DnsPacketView.parse payload = .ok request ∧
    DnsPacketView.parse datagram = .ok response ∧ response.response = true ∧
    (request.questions.collect = [] ∨
      SameQuestions (pending_dns_questions request) response.questions.collect) ∧
    bytes = with_id datagram request.id

structure Consistent (events : List Event) (actor : UdpMultiplexActor) : Prop where
  ids : InStep actor.pending actor.id_allocator
  once : ∀ response, actor.uses response ≤ if response < actor.asked.length then 1 else 0
  queued : ∀ request ∈ actor.receiver, actor.asked[request.response]? = some request.payload
  entries : ∀ (id : UInt16) entry, actor.pending[id]? = some entry →
    ∃ payload, actor.asked[entry.response]? = some payload ∧ EntryFor id entry payload
  answers : ∀ response bytes, (response, .ok bytes) ∈ actor.sends →
    ∃ payload datagram now, actor.asked[response]? = some payload ∧
      .datagram datagram now ∈ events ∧ AnswerTo payload datagram bytes

namespace Consistent

variable {self} {config : UdpMultiplexActorConfig} {events : List Event} {actor after : UdpMultiplexActor}

theorem new (config : UdpMultiplexActorConfig) : Consistent [] (new config) where
  ids := InStep.new config.attempt_timeout
  once := fun _ => Nat.zero_le _
  queued := nofun
  entries := fun id entry h => absurd h empty_ne_some
  answers := nofun

variable (h : Consistent events actor)

include h

theorem mono (event : Event) : Consistent (events ++ [event]) actor :=
  { h with
    answers := by
      intro response bytes hmem
      obtain ⟨payload, datagram, now, hasked, hevent, hanswer⟩ := h.answers response bytes hmem
      exact ⟨payload, datagram, now, hasked, mem_append_left _ hevent, hanswer⟩ }

theorem keeps (hkeeps : Keeps [] actor after) : Consistent events after where
  ids := hkeeps.ids h.ids
  once := by
    intro response
    have hle := hkeeps.uses h.ids response
    have honce := h.once response
    rw [hkeeps.asked]
    exact Nat.le_trans hle honce
  queued := by
    intro request hmem
    rw [hkeeps.asked]
    exact h.queued request (hkeeps.queue hmem)
  entries := by
    intro id entry hentry
    rw [hkeeps.asked]
    obtain hold | ⟨request, hmem, hresponse, hfor⟩ := hkeeps.entries id entry hentry
    · exact h.entries id entry hold
    · rw [hresponse]
      exact ⟨request.payload, h.queued request hmem, hfor⟩
  answers := by
    intro response bytes hmem
    rw [hkeeps.asked]
    exact h.answers response bytes (hkeeps.answers response bytes hmem)

theorem request (payload : List UInt8) (deadline : Nat) :
    Consistent events (actor.request config payload deadline) := by
  rw [UdpMultiplexActor.request]
  split_ifs with hrefused
  · exact h
  · refine ⟨h.ids, ?_, ?_, ?_, ?_⟩
    · intro response
      have honce := h.once response
      rw [uses] at honce ⊢
      simp only [map_append, count_append, map_singleton]
      exact Nat.le_trans (by omega) (uses_concat honce)
    · intro request hmem
      obtain hqueued | hnew := mem_append.mp hmem
      · exact asked_concat (h.queued request hqueued)
      · rw [mem_singleton.mp hnew]
        exact getElem?_concat_length
    · intro id entry hentry
      obtain ⟨bytes, hasked, hfor⟩ := h.entries id entry hentry
      exact ⟨bytes, asked_concat hasked, hfor⟩
    · intro response bytes hmem
      obtain ⟨bytes', datagram, now, hasked, hanswer⟩ := h.answers response bytes hmem
      exact ⟨bytes', datagram, now, asked_concat hasked, hanswer⟩

theorem datagram (bytes : List UInt8) (now : Nat) :
    Consistent (events ++ [.datagram bytes now]) (actor.handle_udp_multiplex_response bytes now) := by
  have hbefore := h.mono (.datagram bytes now)
  have hreaction := actor.reaction bytes now
  generalize actor.handle_udp_multiplex_response bytes now = after at hreaction ⊢
  cases hreaction with
  | ignored => exact hbefore
  | completed entry view hentry hanswers =>
    have hretire := hbefore.keeps (Keeps.retire actor entry.upstream_id now)
    refine ⟨hretire.ids, ?_, hretire.queued, hretire.entries, ?_⟩
    · intro response
      rw [uses_retire_send hentry]
      exact h.once response
    · intro response answer hmem
      obtain hold | hnew := mem_append.mp hmem
      · exact hretire.answers response answer hold
      · obtain ⟨rfl, hanswer⟩ := Prod.mk.inj (mem_singleton.mp hnew)
        obtain ⟨payload, hasked, hfor⟩ := h.entries _ _ hentry
        obtain ⟨request, hrequest, horiginal, hquestions⟩ := hfor.view
        refine ⟨payload, bytes, now, hasked, mem_append_right _ (mem_singleton.mpr rfl),
          request, view, hrequest, hanswers.parsed, hanswers.response, ?_, ?_⟩
        · have hmatch := hanswers.questions
          rw [hquestions] at hmatch
          obtain hnone | hsame := hmatch
          · exact .inl (map_eq_nil_iff.mp hnone)
          · exact .inr hsame
        · rw [Except.ok.inj hanswer, horiginal]

theorem step (event : Event) : Consistent (events ++ [event]) (actor.step config event) := by
  cases event with
  | request payload deadline => exact (h.request payload deadline).mono _
  | abandon response => exact (h.keeps (Keeps.aside actor _ _ _)).mono _
  | receive conditions => exact (h.keeps (Keeps.receive_request actor config conditions)).mono _
  | datagram bytes now => exact h.datagram bytes now
  | expire now released => exact (h.keeps (Keeps.expire_from now released _ actor)).mono _
  | next_deadline => exact (h.keeps (Keeps.next_deadline_from _ actor)).mono _
  | cancel now => exact (h.keeps (Keeps.retire_all now _ actor)).mono _
  | stop now | fail err now => exact (h.keeps (Keeps.shut_down now actor _ _)).mono _

end Consistent

theorem consistent_run (config : UdpMultiplexActorConfig) (events : List Event) :
    Consistent events (run config events) :=
  Run.invariant (Consistent.new config) (fun _ _ event h => h.step event) events

/-- **The multiplexer pairs answers with questions.** After any steps the pending ids are the
occupied ones. A datagram changes nothing or completes the one entry under its id, whose questions
it repeats unless there are none. An answer that a caller gets is a datagram that arrived, under
the id of that caller's request. No channel is answered twice. -/
theorem answers_pair_with_requests (config : UdpMultiplexActorConfig) (events : List Event) :
    (∀ id, ((run config events).pending[id]?).isSome
      = (run config events).id_allocator.is_occupied id) ∧
    (∀ (actor : UdpMultiplexActor) datagram now,
      Reaction actor datagram now (actor.handle_udp_multiplex_response datagram now)) ∧
    (∀ response bytes, (response, .ok bytes) ∈ (run config events).sends →
      ∃ payload datagram now, (run config events).asked[response]? = some payload ∧
        .datagram datagram now ∈ events ∧ AnswerTo payload datagram bytes) ∧
    ((run config events).sends.map Prod.fst).Nodup := by
  have h := consistent_run config events
  refine ⟨h.ids, reaction, h.answers, ?_⟩
  rw [nodup_iff_count_le_one]
  intro response
  have honce := h.once response
  rw [uses] at honce
  split_ifs at honce with hasked
  · omega
  · omega

/-! ### A request without questions -/

/-- A header with no question, under the id `0x1234`. -/
def bare_query : List UInt8 := [0x12, 0x34, 1, 0, 0, 0, 0, 0, 0, 0, 0, 0]

/-- A response under the id 7 to the question for `a.`. -/
def other_answer : List UInt8 :=
  [0, 7, 0x81, 0, 0, 1, 0, 0, 0, 0, 0, 0, 1, 0x61, 0, 0, 1, 0, 1]

def bare_run : UdpMultiplexActor :=
  run
    { target := "198.51.100.1:53", queue_capacity := 1, pending_capacity := 1, inflight_window := 1,
      send_batch_limit := 1, attempt_timeout := 10 }
    [.request bare_query 100,
      .receive { now := fun _ _ => 0, random := fun _ _ => .ok 7, sent := 0,
                 errors := fun _ => none, released := fun _ => 0 },
      .datagram other_answer 1]

/-- A request that has no question is completed by a response to any. -/
theorem bare_query_takes_any_question :
    (0, .ok (with_id other_answer 0x1234)) ∈ bare_run.sends ∧ bare_run.asked = [bare_query] ∧
    ∃ request response, DnsPacketView.parse bare_query = .ok request ∧
      DnsPacketView.parse other_answer = .ok response ∧
      ¬ SameQuestions (pending_dns_questions request) response.questions.collect := by
  have hsends : bare_run.sends = [(0, .ok (with_id other_answer 0x1234))] := by decide +kernel
  have hasked : bare_run.asked = [bare_query] := by decide +kernel
  have hrequest : parse bare_query
      = .ok { packet := bare_query, id := 0x1234, response := false, question_count := 0,
              answer_count := 0, answer_offset := 12 } := by decide +kernel
  have hresponse : parse other_answer
      = .ok { packet := other_answer, id := 7, response := true, question_count := 1,
              answer_count := 0, answer_offset := 19 } := by decide +kernel
  refine ⟨?_, hasked, _, _, hrequest, hresponse, ?_⟩
  · rw [hsends]
    exact mem_singleton.mpr rfl
  · intro hsame
    have hlen := hsame.length_eq
    rw [length_collect_questions hresponse, pending_dns_questions, length_map,
      length_collect_questions hrequest] at hlen
    cases hlen

/-! ## Deadlines -/

/-- Every entry has its deadline in the queue. -/
def Recorded : Prop :=
  ∀ (id : UInt16) entry, self.pending[id]? = some entry →
    ⟨id, entry.generation, entry.deadline⟩ ∈ self.deadlines

/-- The earliest deadline of the entries, where there are any. -/
def Earliest : Option Nat → Prop
  | none => ∀ id : UInt16, self.pending[id]? = none
  | some deadline => (∃ (id : UInt16) (entry : _), self.pending[id]? = some entry ∧
      entry.deadline = deadline) ∧
    ∀ (id : UInt16) entry, self.pending[id]? = some entry → deadline ≤ entry.deadline

namespace Recorded

variable {s : UdpMultiplexActor} {deadline : PendingUdpDeadline} {deadlines : List PendingUdpDeadline}

theorem retire (h : Recorded s) (id : UInt16) (now : Nat) : Recorded (s.retire id now) :=
  fun other entry hentry => h other entry (getElem?_of_erase hentry)

/-- A deadline may go that no entry has any more. -/
theorem tail (h : Recorded { s with deadlines := deadline :: deadlines })
    (hstale : ∀ entry, s.pending[deadline.id]? = some entry →
      entry.generation ≠ deadline.generation ∨ entry.deadline ≠ deadline.deadline) :
    Recorded { s with deadlines } := by
  intro id entry hentry
  obtain rfl | hmem := mem_cons.mp (h id entry hentry)
  · obtain hne | hne := hstale entry hentry
    · exact absurd rfl hne
    · exact absurd rfl hne
  · exact hmem

theorem head_le (h : Recorded { s with deadlines := deadline :: deadlines })
    (hsorted : (deadline :: deadlines).Pairwise fun a b => a.deadline ≤ b.deadline) (id : UInt16)
    (entry : PendingUdpRequest) (hentry : s.pending[id]? = some entry) :
    deadline.deadline ≤ entry.deadline := by
  obtain rfl | hmem := mem_cons.mp (h id entry hentry)
  · exact le_rfl
  · exact (pairwise_cons.mp hsorted).1 _ hmem

/-- The loop stops at the first entry that is not due; in a queue in order no later one is. -/
theorem expire_from (now : Nat) (released : Nat → Nat) (h : Recorded { s with deadlines }) :
    Recorded (expire_from now released deadlines s) ∧
      (deadlines.Pairwise (fun a b => a.deadline ≤ b.deadline) → ∀ (id : UInt16) entry,
        (UdpMultiplexActor.expire_from now released deadlines s).pending[id]? = some entry →
          now < entry.deadline) := by
  fun_induction UdpMultiplexActor.expire_from now released deadlines s with
  | case1 s => exact ⟨h, fun _ id entry hentry => absurd (h id entry hentry) not_mem_nil⟩
  | case2 deadline deadlines s hnone ih =>
    obtain ⟨hrecorded, hdue⟩ := ih (h.tail (by simp [hnone]))
    exact ⟨hrecorded, fun hsorted => hdue hsorted.of_cons⟩
  | case3 deadline deadlines s request hentry hstale ih =>
    obtain ⟨hrecorded, hdue⟩ := ih (h.tail (by simpa [hentry] using hstale))
    exact ⟨hrecorded, fun hsorted => hdue hsorted.of_cons⟩
  | case4 deadline deadlines s request hentry hlive hwaiting =>
    refine ⟨h, fun hsorted id entry hget => ?_⟩
    have hle := h.head_le hsorted id entry hget
    omega
  | case5 deadline deadlines s request hentry hlive hwaiting ih =>
    obtain ⟨hrecorded, hdue⟩ := ih (tail (h.retire deadline.id 0) (by simp [UdpMultiplexActor.retire, send]))
    exact ⟨hrecorded, fun hsorted => hdue hsorted.of_cons⟩

theorem next_deadline_from (h : Recorded { s with deadlines }) :
    Recorded (s.next_deadline_from deadlines).2 ∧
      (deadlines.Pairwise (fun a b => a.deadline ≤ b.deadline) →
        Earliest s (s.next_deadline_from deadlines).1) := by
  fun_induction UdpMultiplexActor.next_deadline_from s deadlines with
  | case1 =>
    refine ⟨h, fun _ id => Option.eq_none_iff_forall_ne_some.mpr fun entry hentry => ?_⟩
    exact absurd (h id entry hentry) not_mem_nil
  | case2 deadline deadlines hnone ih =>
    obtain ⟨hrecorded, hnext⟩ := ih (h.tail (by simp [hnone]))
    exact ⟨hrecorded, fun hsorted => hnext hsorted.of_cons⟩
  | case3 deadline deadlines request hentry hstale ih =>
    obtain ⟨hrecorded, hnext⟩ := ih (h.tail (by simpa [hentry] using hstale))
    exact ⟨hrecorded, fun hsorted => hnext hsorted.of_cons⟩
  | case4 deadline deadlines request hentry hlive =>
    exact ⟨h, fun hsorted => ⟨⟨_, request, hentry, by omega⟩, h.head_le hsorted⟩⟩

variable (config : UdpMultiplexActorConfig) (conditions : Conditions)

theorem prepare_udp_multiplex_request (request : UdpMultiplexRequest) (now : Nat → Nat)
    (random : Nat → Except String UInt16) (h : Recorded s) :
    Recorded (s.prepare_udp_multiplex_request config request now random).2 := by
  fun_cases s.prepare_udp_multiplex_request config request now random with
  | case5 =>
    exact forall_insert (mem_append_right _ mem_cons_self)
      fun id entry hentry => mem_append_left _ (h id entry hentry)
  | _ => exact h

theorem prepare_all (requests : List UdpMultiplexRequest) (i : Nat) (h : Recorded s) :
    Recorded (prepare_all config conditions i requests s).2 := by
  induction requests generalizing i s with
  | nil => exact h
  | cons request requests ih => exact ih _ (h.prepare_udp_multiplex_request config request _ _)

theorem send_prepared_udp_request (request : PreparedUdpMultiplexRequest) (error : Option String)
    (now : Nat) (h : Recorded s) : Recorded (s.send_prepared_udp_request config request error now) := by
  fun_cases s.send_prepared_udp_request config request error now with
  | case3 => exact h.retire _ now
  | _ => exact h

theorem send_all (prepared : List PreparedUdpMultiplexRequest) (i : Nat) (h : Recorded s) :
    Recorded (send_all config conditions i prepared s) := by
  induction prepared generalizing i s with
  | nil => exact h
  | cons request prepared ih => exact ih _ (h.send_prepared_udp_request config request _ _)

theorem receive_request (h : Recorded s) : Recorded (s.receive_request config conditions) := by
  fun_cases s.receive_request config conditions with
  | case2 hwindow request receiver hqueue =>
    dsimp only [handle_udp_multiplex_requests]
    split_ifs with hone
    · exact send_all config conditions _ 0 (prepare_all config conditions _ 0 h)
    · exact send_all config conditions _ 0 (prepare_all config conditions _ 0 h)
  | _ => exact h

theorem retire_all (now : Nat → Nat) (ids : List UInt16) (h : Recorded s) :
    Recorded (retire_all now ids s) := by
  induction ids generalizing s with
  | nil => exact h
  | cons id ids ih => exact ih (h.retire id _)

theorem shut_down (pending_error queued_error : String) (now : Nat → Nat) :
    Recorded (s.shut_down pending_error queued_error now) := by
  intro id entry hentry
  have hempty : (s.shut_down pending_error queued_error now).pending = ∅ :=
    (fail_all_spec pending_error now _ _).1
  rw [hempty] at hentry
  exact absurd hentry empty_ne_some

theorem step (h : Recorded s) (event : Event) : Recorded (s.step config event) := by
  cases event with
  | request payload deadline =>
    change Recorded (s.request config payload deadline)
    fun_cases s.request config payload deadline <;> exact h
  | abandon response => exact h
  | receive conditions => exact h.receive_request config conditions
  | datagram bytes now =>
    change Recorded (s.handle_udp_multiplex_response bytes now)
    fun_cases s.handle_udp_multiplex_response bytes now with
    | case4 => exact h.retire _ now
    | _ => exact h
  | expire now released => exact (h.expire_from now released).1
  | next_deadline => exact h.next_deadline_from.1
  | cancel now => exact h.retire_all now _
  | stop now | fail err now => exact shut_down _ _ now

end Recorded

/-- **Requests expire on time where their deadlines come in order.** -/
theorem expires_in_order (config : UdpMultiplexActorConfig) (events : List Event)
    (hsorted : (run config events).deadlines.Pairwise fun a b => a.deadline ≤ b.deadline) :
    (∀ (now : Nat) (released : Nat → Nat) (id : UInt16) (entry : PendingUdpRequest),
      ((run config events).expire_pending_udp_requests now released).pending[id]? = some entry →
        now < entry.deadline) ∧
      Earliest (run config events) (run config events).next_udp_multiplex_deadline.1 := by
  have hrecorded : Recorded (run config events) := by
    apply Run.invariant (P := fun _ s => Recorded s)
    · exact fun id entry hentry => absurd hentry empty_ne_some
    · exact fun _ _ event h => h.step config event
  exact ⟨fun now released => (hrecorded.expire_from now released).2 hsorted,
    hrecorded.next_deadline_from.2 hsorted⟩

def two_run (first second : Nat) : UdpMultiplexActor :=
  run
    { target := "198.51.100.1:53", queue_capacity := 2, pending_capacity := 2, inflight_window := 2,
      send_batch_limit := 2, attempt_timeout := 100 }
    [.request bare_query first, .request bare_query second,
      .receive { now := fun _ _ => 0, random := fun i _ => .ok (.ofNat (7 + i)), sent := 2,
                 errors := fun _ => none, released := fun _ => 0 }]

theorem expires_in_order_two : Earliest (two_run 50 100) (two_run 50 100).next_udp_multiplex_deadline.1 :=
  (expires_in_order _ _ (by decide +kernel)).2

/-- A request with a late deadline hides one behind it that is due. -/
theorem late_deadline_hides_due_request :
    (((two_run 100 50).expire_pending_udp_requests 60 id).pending[(8 : UInt16)]?).map
      PendingUdpRequest.deadline = some 50 ∧
    (two_run 100 50).next_udp_multiplex_deadline.1 = some 100 := by
  decide +kernel

end UdpMultiplexActor

end DaeNext.Dns
