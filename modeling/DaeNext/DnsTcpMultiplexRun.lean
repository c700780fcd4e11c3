/-
Runs of the multiplexed DNS upstream over TCP.

A request is at one place at a time: with a caller that waits, in the queue, in the hands of the
actor or in the table. `Sound` counts the places: each channel is at one of them or was answered,
and the counter of slots is the number of requests at any of them. The channels in the hands of
the actor are a parameter, so that taking a request out of the queue or of the table, and
answering, dropping or admitting it, are separate lemmas.

Tokens are numbered like channels. As a counter of 64 bits they repeat after that many requests, so
the index of tokens is in step with the table as long as there were no more.
-/
import DaeNext.DnsTcpMultiplex

set_option autoImplicit false

namespace DaeNext.Dns

open Fallible Table
open List hiding getElem?_insert

namespace DnsTcpMultiplex

/-! ## Requests at their places -/

def requests : List ResidentDnsTcpMultiplexCommand → List ResidentDnsTcpMultiplexRequest
  | [] => []
  | .Request request :: commands => request :: requests commands
  | .Cancel _ :: commands => requests commands

theorem requests_append (commands others : List ResidentDnsTcpMultiplexCommand) :
    requests (commands ++ others) = requests commands ++ requests others := by
  induction commands with
  | nil => rfl
  | cons command commands ih =>
    cases command with
    | Request request => exact congrArg (request :: ·) ih
    | Cancel token => exact ih

def token_of (response : Nat) : UInt64 := UInt64.ofNat (response + 1)

theorem token_of_inj {a b : Nat} (ha : a < UInt64.size) (hb : b < UInt64.size)
    (h : token_of a = token_of b) : a = b := by
  have hval := congrArg UInt64.toNat h
  rw [token_of, token_of, UInt64.toNat_ofNat', UInt64.toNat_ofNat'] at hval
  rw [UInt64.size] at ha hb
  omega

def holds (response : Nat) (entry : ResidentDnsTcpPendingRequest) : Nat :=
  if entry.response = response then 1 else 0

variable (self : DnsTcpMultiplex)

/-- How often a channel occurs, with those in the hands of the actor. -/
def uses (hand : List Nat) (response : Nat) : Nat :=
  Table.total (holds response) self.pending
    + (self.waiting.map ResidentDnsTcpMultiplexRequest.response).count response
    + ((requests self.commands).map ResidentDnsTcpMultiplexRequest.response).count response
    + hand.count response + (self.sends.map Prod.fst).count response

/-- A request as its caller made it. -/
structure Numbered (asked : List (List UInt8)) (request : ResidentDnsTcpMultiplexRequest) : Prop where
  token : request.token = token_of request.response
  payload : asked[request.response]? = some request.payload

/-- The entry of a request with this payload. -/
structure EntryFor (asked : List (List UInt8)) (id : UInt16) (entry : ResidentDnsTcpPendingRequest) :
    Prop where
  token : entry.token = token_of entry.response
  payload : ∃ payload, asked[entry.response]? = some payload ∧
    dns_packet_id payload = .ok entry.original_id ∧ entry.request = with_id payload id

/-- A frame that arrived answers the request of a channel: it passes the check against that
request, and the answer is the frame under the id of the caller. -/
def Answered (events : List Event) (asked : List (List UInt8)) (response : Nat) (bytes : List UInt8) :
    Prop :=
  ∃ payload frame now id original_id request_view response_view,
    asked[response]? = some payload ∧ .frame frame now ∈ events ∧
    dns_packet_id payload = .ok original_id ∧
    DnsPacketView.parse (with_id payload id) = .ok request_view ∧
    DnsPacketView.parse frame = .ok response_view ∧
    validate_dns_packet_response_for_request_fast request_view (some response_view) true = .ok () ∧
    bytes = with_id frame original_id

def reserved (events : List Event) : Nat :=
  events.countP fun event => match event with | .reserve_slot _ => true | _ => false

/-- What holds after the events, with these channels in the hands of the actor. -/
structure Sound (events : List Event) (phase : Phase) (hand : List Nat) (mux : DnsTcpMultiplex) :
    Prop where
  phase : mux.phase = phase
  ids : InStep mux.pending mux.allocator
  forth : ∀ (id : UInt16) entry, mux.pending[id]? = some entry → mux.tokens[entry.token]? = some id
  back : ∀ (token : UInt64) id, mux.tokens[token]? = some id →
    ∃ entry, mux.pending[id]? = some entry ∧ entry.token = token
  once : ∀ response, mux.uses hand response ≤ if response < mux.asked.length then 1 else 0
  numbered : ∀ request ∈ mux.waiting ++ requests mux.commands, Numbered mux.asked request
  entries : ∀ (id : UInt16) entry, mux.pending[id]? = some entry → EntryFor mux.asked id entry
  next : mux.next_token = token_of mux.asked.length
  active : mux.active = mux.pending.size + mux.waiting.length + (requests mux.commands).length
    + hand.length
  bound : mux.active ≤ mux.capacity
  covered : ∀ (id : UInt16) entry, mux.pending[id]? = some entry →
    (entry.deadline, id, entry.generation) ∈ mux.deadlines
  answers : ∀ response bytes, (response, .ok bytes) ∈ mux.sends →
    Answered events mux.asked response bytes
  counted : mux.asked.length ≤ reserved events

variable {events : List Event} {self} {phase : Phase} {hand : List Nat} {response : Nat}

namespace Sound

theorem new (capacity : Nat) : Sound [] .Running [] (new capacity) where
  phase := rfl
  ids := InStep.new _
  forth := fun id entry h => absurd h empty_ne_some
  back := fun token id h => absurd h empty_ne_some
  once := fun _ => Nat.zero_le _
  numbered := nofun
  entries := fun id entry h => absurd h empty_ne_some
  next := rfl
  active := rfl
  bound := Nat.zero_le _
  covered := fun id entry h => absurd h empty_ne_some
  answers := nofun
  counted := Nat.zero_le _

/-- What is no part of the description may change. -/
theorem aside (h : Sound events phase hand self) (closing : Bool) (later : Phase)
    (entering : List (List UInt8 × Nat)) (generation : UInt64) (abandoned : List Nat) :
    Sound events later hand { self with closing, phase := later, entering, generation, abandoned } :=
  { h with phase := rfl }

theorem mono (h : Sound events phase hand self) (event : Event) :
    Sound (events ++ [event]) phase hand self :=
  { h with
    answers := by
      intro response bytes hmem
      obtain ⟨payload, frame, now, id, original_id, request_view, response_view, hasked, hevent,
        hanswer⟩ := h.answers response bytes hmem
      exact ⟨payload, frame, now, id, original_id, request_view, response_view, hasked,
        mem_append_left _ hevent, hanswer⟩
    counted := by
      rw [reserved, countP_append]
      exact Nat.le_trans h.counted (Nat.le_add_right _ _) }

theorem allocator (h : Sound events phase hand self) {allocator : DnsRequestIdAllocator}
    (hids : InStep self.pending allocator) : Sound events phase hand { self with allocator } :=
  { h with ids := hids }

/-! ### A request in the hands of the actor -/

section

variable (h : Sound events phase (response :: hand) self)

include h

/-- It is dropped. -/
theorem release_slot : Sound events phase hand self.release_slot :=
  { h with
    once := by
      intro other
      have honce := h.once other
      rw [uses, count_cons] at honce
      rw [uses]
      exact Nat.le_trans (by dsimp only [DnsTcpMultiplex.release_slot]; omega) honce
    active := by
      have hactive := h.active
      rw [length_cons] at hactive
      dsimp only [DnsTcpMultiplex.release_slot]
      omega
    bound := by
      have hbound := h.bound
      dsimp only [DnsTcpMultiplex.release_slot]
      omega }

/-- It is answered and dropped. -/
theorem send_release {result : Except ProxyDnsRequestError (List UInt8)}
    (hresult : ∀ bytes, result = .ok bytes → Answered events self.asked response bytes) :
    Sound events phase hand (self.send response result).release_slot :=
  { h with
    once := by
      intro other
      have honce := h.once other
      rw [uses, count_cons] at honce
      rw [uses]
      dsimp only [DnsTcpMultiplex.release_slot, DnsTcpMultiplex.send]
      rw [map_append, count_append, map_singleton, count_singleton]
      dsimp only
      exact Nat.le_trans (by omega) honce
    active := h.release_slot.active
    bound := h.release_slot.bound
    answers := by
      intro other bytes hmem
      obtain hold | hnew := mem_append.mp hmem
      · exact h.answers other bytes hold
      · obtain ⟨rfl, hbytes⟩ := Prod.mk.inj (mem_singleton.mp hnew)
        exact hresult bytes hbytes.symm }

theorem fail (error : ProxyDnsRequestError) : Sound events phase hand (self.fail response error) :=
  h.send_release nofun

end

variable {id : UInt16}

/-- It comes from the table. -/
theorem unlink (h : Sound events phase hand self) {entry : ResidentDnsTcpPendingRequest}
    (hentry : self.pending[id]? = some entry) (now : Nat) :
    Sound events phase (entry.response :: hand) (self.unlink id entry.token now) where
  phase := h.phase
  ids := h.ids.erase id now
  forth := by
    intro other request hrequest
    dsimp only [DnsTcpMultiplex.unlink] at hrequest ⊢
    rw [getElem?_erase] at hrequest ⊢
    split_ifs at hrequest with hother
    -- another id has another token
    rw [if_neg, h.forth other request hrequest]
    intro htoken
    have hid := h.forth id entry hentry
    rw [← htoken, h.forth other request hrequest] at hid
    exact hother (Option.some.inj hid)
  back := by
    intro token other htoken
    dsimp only [DnsTcpMultiplex.unlink] at htoken ⊢
    rw [getElem?_erase] at htoken
    split_ifs at htoken with hne
    obtain ⟨request, hrequest, heq⟩ := h.back token other htoken
    refine ⟨request, ?_, heq⟩
    rw [getElem?_erase, if_neg, hrequest]
    intro hother
    rw [hother, hentry] at hrequest
    cases hrequest
    exact hne heq.symm
  once := by
    intro other
    have honce := h.once other
    rw [uses, total_eq_add_erase (holds other) hentry, holds] at honce
    rw [uses]
    dsimp only [DnsTcpMultiplex.unlink]
    rw [count_cons]
    simp only [beq_iff_eq]
    exact Nat.le_trans (by omega) honce
  numbered := h.numbered
  entries := fun other request hrequest => h.entries other request (getElem?_of_erase hrequest)
  next := h.next
  active := by
    have hsize := (toList_perm_erase hentry).length_eq
    rw [length_cons, Std.TreeMap.length_toList, Std.TreeMap.length_toList] at hsize
    have hactive := h.active
    dsimp only [DnsTcpMultiplex.unlink]
    rw [length_cons]
    omega
  bound := h.bound
  covered := fun other request hrequest => h.covered other request (getElem?_of_erase hrequest)
  answers := h.answers
  counted := h.counted

/-- Requests move between the callers, the queue and the hands of the actor. -/
theorem requeue (h : Sound events phase hand self) {held : List Nat}
    {waiting : List ResidentDnsTcpMultiplexRequest} {commands : List ResidentDnsTcpMultiplexCommand}
    (hnumbered : ∀ request ∈ waiting ++ requests commands, Numbered self.asked request)
    (hperm : (held ++ (waiting ++ requests commands).map ResidentDnsTcpMultiplexRequest.response).Perm
      (hand ++ (self.waiting ++ requests self.commands).map ResidentDnsTcpMultiplexRequest.response)) :
    Sound events phase held { self with waiting, commands } :=
  { h with
    once := by
      intro other
      have hcount := hperm.count_eq other
      have honce := h.once other
      simp only [map_append, count_append] at hcount
      rw [uses] at honce ⊢
      exact Nat.le_trans (by dsimp only; omega) honce
    numbered := hnumbered
    active := by
      have hlength := hperm.length_eq
      have hactive := h.active
      simp only [length_append, length_map] at hlength
      dsimp only
      omega }

variable {request : ResidentDnsTcpMultiplexRequest}

section

variable (h : Sound events phase hand self) {commands : List ResidentDnsTcpMultiplexCommand}

include h

/-- It comes from the queue. -/
theorem take_request (hqueue : self.commands = .Request request :: commands) :
    Sound events phase (request.response :: hand) { self with commands } ∧ Numbered self.asked request := by
  have hnumbered := h.numbered
  rw [hqueue, requests] at hnumbered
  constructor
  · apply h.requeue
    · intro other hother
      obtain hwaiting | hqueued := mem_append.mp hother
      · exact hnumbered other (mem_append_left _ hwaiting)
      · exact hnumbered other (mem_append_right _ (mem_cons_of_mem _ hqueued))
    · rw [hqueue, requests, map_append, map_append, map_cons, cons_append,
        ← append_assoc, ← append_assoc]
      exact List.perm_middle.symm
  · exact hnumbered request (mem_append_right _ mem_cons_self)

theorem take_cancel {token : UInt64}
    (hqueue : self.commands = .Cancel token :: commands) : Sound events phase hand { self with commands } := by
  have hsame : requests self.commands = requests commands := by rw [hqueue, requests]
  apply h.requeue
  · rw [← hsame]
    exact h.numbered
  · rw [hsame]

end

section

variable (h : Sound events phase (request.response :: hand) self) (hnumbered : Numbered self.asked request)
  (hfew : self.asked.length ≤ UInt64.size)

include h hnumbered hfew

/-- It goes into the table, under an id that was free. -/
theorem insert {original_id : UInt16} (horiginal : dns_packet_id request.payload = .ok original_id)
    (hfree : self.allocator.is_occupied id = false) (generation : UInt64) :
    Sound events phase hand
      { self with
        allocator := self.allocator.occupy id
        deadlines := self.deadlines.orderedInsert DeadlineEntry.le (request.deadline, id, generation)
        tokens := self.tokens.insert request.token id
        pending := self.pending.insert id
          { token := request.token
            original_id
            generation
            request := with_id request.payload id
            deadline := request.deadline
            response := request.response } } := by
  have habsent : self.pending[id]? = none := h.ids.absent hfree
  -- no entry has the token of a request that is in the hands of the actor
  have hfresh : ∀ (other : UInt16) entry, self.pending[other]? = some entry →
      entry.token ≠ request.token := by
    intro other entry hentry htoken
    have hentryfor := h.entries other entry hentry
    obtain ⟨payload, hpayload, _⟩ := hentryfor.payload
    have hlt := (List.getElem?_eq_some_iff.mp hpayload).1
    have hlt' := (List.getElem?_eq_some_iff.mp hnumbered.payload).1
    rw [hentryfor.token, hnumbered.token] at htoken
    have hsame := token_of_inj (Nat.lt_of_lt_of_le hlt hfew) (Nat.lt_of_lt_of_le hlt' hfew) htoken
    have honce := h.once entry.response
    rw [if_pos hlt, uses, total_eq_add_erase (holds entry.response) hentry, holds, if_pos rfl,
      hsame, count_cons_self] at honce
    omega
  refine ⟨h.phase, h.ids.insert id _, ?_, ?_, ?_, h.numbered, ?_, h.next, ?_, h.bound, ?_, h.answers, h.counted⟩
  · intro other entry hentry
    obtain ⟨hother, rfl⟩ | ⟨hother, hentry⟩ := getElem?_insert_cases hentry
    · rw [getElem?_insert, if_pos rfl, hother]
    · rw [getElem?_insert, if_neg (hfresh other entry hentry), h.forth other entry hentry]
  · intro token other htoken
    obtain ⟨htok, rfl⟩ | ⟨htok, htoken⟩ := getElem?_insert_cases htoken
    · exact ⟨_, by rw [getElem?_insert, if_pos rfl], htok.symm⟩
    · obtain ⟨entry, hentry, heq⟩ := h.back token other htoken
      refine ⟨entry, ?_, heq⟩
      rw [getElem?_insert, if_neg, hentry]
      intro hother
      rw [hother, habsent] at hentry
      cases hentry
  · intro other
    have honce := h.once other
    rw [uses, count_cons] at honce
    rw [uses]
    rw [total_insert_of_none _ habsent, holds]
    simp only [beq_iff_eq] at honce
    dsimp only
    exact Nat.le_trans (by omega) honce
  · intro other entry hentry
    obtain ⟨hother, rfl⟩ | ⟨hother, hentry⟩ := getElem?_insert_cases hentry
    · exact ⟨hnumbered.token, request.payload, hnumbered.payload, horiginal, by rw [hother]⟩
    · exact h.entries other entry hentry
  · have hactive := h.active
    dsimp only
    rw [size_insert_of_none habsent]
    rw [length_cons] at hactive
    omega
  · intro other entry hentry
    rw [mem_orderedInsert]
    obtain ⟨rfl, rfl⟩ | ⟨_, hentry⟩ := getElem?_insert_cases hentry
    · exact .inl rfl
    · exact .inr (h.covered other entry hentry)

/-! ### Callers -/

theorem admit_with_id {original_id : UInt16} (horiginal : dns_packet_id request.payload = .ok original_id)
    (hfree : self.allocator.is_occupied id = false) (generation : UInt64) (now : Nat)
    (write : Option TrySendError) :
    Sound events phase hand
      ({ self with allocator := self.allocator.occupy id }.admit_with_id request generation
        original_id id now write) := by
  unfold DnsTcpMultiplex.admit_with_id
  dsimp only
  cases hview : DnsPacketView.parse (with_id request.payload id) with
  | error err => exact (h.allocator (h.ids.occupy_release hfree now)).fail _
  | ok view =>
    cases write with
    | some error => exact (h.allocator (h.ids.occupy_release hfree now)).fail _
    | none => exact h.insert hnumbered hfew horiginal hfree generation

theorem admit_resident_dns_tcp_request (generation : UInt64) (capacity : Nat) (now : Nat → Nat) (random : Nat → Except String UInt16)
    (write : Option TrySendError) :
    Sound events phase hand
      (self.admit_resident_dns_tcp_request request generation capacity now random write) := by
  rw [DnsTcpMultiplex.admit_resident_dns_tcp_request]
  split_ifs with hgone hlate
  · exact h.release_slot
  · exact h.fail _
  · cases horiginal : dns_packet_id request.payload with
    | error error => exact h.fail _
    | ok original_id =>
      obtain ⟨id, hfree, _, heq⟩ | ⟨⟨error, heq⟩, _⟩ :=
        self.allocator.allocate_at_cases capacity (now 1) random
      · rw [heq]
        rw [DnsRequestIdAllocator.is_unavailable, Bool.or_eq_false_iff] at hfree
        exact (h.allocator (h.ids.reap_quarantine (now 1))).admit_with_id hnumbered hfew horiginal
          hfree.1 generation (now 2) write
      · rw [heq]
        exact (h.allocator (h.ids.reap_quarantine (now 1))).fail _

end

section

variable (h : Sound events phase [] self)

include h

theorem reserve_slot (caller : Nat) :
    Sound (events ++ [.reserve_slot caller]) phase [] (self.reserve_slot caller) := by
  have hless := h.counted
  have hmore : reserved (events ++ [.reserve_slot caller]) = reserved events + 1 := by
    rw [reserved, countP_append]
    rfl
  have h := h.mono (.reserve_slot caller)
  rw [DnsTcpMultiplex.reserve_slot]
  cases hcaller : self.entering[caller]? with
  | none => exact h
  | some entry =>
    obtain ⟨payload, deadline⟩ := entry
    dsimp only
    split_ifs with hroom
    · refine ⟨h.phase, h.ids, h.forth, h.back, ?_, ?_, ?_, ?_, ?_, hroom, h.covered, ?_, ?_⟩
      · intro other
        have honce := h.once other
        rw [uses] at honce ⊢
        simp only [map_append, count_append, map_singleton]
        exact Nat.le_trans (by omega) (uses_concat honce)
      · intro request hrequest
        have hcases : request ∈ self.waiting ++ requests self.commands ∨
            request = { token := self.next_token, payload, deadline, response := self.asked.length } := by
          simp only [mem_append, mem_singleton] at hrequest ⊢
          obtain (hwaiting | hnew) | hqueued := hrequest
          · exact .inl (.inl hwaiting)
          · exact .inr hnew
          · exact .inl (.inr hqueued)
        obtain hother | rfl := hcases
        · have hnumbered := h.numbered request hother
          exact ⟨hnumbered.token, asked_concat hnumbered.payload⟩
        · exact ⟨h.next, getElem?_concat_length⟩
      · intro id entry hentry
        have hentryfor := h.entries id entry hentry
        obtain ⟨bytes, hbytes, hrest⟩ := hentryfor.payload
        exact ⟨hentryfor.token, bytes, asked_concat hbytes, hrest⟩
      · rw [h.next, length_append, length_singleton, token_of, token_of]
        exact (UInt64.ofNat_add _ _).symm
      · have hactive := h.active
        dsimp only
        rw [length_append, length_singleton, hactive]
        omega
      · intro other bytes hmem
        obtain ⟨bytes', frame, now, id, original_id, request_view, response_view, hasked, hanswer⟩ :=
          h.answers other bytes hmem
        exact ⟨bytes', frame, now, id, original_id, request_view, response_view, asked_concat hasked, hanswer⟩
      · rw [length_append, length_singleton]
        omega
    · exact { h with }

omit h in
theorem waiting_perm {caller : Nat} (hcaller : self.waiting[caller]? = some request) :
    self.waiting.Perm (request :: self.waiting.eraseIdx caller) := by
  obtain ⟨hlt, rfl⟩ := List.getElem?_eq_some_iff.mp hcaller
  exact (getElem_cons_eraseIdx_perm hlt).symm

omit h in
theorem take_waiting (h : Sound events phase hand self) {caller : Nat}
    (hcaller : self.waiting[caller]? = some request) :
    Sound events phase (request.response :: hand)
      { self with waiting := self.waiting.eraseIdx caller } := by
  have hperm := waiting_perm hcaller
  apply h.requeue
  · intro other hother
    apply h.numbered other
    obtain hwaiting | hqueued := mem_append.mp hother
    · exact mem_append_left _ (hperm.mem_iff.mpr (mem_cons_of_mem _ hwaiting))
    · exact mem_append_right _ hqueued
  · exact (List.perm_middle.symm.trans
      (((hperm.append_right _).map _).append_left hand).symm)

theorem enqueue (caller : Nat) : Sound events phase [] (self.enqueue caller) := by
  rw [DnsTcpMultiplex.enqueue]
  cases hcaller : self.waiting[caller]? with
  | none => exact h
  | some request =>
    split_ifs with hfull
    · exact h
    · have hrequests : requests (self.commands ++ [.Request request])
          = requests self.commands ++ [request] := requests_append _ _
      apply (h.take_waiting hcaller).requeue
      · intro other hother
        rw [hrequests, ← append_assoc] at hother
        obtain hold | hnew := mem_append.mp hother
        · exact (h.take_waiting hcaller).numbered other hold
        · rw [mem_singleton.mp hnew]
          exact h.numbered request (mem_append_left _ (mem_of_getElem? hcaller))
      · rw [hrequests, ← append_assoc, map_append]
        exact perm_append_singleton _ _

theorem give_up (caller : Nat) : Sound events phase [] (self.give_up caller) := by
  rw [DnsTcpMultiplex.give_up]
  cases hcaller : self.waiting[caller]? with
  | none => exact h
  | some request => exact (h.take_waiting hcaller).release_slot

theorem abandon (channel : Nat) (token : UInt64) :
    Sound events phase [] (self.abandon channel token) := by
  rw [DnsTcpMultiplex.abandon]
  split_ifs with hfull
  · exact { h with }
  · have hrequests : requests (self.commands ++ [.Cancel token]) = requests self.commands := by
      rw [requests_append]
      exact append_nil _
    have habandoned : Sound events phase [] { self with abandoned := channel :: self.abandoned } :=
      { h with }
    apply habandoned.requeue
    · rw [hrequests]
      exact h.numbered
    · rw [hrequests]

/-! ### The actor -/

theorem cancel_resident_dns_tcp_request (token : UInt64) (now : Nat) :
    Sound events phase [] (self.cancel_resident_dns_tcp_request token now) := by
  rw [DnsTcpMultiplex.cancel_resident_dns_tcp_request]
  cases htoken : self.tokens[token]? with
  | none => exact h
  | some id =>
    obtain ⟨entry, hentry, rfl⟩ := h.back token id htoken
    dsimp only
    rw [hentry]
    exact (h.unlink hentry now).release_slot

theorem receive_command (hfew : self.asked.length ≤ UInt64.size) (now : Nat → Nat)
    (random : Nat → Except String UInt16) (write : Option TrySendError) :
    Sound events phase [] (self.receive_command now random write) := by
  rw [DnsTcpMultiplex.receive_command]
  split_ifs with hroom
  · cases hqueue : self.commands with
    | nil => exact h
    | cons command commands =>
      cases command with
      | Request request =>
        obtain ⟨htaken, hnumbered⟩ := h.take_request hqueue
        have hcounted := htaken.aside self.closing phase self.entering
          (self.generation + 1) self.abandoned
        rw [← h.phase] at hcounted
        rw [← h.phase]
        exact hcounted.admit_resident_dns_tcp_request hnumbered hfew _ _ now random write
      | Cancel token =>
        exact (h.take_cancel hqueue).cancel_resident_dns_tcp_request token (now 0)
  · exact h

omit h in
theorem discard_all (now : Nat → Nat) (ids : List UInt16) (h : Sound events phase [] self) :
    Sound events phase [] (discard_all now ids self) := by
  induction ids generalizing self with
  | nil => exact h
  | cons id ids ih =>
    rw [DnsTcpMultiplex.discard_all]
    cases hentry : self.pending[id]? with
    | none => exact ih h
    | some request => exact ih (h.unlink hentry _).release_slot

omit h in
theorem response_result_ok {entry : ResidentDnsTcpPendingRequest} {asked : List (List UInt8)}
    {frame bytes : List UInt8} (hentry : EntryFor asked id entry) (now : Nat)
    (hevent : .frame frame now ∈ events) (h : response_result entry frame = .ok bytes) :
    Answered events asked entry.response bytes := by
  obtain ⟨payload, hpayload, horiginal, hrequest⟩ := hentry.payload
  obtain ⟨⟨⟩, hvalid, h⟩ := bind_ok h
  obtain ⟨request_view, hview, hvalid⟩ := bind_ok hvalid
  obtain ⟨response_view, hview', hvalid⟩ := bind_ok hvalid
  rw [hrequest] at hview
  exact ⟨payload, frame, now, id, entry.original_id, request_view, response_view, hpayload, hevent,
    horiginal, map_err_ok hview, map_err_ok hview', map_err_ok hvalid,
    (Except.ok.inj h).symm⟩

theorem dispatch_resident_dns_tcp_response {frame : List UInt8} {now : Nat}
    (hevent : .frame frame now ∈ events) :
    Sound events phase [] (self.dispatch_resident_dns_tcp_response frame now) := by
  rw [DnsTcpMultiplex.dispatch_resident_dns_tcp_response]
  cases hid : dns_packet_id frame with
  | error error => exact h
  | ok id =>
    dsimp only
    cases hentry : self.pending[id]? with
    | none => exact h
    | some request =>
      apply (h.unlink hentry now).send_release
      intro bytes hbytes
      exact response_result_ok (h.entries id request hentry) now hevent hbytes

end

theorem fail_all (error : ProxyDnsRequestError) (now : Nat → Nat)
    (entries : List (UInt16 × ResidentDnsTcpPendingRequest)) (h : Sound events phase [] self)
    (hdistinct : entries.Pairwise fun a b => a.1 ≠ b.1)
    (hentries : ∀ entry ∈ entries, self.pending[entry.1]? = some entry.2) :
    Sound events phase [] (fail_all error now entries self) := by
  induction entries generalizing self with
  | nil => exact h
  | cons entry entries ih =>
    obtain ⟨id, request⟩ := entry
    obtain ⟨hne, hdistinct⟩ := pairwise_cons.mp hdistinct
    have hrequest := hentries (id, request) mem_cons_self
    refine ih ((h.unlink hrequest _).fail error) hdistinct ?_
    intro other hother
    have hpending : ∀ mux : DnsTcpMultiplex, (mux.fail request.response error).pending = mux.pending :=
      fun _ => rfl
    rw [hpending, DnsTcpMultiplex.unlink, getElem?_erase, if_neg (hne other hother).symm]
    exact hentries other (mem_cons_of_mem _ hother)

variable (commands : List ResidentDnsTcpMultiplexCommand)

theorem fail_queued_from (h : Sound events phase [] { self with commands }) :
    Sound events phase [] (fail_queued_from commands self) := by
  induction commands generalizing self with
  | nil => exact h
  | cons command commands ih =>
    cases command with
    | Cancel token => exact ih (h.take_cancel rfl)
    | Request request => exact ih ((h.take_request rfl).1.fail _)

theorem drop_queued_from (h : Sound events phase [] { self with commands }) :
    Sound events phase [] (drop_queued_from commands self) := by
  induction commands generalizing self with
  | nil => exact h
  | cons command commands ih =>
    cases command with
    | Cancel token => exact ih (h.take_cancel rfl)
    | Request request => exact ih (h.take_request rfl).1.release_slot

/-- The heap loses only entries whose deadline has passed, and those are not pending any more. -/
theorem expire_from (now : Nat) (released : Nat → Nat) (deadlines : List DeadlineEntry)
    (h : Sound events phase [] { self with deadlines }) :
    Sound events phase [] (expire_from now released deadlines self) := by
  induction deadlines generalizing self with
  | nil => exact h
  | cons head deadlines ih =>
    obtain ⟨deadline, id, generation⟩ := head
    rw [DnsTcpMultiplex.expire_from]
    by_cases hdue : deadline ≤ now
    · rw [if_pos hdue]
      -- the entry is not that of a pending request
      have hpop : (∀ entry, self.pending[id]? = some entry →
            ¬ (entry.generation = generation ∧ entry.deadline ≤ now)) →
          Sound events phase [] { self with deadlines } := by
        intro hstale
        refine { h with covered := ?_ }
        intro other entry hentry
        obtain heq | hmem := mem_cons.mp (h.covered other entry hentry)
        · obtain ⟨rfl, rfl, rfl⟩ : entry.deadline = deadline ∧ other = id ∧
              entry.generation = generation := by
            simpa only [Prod.mk.injEq] using heq
          exact absurd ⟨rfl, hdue⟩ (hstale entry hentry)
        · exact hmem
      cases hentry : self.pending[id]? with
      | none =>
        apply ih
        apply hpop
        intro entry hsome
        rw [hentry] at hsome
        cases hsome
      | some request =>
        dsimp only
        split_ifs with hexpired
        · apply ih
          have hfailed := (h.unlink hentry (released deadlines.length)).fail
            (ProxyDnsRequestError.deadline .Read)
          refine { hfailed with covered := ?_ }
          intro other entry hother
          dsimp only [DnsTcpMultiplex.fail, DnsTcpMultiplex.release_slot, DnsTcpMultiplex.send,
            DnsTcpMultiplex.unlink] at hother ⊢
          rw [getElem?_erase] at hother
          split_ifs at hother with hid
          obtain heq | hmem := mem_cons.mp (h.covered other entry hother)
          · exact absurd (Prod.mk.inj (Prod.mk.inj heq).2).1 hid
          · exact hmem
        · apply ih
          apply hpop
          intro entry hsome
          rw [hentry] at hsome
          cases hsome
          exact hexpired
    · rw [if_neg hdue]
      exact h

end Sound

/-! ## The end of the actor -/

theorem pending_fail_all (error : ProxyDnsRequestError) (now : Nat → Nat)
    (entries : List (UInt16 × ResidentDnsTcpPendingRequest)) (mux : DnsTcpMultiplex) (id : UInt16) :
    (fail_all error now entries mux).pending[id]?
      = if id ∈ entries.map Prod.fst then none else mux.pending[id]? := by
  induction entries generalizing mux with
  | nil => rfl
  | cons entry entries ih =>
    obtain ⟨key, request⟩ := entry
    rw [fail_all, ih, map_cons]
    have hpending : ((mux.unlink key request.token (now entries.length)).fail request.response
        error).pending = mux.pending.erase key := rfl
    rw [hpending, getElem?_erase]
    simp only [mem_cons, or_comm (a := id = key), ite_or]

variable (commands : List ResidentDnsTcpMultiplexCommand)

theorem pending_fail_queued_from (mux : DnsTcpMultiplex) :
    (fail_queued_from commands mux).pending = mux.pending ∧
      (fail_queued_from commands mux).commands = [] := by
  induction commands generalizing mux with
  | nil => exact ⟨rfl, rfl⟩
  | cons command commands ih =>
    cases command with
    | Cancel token => exact ih mux
    | Request request => exact ih _

theorem pending_drop_queued_from (mux : DnsTcpMultiplex) :
    (drop_queued_from commands mux).pending = mux.pending ∧
      (drop_queued_from commands mux).commands = [] := by
  induction commands generalizing mux with
  | nil => exact ⟨rfl, rfl⟩
  | cons command commands ih =>
    cases command with
    | Cancel token => exact ih mux
    | Request request => exact ih _

theorem pending_stop (mux : DnsTcpMultiplex) (detail : Option String) (now : Nat → Nat) (id : UInt16) :
    (mux.stop detail now).pending[id]? = none := by
  rw [stop, (pending_fail_queued_from _ _).1, fail_all_resident_dns_tcp_requests, pending_fail_all]
  split_ifs with hmem
  · rfl
  · by_contra hsome
    obtain ⟨entry, hentry⟩ := Option.ne_none_iff_exists'.mp hsome
    exact hmem (mem_map_of_mem (Std.TreeMap.mem_toList_iff_getElem?_eq_some.mpr hentry))

theorem Sound.stop (h : Sound events phase [] self) (detail : Option String) (now : Nat → Nat) :
    Sound events .Stopping [] (self.stop detail now) := by
  have hclosing := h.aside true .Stopping self.entering self.generation self.abandoned
  apply Sound.fail_queued_from
  apply hclosing.fail_all
  · exact toList_keys_distinct _
  · intro entry hentry
    exact Std.TreeMap.mem_toList_iff_getElem?_eq_some.mp hentry

theorem Sound.drop_registration (h : Sound events phase [] self) :
    Sound events .Stopped [] self.drop_registration :=
  Sound.drop_queued_from _ (h.aside true .Stopped self.entering self.generation self.abandoned)

/-! ## Runs -/

structure Consistent (events : List Event) (mux : DnsTcpMultiplex) : Prop where
  sound : Sound events mux.phase [] mux
  ended : mux.phase ≠ .Running → ∀ id : UInt16, mux.pending[id]? = none
  drained : mux.phase = .Stopped → mux.commands = []

namespace Consistent

/-- A step that leaves the phase and, once the loop has ended, the table and the closed queue. -/
theorem of_sound {before after : DnsTcpMultiplex} (h : Consistent events before)
    (hsound : Sound events before.phase [] after)
    (hended : before.phase ≠ .Running → after.pending = before.pending)
    (hdrained : before.phase = .Stopped → after.commands = before.commands) :
    Consistent events after where
  sound := by
    rw [hsound.phase]
    exact hsound
  ended := by
    rw [hsound.phase]
    intro hphase id
    rw [hended hphase, h.ended hphase id]
  drained := by
    rw [hsound.phase]
    intro hphase
    rw [hdrained hphase, h.drained hphase]

theorem running {before after : DnsTcpMultiplex} (h : Consistent events before)
    (hsound : before.phase = .Running → Sound events .Running [] after) :
    Consistent events (before.running after) := by
  rw [DnsTcpMultiplex.running]
  split_ifs with hphase
  · have hafter := hsound hphase
    refine h.of_sound (by rw [hphase]; exact hafter) (fun hne => absurd hphase hne) ?_
    intro hstopped
    rw [hphase] at hstopped
    cases hstopped
  · exact h

variable {mux : DnsTcpMultiplex}

theorem mono (h : Consistent events mux) (event : Event) : Consistent (events ++ [event]) mux :=
  ⟨h.sound.mono event, h.ended, h.drained⟩

section Callers

variable {mux : DnsTcpMultiplex}

section

variable (h : Consistent events mux)

include h

theorem enter (payload : List UInt8) (deadline : Nat) :
    Consistent events (mux.enter payload deadline) := by
  rw [DnsTcpMultiplex.enter]
  split_ifs with hclosed hlong
  · exact h
  · exact h
  · exact h.of_sound (h.sound.aside mux.closing mux.phase _ mux.generation mux.abandoned)
      (fun _ => rfl) (fun _ => rfl)

theorem reserve_slot (caller : Nat) :
    Consistent (events ++ [.reserve_slot caller]) (mux.reserve_slot caller) := by
  have hframe : (mux.reserve_slot caller).pending = mux.pending ∧
      (mux.reserve_slot caller).commands = mux.commands := by
    rw [DnsTcpMultiplex.reserve_slot]
    cases mux.entering[caller]? with
    | none => exact ⟨rfl, rfl⟩
    | some entry =>
      dsimp only
      split_ifs with hroom
      · exact ⟨rfl, rfl⟩
      · exact ⟨rfl, rfl⟩
  exact (h.mono _).of_sound (h.sound.reserve_slot caller) (fun _ => hframe.1) (fun _ => hframe.2)

theorem enqueue (caller : Nat) : Consistent events (mux.enqueue caller) := by
  have hframe : (mux.enqueue caller).pending = mux.pending ∧
      (mux.phase = .Stopped → (mux.enqueue caller).commands = mux.commands) := by
    rw [DnsTcpMultiplex.enqueue]
    cases mux.waiting[caller]? with
    | none => exact ⟨rfl, fun _ => rfl⟩
    | some request =>
      split_ifs with hfull
      · exact ⟨rfl, fun _ => rfl⟩
      · exact ⟨rfl, fun hstopped => absurd (.inl hstopped) hfull⟩
  exact h.of_sound (h.sound.enqueue caller) (fun _ => hframe.1) hframe.2

theorem give_up (caller : Nat) : Consistent events (mux.give_up caller) := by
  have hframe : (mux.give_up caller).pending = mux.pending ∧
      (mux.give_up caller).commands = mux.commands := by
    rw [DnsTcpMultiplex.give_up]
    cases mux.waiting[caller]? with
    | none | some request => exact ⟨rfl, rfl⟩
  exact h.of_sound (h.sound.give_up caller) (fun _ => hframe.1) (fun _ => hframe.2)

theorem abandon (response : Nat) (token : UInt64) : Consistent events (mux.abandon response token) := by
  have hframe : (mux.abandon response token).pending = mux.pending ∧
      (mux.phase = .Stopped → (mux.abandon response token).commands = mux.commands) := by
    rw [DnsTcpMultiplex.abandon]
    split_ifs with hfull
    · exact ⟨rfl, fun _ => rfl⟩
    · exact ⟨rfl, fun hstopped => absurd (.inl hstopped) hfull⟩
  exact h.of_sound (h.sound.abandon response token) (fun _ => hframe.1) hframe.2

end

end Callers

theorem stop (h : Consistent events mux) (detail : Option String) (now : Nat → Nat) :
    Consistent events (mux.running (mux.stop detail now)) := by
  rw [DnsTcpMultiplex.running]
  split_ifs with hphase
  · have hsound := h.sound.stop detail now
    refine ⟨?_, fun _ => pending_stop mux detail now, ?_⟩
    · rw [hsound.phase]
      exact hsound
    · rw [hsound.phase]
      nofun
  · exact h

theorem drop_registration (h : Consistent events mux) (hphase : mux.phase = .Stopping) :
    Consistent events mux.drop_registration := by
  have hsound := h.sound.drop_registration
  obtain ⟨hpending, hcommands⟩ := pending_drop_queued_from mux.commands
    { mux with closing := true, phase := .Stopped }
  refine ⟨?_, ?_, fun _ => hcommands⟩
  · rw [hsound.phase]
    exact hsound
  · intro _ id
    rw [DnsTcpMultiplex.drop_registration, hpending]
    apply h.ended
    rw [hphase]
    nofun

theorem step (h : Consistent events mux) (hfew : mux.asked.length ≤ UInt64.size) (event : Event) :
    Consistent (events ++ [event]) (mux.step event) := by
  have hbefore := h
  have h := h.mono event
  have hsound : mux.phase = .Running → Sound (events ++ [event]) .Running [] mux := by
    intro hphase
    rw [← hphase]
    exact h.sound
  cases event with
  | enter payload deadline => exact h.enter payload deadline
  | reserve_slot caller => exact hbefore.reserve_slot caller
  | enqueue caller => exact h.enqueue caller
  | give_up caller => exact h.give_up caller
  | abandon response token => exact h.abandon response token
  | close =>
    exact h.of_sound (h.sound.aside true mux.phase mux.entering mux.generation mux.abandoned)
      (fun _ => rfl) (fun _ => rfl)
  | notified now => exact h.running fun hphase => (hsound hphase).discard_all now _
  | command now random write =>
    exact h.running fun hphase => (hsound hphase).receive_command hfew now random write
  | frame response now =>
    exact h.running fun hphase => (hsound hphase).dispatch_resident_dns_tcp_response
      (mem_append_right _ (mem_singleton.mpr rfl))
  | expire now released =>
    exact h.running fun hphase => Sound.expire_from now released _ (hsound hphase)
  | stop detail now => exact h.stop detail now
  | drop_registration =>
    rw [DnsTcpMultiplex.step]
    split_ifs with hphase
    · exact h.drop_registration hphase
    · exact h

end Consistent

theorem reserved_append (events : List Event) (event : Event) :
    reserved events ≤ reserved (events ++ [event]) := by
  rw [reserved, reserved, countP_append]
  exact Nat.le_add_right _ _

theorem consistent_run (capacity : Nat) (events : List Event) (hfew : reserved events ≤ UInt64.size) :
    Consistent events (run capacity events) := by
  revert hfew
  apply Run.invariant (P := fun events mux => reserved events ≤ UInt64.size → Consistent events mux)
  · exact fun _ => ⟨Sound.new capacity, fun hphase => absurd rfl hphase, nofun⟩
  · intro events mux event ih hfew
    have hbefore := Nat.le_trans (reserved_append events event) hfew
    have h := ih hbefore
    exact h.step (Nat.le_trans h.sound.counted hbefore) event

/-- **Tokens, ids and slots stay in step.** After any steps with at most `2 ^ 64` requests, the
tokens index the pending requests one to one, and their ids are the occupied ones. The counter of
slots is the number of requests that are pending, queued or on their way into the queue, and not
above the capacity. The heap has the deadline of each pending request. Each channel is answered at
most once, with a frame only if it passes the check against the request of that channel. When the
actor has ended and its registration is dropped, no request is pending or queued, and the counter is
the number of callers that have not met the closed queue yet. -/
theorem tokens_ids_and_slots_in_step (capacity : Nat) (events : List Event)
    (hfew : reserved events ≤ UInt64.size) :
    let mux := run capacity events
    (∀ (token : UInt64) (id : UInt16), mux.tokens[token]? = some id
      ↔ ∃ entry, mux.pending[id]? = some entry ∧ entry.token = token) ∧
    (∀ (id id' : UInt16) entry entry', mux.pending[id]? = some entry → mux.pending[id']? = some entry' →
      entry.token = entry'.token → id = id') ∧
    (∀ id, (mux.pending[id]?).isSome = mux.allocator.is_occupied id) ∧
    mux.active = mux.pending.size + (requests mux.commands).length + mux.waiting.length ∧
    mux.active ≤ mux.capacity ∧
    (∀ (id : UInt16) entry, mux.pending[id]? = some entry →
      ∃ deadline ≤ entry.deadline, (deadline, id, entry.generation) ∈ mux.deadlines) ∧
    (mux.sends.map Prod.fst).Nodup ∧
    (∀ response bytes, (response, .ok bytes) ∈ mux.sends → Answered events mux.asked response bytes) ∧
    (mux.phase = .Stopped → (∀ id : UInt16, mux.pending[id]? = none) ∧ mux.commands = [] ∧
      mux.active = mux.waiting.length) := by
  intro mux
  have h : Consistent events mux := consistent_run capacity events hfew
  have hactive := h.sound.active
  rw [length_nil, Nat.add_zero] at hactive
  refine ⟨?_, ?_, h.sound.ids, by omega, h.sound.bound, ?_, ?_, h.sound.answers, ?_⟩
  · intro token id
    constructor
    · exact h.sound.back token id
    · rintro ⟨entry, hentry, rfl⟩
      exact h.sound.forth id entry hentry
  · intro id id' entry entry' hentry hentry' htoken
    have hid := h.sound.forth id entry hentry
    rw [htoken, h.sound.forth id' entry' hentry'] at hid
    exact (Option.some.inj hid).symm
  · intro id entry hentry
    exact ⟨entry.deadline, le_rfl, h.sound.covered id entry hentry⟩
  · rw [nodup_iff_count_le_one]
    intro response
    have honce := h.sound.once response
    rw [uses] at honce
    split_ifs at honce with hasked
    · omega
    · omega
  · intro hphase
    have hnone := h.ended (by rw [hphase]; exact nofun)
    have hempty := (isEmpty_iff mux.pending).mpr hnone
    rw [Std.TreeMap.isEmpty_eq_size_eq_zero, beq_iff_eq] at hempty
    rw [h.drained hphase, requests, length_nil] at hactive
    exact ⟨hnone, h.drained hphase, by omega⟩

/-- A query for `a.` that is admitted under the id 7, and the response to it. -/
def answered_events : List Event :=
  [.enter [0x12, 0x34, 1, 0, 0, 1, 0, 0, 0, 0, 0, 0, 1, 0x61, 0, 0, 1, 0, 1] 100, .reserve_slot 0,
    .enqueue 0, .command (fun _ => 0) (fun _ => .ok 7) none,
    .frame [0, 7, 0x81, 0, 0, 1, 0, 0, 0, 0, 0, 0, 1, 0x61, 0, 0, 1, 0, 1] 1]

theorem tokens_ids_and_slots_in_step_answered :
    reserved answered_events ≤ UInt64.size ∧
    (run 4 answered_events).active
      = (run 4 answered_events).pending.size + (requests (run 4 answered_events).commands).length
        + (run 4 answered_events).waiting.length ∧
    (run 4 answered_events).sends
      = [(0, .ok [0x12, 0x34, 0x81, 0, 0, 1, 0, 0, 0, 0, 0, 0, 1, 0x61, 0, 0, 1, 0, 1])] := by
  have hfew : reserved answered_events ≤ UInt64.size := by decide
  have hsends : (run 4 answered_events).sends
      = [(0, .ok [0x12, 0x34, 0x81, 0, 0, 1, 0, 0, 0, 0, 0, 0, 1, 0x61, 0, 0, 1, 0, 1])] := by
    decide +kernel
  exact ⟨hfew, (tokens_ids_and_slots_in_step 4 answered_events hfew).2.2.2.1, hsends⟩

/-- A caller has got a slot, and the actor ends before its request is queued. -/
def late_events : List Event :=
  [.enter [0x12, 0x34, 1, 0, 0, 1, 0, 0, 0, 0, 0, 0, 1, 0x61, 0, 0, 1, 0, 1] 100, .reserve_slot 0,
    .close, .stop none (fun _ => 0), .drop_registration]

/-- After the end the counter is not zero until that caller has met the closed queue. -/
theorem slot_taken_after_end :
    (run 4 late_events).phase = .Stopped ∧ (run 4 late_events).pending.isEmpty = true ∧
    (run 4 late_events).commands = [] ∧ (run 4 late_events).active = 1 ∧
    (run 4 (late_events ++ [.give_up 0])).active = 0 := by
  decide +kernel

end DnsTcpMultiplex

end DaeNext.Dns
