/-
What the multiplexed DNS upstreams have in common.

A request goes out under an id of the allocator and waits in a table under that id. The ids of
the table are the occupied ids of the allocator (`InStep`): an entry is put in under an id that
was just allocated, and leaves together with its id.

A packet that a view was made of has as many questions as its header says, so comparing two
lists of questions is comparing the question sections (`length_collect_questions`).
-/
import DaeNext.DnsReplay
import DaeNext.DnsRequestId
import DaeNext.LibTableTotal

set_option autoImplicit false

namespace DaeNext.Dns

open Patch (copy_at)

/-! ## Errors of a request -/

inductive ProxyDnsRequestStage where
  | Enqueue | Queued | Parse | Identifier | Pending | OwnerAcquire | Connect | Authenticate | Send
  | Read | Retry | Cleanup
deriving DecidableEq, Repr

inductive ProxyDnsRequestFailure where
  | Cancelled | Deadline | Network | Protocol | Capacity
deriving DecidableEq, Repr

structure ProxyDnsRequestError where
  stage : ProxyDnsRequestStage
  failure : ProxyDnsRequestFailure
  detail : String
deriving DecidableEq, Repr

def ProxyDnsRequestError.deadline (stage : ProxyDnsRequestStage) : ProxyDnsRequestError where
  stage
  failure := .Deadline
  detail := "absolute deadline expired"

def ProxyDnsRequestStage.as_str : ProxyDnsRequestStage → String
  | .Enqueue => "enqueue"
  | .Queued => "queued"
  | .Parse => "parse"
  | .Identifier => "identifier"
  | .Pending => "pending"
  | .OwnerAcquire => "owner-acquire"
  | .Connect => "connect"
  | .Authenticate => "authenticate"
  | .Send => "send"
  | .Read => "read"
  | .Retry => "retry"
  | .Cleanup => "cleanup"

def ProxyDnsRequestFailure.as_str : ProxyDnsRequestFailure → String
  | .Cancelled => "cancelled"
  | .Deadline => "deadline"
  | .Network => "network"
  | .Protocol => "protocol"
  | .Capacity => "capacity"

def ProxyDnsRequestError.to_string (self : ProxyDnsRequestError) : String :=
  "proxy DNS request " ++ self.failure.as_str ++ " during " ++ self.stage.as_str ++ ": " ++ self.detail

/-! ## Packets -/

/-- The `Display` text of the errors of the packet code. -/
def DnsError.to_string : DnsError → String
  | .PacketTooShort => "dns packet too short"
  | .UnexpectedEof => "unexpected end of dns packet"
  | .InvalidDnsName => "invalid dns name"
  | .CompressionLoop => "dns name compression loop"

def dns_packet_id (payload : List UInt8) : Except String UInt16 :=
  if payload.length < 2 then .error "DNS packet is too short to read request id"
  else .ok (UInt16.ofNat (Net.from_be_bytes (slice payload 0 2)))

def rewrite_dns_packet_id_in_place (payload : List UInt8) (id : UInt16) : List UInt8 :=
  if payload.length ≥ 2 then copy_at payload 0 (u16_bytes id) else payload

def restore_packed_response_request_id (packed : List UInt8) (request_id : UInt16) :
    Option (List UInt8) :=
  if packed.length < 2 then none
  else some
    (copy_at packed 0 [UInt8.ofNat (request_id >>> 8).toNat, UInt8.ofNat request_id.toNat])

def with_id (packet : List UInt8) (id : UInt16) : List UInt8 := u16_bytes id ++ packet.drop 2

theorem copy_at_id (packet : List UInt8) (id : UInt16) :
    copy_at packet 0 (u16_bytes id) = with_id packet id := by
  rw [copy_at, length_u16_bytes, List.take_zero, List.nil_append, with_id]

theorem restore_packed_response_request_id_eq {packed restored : List UInt8} {request_id : UInt16}
    (h : restore_packed_response_request_id packed request_id = some restored) :
    restored = with_id packed request_id := by
  rw [restore_packed_response_request_id] at h
  split_ifs at h with hlen
  rw [← Option.some.inj h, ← copy_at_id]
  rfl

variable {packet : List UInt8}

theorem dns_packet_id_of_view {view : DnsPacketView} (h : DnsPacketView.parse packet = .ok view) :
    dns_packet_id packet = .ok view.id := by
  obtain ⟨_, _, hid, _⟩ := DnsPacketView.parse_ok h
  rw [read_u16] at hid
  rw [dns_packet_id]
  split_ifs at hid ⊢ with hlen
  · rw [Except.ok.inj hid]

/-! ## Questions -/

/-- The items of the iterator, at most `fuel` of them. -/
def DnsPacketQuestionIter.take : Nat → DnsPacketQuestionIter → List DnsPacketQuestionView
  | 0, _ => []
  | fuel + 1, iter =>
    match iter.next with
    | none => []
    | some (question, iter) => question :: take fuel iter

/-- All items: each one is counted in `remaining`. -/
def DnsPacketQuestionIter.collect (iter : DnsPacketQuestionIter) : List DnsPacketQuestionView :=
  take iter.remaining iter

theorem length_take_questions {count offset stop : Nat}
    (h : validate_question_section packet count offset = .ok stop) :
    (DnsPacketQuestionIter.take count
      { packet := packet, offset := offset, remaining := count }).length = count := by
  induction count generalizing offset with
  | zero => rfl
  | succ count ih =>
    obtain ⟨question, next, hquestion, hrest⟩ := validate_question_section_succ h
    rw [DnsPacketQuestionIter.take, DnsPacketQuestionIter.next_of_ok hquestion]
    exact congrArg (· + 1) (ih hrest)

theorem length_collect_questions {view : DnsPacketView} (h : DnsPacketView.parse packet = .ok view)
    : view.questions.collect.length = view.question_count.toNat := by
  obtain ⟨_, hpacket, _, _, _, _, _, hvalid⟩ := DnsPacketView.parse_ok h
  rw [← hpacket] at hvalid
  exact length_take_questions hvalid

/-! ## Channels -/

section

variable {asked : List (List UInt8)} {payload : List UInt8}

theorem asked_concat {n : Nat} {bytes : List UInt8} (h : asked[n]? = some bytes) :
    (asked ++ [payload])[n]? = some bytes := by
  rw [List.getElem?_append_left (List.getElem?_eq_some_iff.mp h).1, h]

/-- The channel of a new request was not in use. -/
theorem uses_concat {uses response : Nat} (h : uses ≤ if response < asked.length then 1 else 0) :
    uses + [asked.length].count response ≤ if response < (asked ++ [payload]).length then 1 else 0 := by
  rw [List.count_singleton, List.length_append, List.length_singleton]
  simp only [beq_iff_eq]
  split_ifs at h ⊢ <;> omega

end

/-! ## Pending requests and their ids -/

/-- The keys of the table are the occupied ids. -/
def InStep {β : Type} (pending : Table UInt16 β) (allocator : DnsRequestIdAllocator) : Prop :=
  ∀ id, (pending[id]?).isSome = allocator.is_occupied id

namespace InStep

variable {β : Type} {pending : Table UInt16 β} {allocator : DnsRequestIdAllocator}

theorem new (duration : Nat) : InStep (∅ : Table UInt16 β) (.new duration) := by
  intro id
  rw [Std.TreeMap.getElem?_emptyc, DnsRequestIdAllocator.is_occupied_new]
  rfl

variable (h : InStep pending allocator)

include h

theorem reap_quarantine (now : Nat) :
    InStep pending (allocator.reap_quarantine now) := h

theorem insert (id : UInt16) (value : β) : InStep (pending.insert id value) (allocator.occupy id) := by
  intro other
  rw [Table.getElem?_insert, DnsRequestIdAllocator.is_occupied_occupy]
  by_cases hid : other = id
  · rw [if_pos hid, if_pos hid.symm]
    rfl
  · rw [if_neg hid, if_neg (Ne.symm hid), h other]

theorem erase (id : UInt16) (now : Nat) : InStep (pending.erase id) (allocator.release_at id now) := by
  intro other
  rw [Table.getElem?_erase, DnsRequestIdAllocator.is_occupied_release_at]
  by_cases hid : other = id
  · rw [if_pos hid, if_pos hid.symm]
    rfl
  · rw [if_neg hid, if_neg (Ne.symm hid), h other]

theorem occupy_release {id : UInt16} (hfree : allocator.is_occupied id = false) (now : Nat) :
    InStep pending ((allocator.occupy id).release_at id now) := by
  intro other
  rw [DnsRequestIdAllocator.is_occupied_release_at, DnsRequestIdAllocator.is_occupied_occupy, h other]
  by_cases hid : id = other
  · rw [if_pos hid, ← hid, hfree]
  · rw [if_neg hid, if_neg hid]

theorem absent {id : UInt16} (hfree : allocator.is_occupied id = false) : pending[id]? = none := by
  rw [← Option.isSome_eq_false_iff.trans Option.isNone_iff_eq_none, h id, hfree]

end InStep

end DaeNext.Dns
