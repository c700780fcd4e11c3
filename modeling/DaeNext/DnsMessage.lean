/-
DNS messages parsed into owned values (`dae-dns/src/message.rs`): questions, answers,
and the check of a response against its request.
-/
import DaeNext.DnsCacheKey
import DaeNext.LibFallible
import DaeNext.LibNet

set_option autoImplicit false

namespace DaeNext.Dns

open Fallible

inductive DnsValidationError where
  | DnsResponseNil
  | DnsRequestReceived
  | MissingQuestion
  | QuestionCountMismatch (got want : Nat)
  | QuestionMismatch (index : Nat)
  | IdMismatch (got want : UInt16)
  deriving DecidableEq, Repr

/-! ## Fields of a packet -/

/-- `read_u16`: two octets, big end first. -/
def read_u16 (packet : List UInt8) (offset : Nat) : Except DnsError UInt16 :=
  if packet.length < offset + 2 then .error .UnexpectedEof
  else .ok (UInt16.ofNat (Net.from_be_bytes (slice packet offset (offset + 2))))

def read_u32 (packet : List UInt8) (offset : Nat) : Except DnsError UInt32 :=
  if packet.length < offset + 4 then .error .UnexpectedEof
  else .ok (UInt32.ofNat (Net.from_be_bytes (slice packet offset (offset + 4))))

/-- `read_name`: scan the name first, then read its labels. -/
def read_name (packet : List UInt8) (offset : Nat) : Except DnsError (String × Nat) := do
  let stop ← scan_dns_name packet offset packet.length true
  let name ← (NameLabels.new packet offset packet.length true).text
  pure (name, stop)

/-! ## Messages -/

structure DnsQuestion where
  qname : String
  qtype : UInt16
  qclass : UInt16
  deriving DecidableEq, Repr

def DnsQuestion.new (qname : String) (qtype qclass : UInt16) : DnsQuestion where
  qname := canonical_name_lowercase qname
  qtype := qtype
  qclass := qclass

inductive DnsAnswer where
  | A (name : String) (ttl : UInt32) (addr : BitVec 32)
  | Aaaa (name : String) (ttl : UInt32) (addr : BitVec 128)
  | Cname (name : String) (ttl : UInt32) (target : String)
  | Other (name : String) (qtype : UInt16) (ttl : UInt32)
  deriving DecidableEq

structure DnsMessage where
  id : UInt16
  response : Bool
  questions : List DnsQuestion
  answers : List DnsAnswer
  deriving DecidableEq

def parse_question (packet : List UInt8) (offset : Nat) : Except DnsError (DnsQuestion × Nat) := do
  let (qname, offset) ← read_name packet offset
  let qtype ← read_u16 packet offset
  let qclass ← read_u16 packet (offset + 2)
  pure (DnsQuestion.new qname qtype qclass, offset + 4)

def parse_answer (packet : List UInt8) (offset : Nat) : Except DnsError (DnsAnswer × Nat) := do
  let (name, offset) ← read_name packet offset
  let qtype ← read_u16 packet offset
  let qclass ← read_u16 packet (offset + 2)
  let ttl ← read_u32 packet (offset + 4)
  let rdlen := (← read_u16 packet (offset + 8)).toNat
  let offset := offset + 10
  if packet.length < offset + rdlen then throw .UnexpectedEof
  let name := canonical_name_lowercase name
  let answer ←
    if qtype = 1 ∧ qclass = 1 ∧ rdlen = 4 then
      pure (.A name ttl (BitVec.ofNat 32 (Net.from_be_bytes (slice packet offset (offset + 4)))))
    else if qtype = 28 ∧ qclass = 1 ∧ rdlen = 16 then
      pure (.Aaaa name ttl (Net.ipv6_from_octets (slice packet offset (offset + 16))))
    else if qtype = 5 ∧ qclass = 1 then do
      let _ ← scan_dns_name packet offset (offset + rdlen) true
      let (target, _) ← read_name packet offset
      pure (.Cname name ttl (canonical_name_lowercase target))
    else pure (.Other name qtype ttl)
  pure (answer, offset + rdlen)

/-- `for _ in 0..count`, reading one item after the other from `offset` on. -/
def parse_items {α : Type} (item : Nat → Except DnsError (α × Nat)) :
    Nat → Nat → Except DnsError (List α × Nat)
  | 0, offset => pure ([], offset)
  | count + 1, offset => do
    let (a, offset) ← item offset
    let (rest, offset) ← parse_items item count offset
    pure (a :: rest, offset)

def parse_message (packet : List UInt8) : Except DnsError DnsMessage := do
  if packet.length < 12 then throw .PacketTooShort
  let id ← read_u16 packet 0
  let flags ← read_u16 packet 2
  let qdcount := (← read_u16 packet 4).toNat
  let ancount := (← read_u16 packet 6).toNat
  let (questions, offset) ← parse_items (parse_question packet) qdcount 12
  let (answers, _) ← parse_items (parse_answer packet) ancount offset
  pure { id := id, response := flags &&& 0x8000 != 0, questions := questions, answers := answers }

/-! ## The check of a response -/

def compare_questions : Nat → List DnsQuestion → List DnsQuestion → Except DnsValidationError Unit
  | index, want :: req, got :: resp =>
    if want = got then compare_questions (index + 1) req resp else .error (.QuestionMismatch index)
  | _, _, _ => .ok ()

def validate_dns_response_for_request_fast (req : DnsMessage) (resp : Option DnsMessage)
    (require_matching_id : Bool) : Except DnsValidationError Unit :=
  match resp with
  | none => .error .DnsResponseNil
  | some resp =>
    if resp.response = false then .error .DnsRequestReceived
    else if require_matching_id ∧ resp.id ≠ req.id then .error (.IdMismatch resp.id req.id)
    else if req.questions = [] then .ok ()
    else if resp.questions = [] then .error .MissingQuestion
    else if resp.questions.length ≠ req.questions.length then
      .error (.QuestionCountMismatch resp.questions.length req.questions.length)
    else compare_questions 0 req.questions resp.questions

/-! ## What a parse has read -/

section Parsed

variable {packet : List UInt8} {offset : Nat}

theorem parse_items_succ {α : Type} {item : Nat → Except DnsError (α × Nat)} {count offset stop : Nat}
    {items : List α} (h : parse_items item (count + 1) offset = .ok (items, stop)) :
    ∃ a next rest, item offset = .ok (a, next) ∧ parse_items item count next = .ok (rest, stop) ∧
      items = a :: rest := by
  obtain ⟨⟨a, next⟩, ha, h⟩ := bind_ok h
  obtain ⟨⟨rest, stop'⟩, hrest, h⟩ := bind_ok h
  cases h
  exact ⟨a, next, rest, ha, hrest, rfl⟩

theorem parse_items_length {α : Type} {item : Nat → Except DnsError (α × Nat)} {count : Nat} :
    ∀ {offset stop : Nat} {items : List α}, parse_items item count offset = .ok (items, stop) →
      items.length = count := by
  induction count with
  | zero =>
    intro offset stop items h
    cases h
    rfl
  | succ count ih =>
    intro offset stop items h
    obtain ⟨a, next, rest, -, hrest, rfl⟩ := parse_items_succ h
    rw [List.length_cons, ih hrest]

theorem parse_question_ok {question : DnsQuestion} {next : Nat}
    (h : parse_question packet offset = .ok (question, next)) :
    ∃ qname stop qtype qclass, read_name packet offset = .ok (qname, stop) ∧
      read_u16 packet stop = .ok qtype ∧ read_u16 packet (stop + 2) = .ok qclass ∧
      question = DnsQuestion.new qname qtype qclass ∧ next = stop + 4 := by
  obtain ⟨⟨qname, stop⟩, hname, h⟩ := bind_ok h
  obtain ⟨qtype, htype, h⟩ := bind_ok h
  obtain ⟨qclass, hclass, h⟩ := bind_ok h
  obtain ⟨hq, hn⟩ := Prod.mk.inj (Except.ok.inj h)
  exact ⟨qname, stop, qtype, qclass, hname, htype, hclass, hq.symm, hn.symm⟩

theorem parse_message_ok {message : DnsMessage} (h : parse_message packet = .ok message) :
    ∃ flags qdcount stop, read_u16 packet 0 = .ok message.id ∧ read_u16 packet 2 = .ok flags ∧
      read_u16 packet 4 = .ok qdcount ∧
      parse_items (parse_question packet) qdcount.toNat 12 = .ok (message.questions, stop) ∧
      message.response = (flags &&& 0x8000 != 0) := by
  rw [parse_message] at h
  split at h
  · cases h
  · obtain ⟨id, hid, h⟩ := bind_ok h
    obtain ⟨flags, hflags, h⟩ := bind_ok h
    obtain ⟨qdcount, hqd, h⟩ := bind_ok h
    obtain ⟨ancount, -, h⟩ := bind_ok h
    obtain ⟨⟨questions, stop⟩, hquestions, h⟩ := bind_ok h
    obtain ⟨answers, -, rfl⟩ := bind_pure_ok h
    exact ⟨flags, qdcount, stop, hid, hflags, hqd, hquestions, rfl⟩

end Parsed

end DaeNext.Dns
