/-
DNS packets read in place (`dae-dns/src/message/packet_view.rs`): the view of a packet,
its questions, and the check of a response against its request on two views.

A view admits no compression in the question section, so each question's name is a
slice of the packet that holds the wire form of its labels, and the owned parser reads
the canonical text of the same labels. Comparing the slices up to ASCII case and
comparing the texts is then the same, and so are the two checks.
-/
import DaeNext.DnsMessage

set_option autoImplicit false

namespace DaeNext.Dns

open Fallible List
open Text (byte_to_ascii_lowercase)

/-! ## Views -/

structure DnsPacketView where
  packet : List UInt8
  id : UInt16
  response : Bool
  question_count : UInt16
  answer_count : UInt16
  answer_offset : Nat
  deriving DecidableEq, Repr

structure DnsPacketQuestionView where
  qname_wire : List UInt8
  qtype : UInt16
  qclass : UInt16
  deriving DecidableEq, Repr

structure DnsPacketQuestionIter where
  packet : List UInt8
  offset : Nat
  remaining : Nat
  deriving DecidableEq, Repr

def scan_uncompressed_name (packet : List UInt8) (offset : Nat) : Except DnsError Nat :=
  scan_dns_name packet offset packet.length false

/-- `validate_question_section`: the offset after `count` questions from `offset` on. -/
def validate_question_section (packet : List UInt8) : Nat → Nat → Except DnsError Nat
  | 0, offset => pure offset
  | count + 1, offset => do
    let offset ← scan_uncompressed_name packet offset
    let _ ← read_u16 packet offset
    let _ ← read_u16 packet (offset + 2)
    validate_question_section packet count (offset + 4)

namespace DnsPacketView

def parse (packet : List UInt8) : Except DnsError DnsPacketView := do
  if packet.length < 12 then throw .PacketTooShort
  let question_count ← read_u16 packet 4
  let answer_offset ← validate_question_section packet question_count.toNat 12
  let id ← read_u16 packet 0
  let flags ← read_u16 packet 2
  let answer_count ← read_u16 packet 6
  pure {
    packet := packet
    id := id
    response := flags &&& 0x8000 != 0
    question_count := question_count
    answer_count := answer_count
    answer_offset := answer_offset }

def questions (view : DnsPacketView) : DnsPacketQuestionIter where
  packet := view.packet
  offset := 12
  remaining := view.question_count.toNat

end DnsPacketView

def question_at (packet : List UInt8) (offset : Nat) :
    Except DnsError (DnsPacketQuestionView × Nat) := do
  let qname_end ← scan_uncompressed_name packet offset
  let qtype ← read_u16 packet qname_end
  let qclass ← read_u16 packet (qname_end + 2)
  pure ({ qname_wire := slice packet offset qname_end, qtype := qtype, qclass := qclass },
    qname_end + 4)

/-- `Iterator::next`; an error ends the iteration, as the end does. -/
def DnsPacketQuestionIter.next (iter : DnsPacketQuestionIter) :
    Option (DnsPacketQuestionView × DnsPacketQuestionIter) :=
  match iter.remaining with
  | 0 => none
  | remaining + 1 =>
    match question_at iter.packet iter.offset with
    | .error _ => none
    | .ok (question, offset) => some (question, { iter with offset := offset, remaining := remaining })

def wire_name_eq_ignore_ascii_case (left right : List UInt8) : Bool :=
  left.length == right.length &&
    (left.zip right).all fun p => byte_to_ascii_lowercase p.1 == byte_to_ascii_lowercase p.2

def DnsPacketQuestionView.matches (self other : DnsPacketQuestionView) : Bool :=
  self.qtype == other.qtype && self.qclass == other.qclass &&
    wire_name_eq_ignore_ascii_case self.qname_wire other.qname_wire

/-- The loop of `wire_name_eq_canonical_ignore_ascii_case` over the labels of a wire name from
its offset on, against the labels of the candidate not yet seen. -/
def wire_labels_eq (trimmed_is_empty saw_candidate_label : Bool) (wire : List UInt8)
    (candidate_labels : List String) : Except DnsError Bool :=
  match wire with
  | [] => .error .UnexpectedEof
  | len :: rest =>
    if len &&& 0xc0 ≠ 0 ∨ 63 < len then .error .InvalidDnsName
    else if len = 0 then
      .ok (candidate_labels.isEmpty && (saw_candidate_label || trimmed_is_empty))
    else if rest.length < len.toNat then .error .UnexpectedEof
    else
      match candidate_labels with
      | [] => .ok false
      | candidate_label :: candidate_labels =>
        if Text.eq_ignore_ascii_case (rest.take len.toNat) (Text.as_bytes candidate_label) then
          wire_labels_eq trimmed_is_empty true (rest.drop len.toNat) candidate_labels
        else .ok false
termination_by wire.length
decreasing_by
  rw [List.length_drop, List.length_cons]
  omega

def wire_name_eq_canonical_ignore_ascii_case (wire : List UInt8) (candidate : String) :
    Except DnsError Bool :=
  if Text.contains_char '\\' candidate || Text.trim candidate == "." then do
    let canonical ← canonical_wire_name wire
    pure (canonical == canonical_name_lowercase candidate)
  else
    let trimmed := Text.trim_end_matches '.' (Text.trim candidate)
    wire_labels_eq trimmed.isEmpty false wire (Text.split '.' trimmed)

/-- The loop over the questions of both packets: `count` of them from `index` on. -/
def match_questions (want : Nat) : Nat → Nat → DnsPacketQuestionIter → DnsPacketQuestionIter →
    Except DnsValidationError Unit
  | 0, _, _, _ => .ok ()
  | count + 1, index, req, resp =>
    match req.next with
    | none => .error (.QuestionCountMismatch index want)
    | some (wanted, req) =>
      match resp.next with
      | none => .error (.QuestionCountMismatch index want)
      | some (got, resp) =>
        if wanted.matches got then match_questions want count (index + 1) req resp
        else .error (.QuestionMismatch index)

def validate_dns_packet_response_for_request_fast (req : DnsPacketView) (resp : Option DnsPacketView)
    (require_matching_id : Bool) : Except DnsValidationError Unit :=
  match resp with
  | none => .error .DnsResponseNil
  | some resp =>
    if resp.response = false then .error .DnsRequestReceived
    else if require_matching_id ∧ resp.id ≠ req.id then .error (.IdMismatch resp.id req.id)
    else if req.question_count = 0 then .ok ()
    else if resp.question_count = 0 then .error .MissingQuestion
    else if resp.question_count ≠ req.question_count then
      .error (.QuestionCountMismatch resp.question_count.toNat req.question_count.toNat)
    else match_questions req.question_count.toNat req.question_count.toNat 0 req.questions
      resp.questions

/-! ## Names up to case -/

theorem wire_name_eq_ignore_ascii_case_iff (left right : List UInt8) :
    wire_name_eq_ignore_ascii_case left right = true ↔
      left.map byte_to_ascii_lowercase = right.map byte_to_ascii_lowercase := by
  rw [wire_name_eq_ignore_ascii_case]
  induction left generalizing right with
  | nil =>
    cases right with
    | nil => exact ⟨fun _ => rfl, fun _ => rfl⟩
    | cons b right => exact ⟨nofun, nofun⟩
  | cons a left ih =>
    cases right with
    | nil => exact ⟨nofun, nofun⟩
    | cons b right =>
      have hrec := ih right
      simp only [Bool.and_eq_true, beq_iff_eq] at hrec ⊢
      rw [map_cons, map_cons, List.cons.injEq, ← hrec, zip_cons_cons, all_cons, Bool.and_eq_true,
        beq_iff_eq, length_cons, length_cons, Nat.succ_inj]
      constructor
      · rintro ⟨hlen, hhead, htail⟩
        exact ⟨hhead, hlen, htail⟩
      · rintro ⟨hhead, hlen, htail⟩
        exact ⟨hlen, hhead, htail⟩

/-- The two forms of one question: the wire form of its labels, and their text. -/
def SameQuestion (question : DnsQuestion) (view : DnsPacketQuestionView) : Prop :=
  ∃ labels, ValidLabels labels ∧ wire_len labels ≤ 255 ∧ view.qname_wire = body labels ++ [0] ∧
    question = { qname := name_text labels, qtype := view.qtype, qclass := view.qclass }

variable {v : DnsPacketQuestionView}

theorem SameQuestion.eq_iff {q q' : DnsQuestion} {v' : DnsPacketQuestionView} (h : SameQuestion q v)
    (h' : SameQuestion q' v') : q = q' ↔ v.matches v' = true := by
  obtain ⟨labels, hv, hle, hwire, rfl⟩ := h
  obtain ⟨labels', hv', hle', hwire', rfl⟩ := h'
  rw [DnsPacketQuestionView.matches, Bool.and_eq_true, Bool.and_eq_true, beq_iff_eq, beq_iff_eq,
    wire_name_eq_ignore_ascii_case_iff, hwire, hwire', ← name_text_eq_iff hv hle hv' hle',
    DnsQuestion.mk.injEq]
  constructor
  · rintro ⟨hname, htype, hclass⟩
    exact ⟨⟨htype, hclass⟩, hname⟩
  · rintro ⟨⟨htype, hclass⟩, hname⟩
    exact ⟨hname, htype, hclass⟩

/-! ## The two readers agree -/

variable {packet : List UInt8}

section Agree

variable {offset : Nat}

theorem question_at_ok {question : DnsPacketQuestionView} {next : Nat}
    (h : question_at packet offset = .ok (question, next)) :
    ∃ stop, scan_uncompressed_name packet offset = .ok stop ∧
      read_u16 packet stop = .ok question.qtype ∧
      read_u16 packet (stop + 2) = .ok question.qclass ∧
      question.qname_wire = slice packet offset stop ∧ next = stop + 4 := by
  obtain ⟨stop, hscan, h⟩ := bind_ok h
  obtain ⟨qtype, htype, h⟩ := bind_ok h
  obtain ⟨qclass, hclass, h⟩ := bind_ok h
  obtain ⟨rfl, hn⟩ := Prod.mk.inj (Except.ok.inj h)
  exact ⟨stop, hscan, htype, hclass, rfl, hn.symm⟩

/-- A name without compression is the same name to a reader that admits it. -/
theorem read_name_of_uncompressed {stop : Nat} (h : scan_uncompressed_name packet offset = .ok stop) :
    ∃ labels, ValidLabels labels ∧ wire_len labels ≤ 255 ∧
      slice packet offset stop = body labels ++ [0] ∧
      read_name packet offset = .ok (name_text labels, stop) := by
  obtain ⟨labels, hreads, hv, hle, hslice⟩ := scan_uncompressed h
  refine ⟨labels, hv, hle, hslice, ?_⟩
  obtain ⟨hdrop, hstop⟩ := hreads.drop_eq rfl
  -- the labels end inside the packet
  have hlen := congrArg List.length hdrop
  rw [length_drop, length_append, length_cons] at hlen
  have hbody := body_length labels
  have hreads' : Reads packet true offset packet.length 0 labels (offset + wire_len labels) :=
    reads_of_drop_eq hv offset hdrop (by omega)
  rw [← hstop] at hreads'
  rw [read_name, scan_dns_name_ok_iff.mpr ⟨labels, hreads', hle⟩, NameLabels.text_eq hreads' hle]
  rfl

theorem parse_question_agrees {q : DnsQuestion} {next next' : Nat}
    (hq : parse_question packet offset = .ok (q, next))
    (hv : question_at packet offset = .ok (v, next')) : next = next' ∧ SameQuestion q v := by
  obtain ⟨stop, hscan, htype, hclass, hwire, rfl⟩ := question_at_ok hv
  obtain ⟨labels, hvalid, hle, hslice, hname⟩ := read_name_of_uncompressed hscan
  obtain ⟨qname, stop', qtype, qclass, hname', htype', hclass', rfl, rfl⟩ := parse_question_ok hq
  rw [hname] at hname'
  obtain ⟨rfl, rfl⟩ := Prod.mk.inj (Except.ok.inj hname')
  rw [htype] at htype'
  rw [hclass] at hclass'
  obtain rfl := Except.ok.inj htype'
  obtain rfl := Except.ok.inj hclass'
  refine ⟨rfl, labels, hvalid, hle, hwire.trans hslice, ?_⟩
  rw [DnsQuestion.new, canonical_name_lowercase_name_text hvalid hle]

theorem validate_question_section_succ {count stop : Nat}
    (h : validate_question_section packet (count + 1) offset = .ok stop) :
    ∃ v next, question_at packet offset = .ok (v, next) ∧
      validate_question_section packet count next = .ok stop := by
  obtain ⟨qname_end, hscan, h⟩ := bind_ok h
  obtain ⟨qtype, htype, h⟩ := bind_ok h
  obtain ⟨qclass, hclass, h⟩ := bind_ok h
  refine ⟨{ qname_wire := slice packet offset qname_end, qtype := qtype, qclass := qclass },
    qname_end + 4, ?_, h⟩
  rw [question_at, hscan]
  change (read_u16 packet qname_end >>= _) = _
  rw [htype]
  rw [hclass]
  rfl

theorem DnsPacketQuestionIter.next_of_ok {remaining next : Nat}
    (h : question_at packet offset = .ok (v, next)) :
    DnsPacketQuestionIter.next { packet := packet, offset := offset, remaining := remaining + 1 }
      = some (v, { packet := packet, offset := next, remaining := remaining }) := by
  rw [DnsPacketQuestionIter.next]
  rw [h]

end Agree

/-- Comparing the questions in place is comparing the parsed ones. -/
theorem match_questions_eq {req resp : List UInt8} (want count : Nat) :
    ∀ {index offset offset' stop stop' stop₁ stop₁' : Nat} {qs qs' : List DnsQuestion},
      parse_items (parse_question req) count offset = .ok (qs, stop) →
      parse_items (parse_question resp) count offset' = .ok (qs', stop') →
      validate_question_section req count offset = .ok stop₁ →
      validate_question_section resp count offset' = .ok stop₁' →
      match_questions want count index { packet := req, offset := offset, remaining := count }
        { packet := resp, offset := offset', remaining := count } = compare_questions index qs qs' := by
  induction count with
  | zero =>
    intro index offset offset' stop stop' stop₁ stop₁' qs qs' hqs hqs' _ _
    cases hqs
    rw [match_questions, compare_questions]
    exact nofun
  | succ count ih =>
    intro index offset offset' stop stop' stop₁ stop₁' qs qs' hqs hqs' hval hval'
    obtain ⟨q, next, rest, hq, hrest, rfl⟩ := parse_items_succ hqs
    obtain ⟨q', next', rest', hq', hrest', rfl⟩ := parse_items_succ hqs'
    obtain ⟨v, n, hv, hval⟩ := validate_question_section_succ hval
    obtain ⟨v', n', hv', hval'⟩ := validate_question_section_succ hval'
    obtain ⟨rfl, hsame⟩ := parse_question_agrees hq hv
    obtain ⟨rfl, hsame'⟩ := parse_question_agrees hq' hv'
    rw [match_questions, DnsPacketQuestionIter.next_of_ok hv]
    rw [DnsPacketQuestionIter.next_of_ok hv', compare_questions]
    dsimp only
    by_cases heq : q = q'
    · rw [if_pos heq, if_pos ((hsame.eq_iff hsame').mp heq)]
      exact ih hrest hrest' hval hval'
    · rw [if_neg heq, if_neg (fun h => heq ((hsame.eq_iff hsame').mpr h))]

/-- What a view of a packet that also parses has in common with the parsed message. -/
theorem DnsPacketView.parse_ok {view : DnsPacketView} (h : DnsPacketView.parse packet = .ok view) :
    ∃ flags, view.packet = packet ∧ read_u16 packet 0 = .ok view.id ∧ read_u16 packet 2 = .ok flags ∧
      view.response = (flags &&& 0x8000 != 0) ∧ read_u16 packet 4 = .ok view.question_count ∧
      read_u16 packet 6 = .ok view.answer_count ∧
      validate_question_section packet view.question_count.toNat 12 = .ok view.answer_offset := by
  rw [DnsPacketView.parse] at h
  split at h
  · cases h
  · obtain ⟨question_count, hqd, h⟩ := bind_ok h
    obtain ⟨answer_offset, hval, h⟩ := bind_ok h
    obtain ⟨id, hid, h⟩ := bind_ok h
    obtain ⟨flags, hflags, h⟩ := bind_ok h
    obtain ⟨answer_count, han, rfl⟩ := bind_pure_ok h
    exact ⟨flags, rfl, hid, hflags, rfl, hqd, han, hval⟩

theorem view_agrees {message : DnsMessage} {view : DnsPacketView}
    (hm : parse_message packet = .ok message) (hv : DnsPacketView.parse packet = .ok view) :
    view.packet = packet ∧ view.id = message.id ∧ view.response = message.response ∧
      message.questions.length = view.question_count.toNat ∧
      (∃ stop, parse_items (parse_question packet) view.question_count.toNat 12
        = .ok (message.questions, stop)) ∧
      validate_question_section packet view.question_count.toNat 12 = .ok view.answer_offset := by
  obtain ⟨flags, qdcount, stop, hid, hflags, hqd, hqs, hresp⟩ := parse_message_ok hm
  obtain ⟨flags', hpacket, hid', hflags', hresp', hqd', -, hval⟩ := DnsPacketView.parse_ok hv
  rw [hid] at hid'
  rw [hflags] at hflags'
  rw [hqd] at hqd'
  obtain rfl := Except.ok.inj hflags'
  rw [Except.ok.inj hqd'] at hqs
  exact ⟨hpacket, (Except.ok.inj hid').symm, hresp'.trans hresp.symm, parse_items_length hqs,
    ⟨stop, hqs⟩, hval⟩

/-- On packets that both readers accept, the check on the views is the check on the parsed
messages: `Ok`, or the same error with the same fields. -/
theorem validate_packet_eq_validate_message (req resp : List UInt8)
    {req_message resp_message : DnsMessage} {req_view resp_view : DnsPacketView} (hreq : parse_message req = .ok req_message)
    (hresp : parse_message resp = .ok resp_message) (hreqv : DnsPacketView.parse req = .ok req_view)
    (hrespv : DnsPacketView.parse resp = .ok resp_view) (require_matching_id : Bool) :
    validate_dns_packet_response_for_request_fast req_view (some resp_view) require_matching_id
      = validate_dns_response_for_request_fast req_message (some resp_message)
        require_matching_id := by
  obtain ⟨hpacket, hid, -, hlen, ⟨stop, hqs⟩, hval⟩ := view_agrees hreq hreqv
  obtain ⟨hpacket', hid', hflag', hlen', ⟨stop', hqs'⟩, hval'⟩ := view_agrees hresp hrespv
  have hnil : ∀ {l : List DnsQuestion} {n : UInt16}, l.length = n.toNat → (n = 0 ↔ l = []) := by
    intro l n h
    rw [← length_eq_zero_iff, h, ← UInt16.toNat_inj]
    rfl
  rw [validate_dns_packet_response_for_request_fast, validate_dns_response_for_request_fast]
  by_cases hr : resp_message.response = false
  · rw [if_pos (hflag'.trans hr), if_pos hr]
  rw [if_neg (fun h => hr (hflag'.symm.trans h)), if_neg hr, hid, hid']
  by_cases hids : require_matching_id ∧ resp_message.id ≠ req_message.id
  · rw [if_pos hids, if_pos hids]
  rw [if_neg hids, if_neg hids]
  by_cases hreq0 : req_message.questions = []
  · rw [if_pos ((hnil hlen).mpr hreq0), if_pos hreq0]
  rw [if_neg (fun h => hreq0 ((hnil hlen).mp h)), if_neg hreq0]
  by_cases hresp0 : resp_message.questions = []
  · rw [if_pos ((hnil hlen').mpr hresp0), if_pos hresp0]
  rw [if_neg (fun h => hresp0 ((hnil hlen').mp h)), if_neg hresp0, hlen, hlen']
  by_cases hcount : resp_view.question_count = req_view.question_count
  · rw [if_neg (fun h => h hcount), if_neg (fun h => h (congrArg UInt16.toNat hcount))]
    rw [hcount] at hqs' hval'
    rw [DnsPacketView.questions, DnsPacketView.questions, hpacket, hpacket', hcount]
    exact match_questions_eq _ _ hqs hqs' hval hval'
  · rw [if_pos hcount, if_pos (fun h => hcount (UInt16.toNat_inj.mp h))]

/-- A query for `A.`, and an answer to `a.` without records: both checks say `Ok`. -/
theorem validate_packet_eq_validate_message_query :
    validate_dns_packet_response_for_request_fast
        { packet := [0x12, 0x34, 1, 0, 0, 1, 0, 0, 0, 0, 0, 0, 1, 0x41, 0, 0, 1, 0, 1], id := 0x1234,
          response := false, question_count := 1, answer_count := 0, answer_offset := 19 }
        (some { packet := [0x12, 0x34, 0x81, 0, 0, 1, 0, 0, 0, 0, 0, 0, 1, 0x61, 0, 0, 1, 0, 1],
                id := 0x1234, response := true, question_count := 1, answer_count := 0,
                answer_offset := 19 }) true
      = validate_dns_response_for_request_fast
        { id := 0x1234, response := false, questions := [⟨"a.", 1, 1⟩], answers := [] }
        (some { id := 0x1234, response := true, questions := [⟨"a.", 1, 1⟩], answers := [] }) true ∧
    validate_dns_response_for_request_fast
        { id := 0x1234, response := false, questions := [⟨"a.", 1, 1⟩], answers := [] }
        (some { id := 0x1234, response := true, questions := [⟨"a.", 1, 1⟩], answers := [] }) true
      = .ok () :=
  ⟨validate_packet_eq_validate_message
      [0x12, 0x34, 1, 0, 0, 1, 0, 0, 0, 0, 0, 0, 1, 0x41, 0, 0, 1, 0, 1]
      [0x12, 0x34, 0x81, 0, 0, 1, 0, 0, 0, 0, 0, 0, 1, 0x61, 0, 0, 1, 0, 1]
      (by decide +kernel) (by decide +kernel) (by decide +kernel) (by decide +kernel) true,
    by decide +kernel⟩

end DaeNext.Dns
