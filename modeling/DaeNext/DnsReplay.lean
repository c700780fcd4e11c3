/-
The replay of a cached response.

A request for the key of a plan finds its entry, and the stored packet takes the request's id,
question and flags before its TTLs are capped. Nothing else of the original response changes,
so every hit is that response, aged. There is a hit before the deadline whenever the owner names
of the response are read at octets the replay leaves alone: a compression pointer into the id, for
one, leads elsewhere once the id is that of the request.
-/
import DaeNext.DnsCacheMatch
import DaeNext.DnsReplayPlan

set_option autoImplicit false

namespace DaeNext.Dns

open Patch List DnsPacketView
open Patch (copy_at AgreeOff)
open Text (byte_to_ascii_lowercase forall_byte)

/-! ## Two octets -/

theorem length_u16_bytes (value : UInt16) : (u16_bytes value).length = 2 := Net.length_be_bytes 2 _

variable {packet : List UInt8} {offset : Nat}

theorem read_u16_copy_at {offset : Nat} (h : offset + 2 ≤ packet.length) (value : UInt16) :
    read_u16 (copy_at packet offset (u16_bytes value)) offset = .ok value := by
  have hslice := @slice_copy_at packet offset (u16_bytes value) h
  rw [length_u16_bytes] at hslice
  rw [read_u16, length_copy_at h, if_neg (by omega), hslice, u16_bytes, Net.ofNat_be_bytes_u16]

theorem octets_of_read_u16 {a b : List UInt8} {value : UInt16}
    (ha : read_u16 a offset = .ok value) (hb : read_u16 b offset = .ok value) :
    ∀ i, offset ≤ i → i < offset + 2 → a[i]? = b[i]? := by
  have hla := read_u16_bound ha
  have hlb := read_u16_bound hb
  rw [read_u16, if_neg (by omega)] at ha hb
  have hfield : ∀ (p : List UInt8) (hp : offset + 2 ≤ p.length),
      slice p offset (offset + 2) = [p[offset], p[offset + 1]] := by
    intro p hp
    rw [slice, Nat.add_sub_cancel_left, drop_eq_getElem_cons (by omega),
      drop_eq_getElem_cons (by omega)]
    rfl
  have hnat : ∀ x y : UInt8, (UInt16.ofNat (Net.from_be_bytes [x, y])).toNat
      = x.toNat * 256 + y.toNat := by
    intro x y
    have hx := x.toNat_lt
    have hy := y.toNat_lt
    rw [UInt16.toNat_ofNat', Net.from_be_bytes, foldl_cons, foldl_cons, foldl_nil]
    omega
  have heq := congrArg UInt16.toNat ((Except.ok.inj ha).trans (Except.ok.inj hb).symm)
  rw [hfield a hla, hfield b hlb, hnat, hnat] at heq
  have h1 := a[offset + 1].toNat_lt
  have h3 := b[offset + 1].toNat_lt
  intro i hge hlt
  obtain rfl | rfl : i = offset ∨ i = offset + 1 := by omega
  all_goals
    rw [getElem?_eq_getElem (by omega), getElem?_eq_getElem (by omega)]
    exact congrArg some (UInt8.toNat_inj.mp (by omega))

/-! ## What the replay changes -/

def is_ascii_alphabetic (byte : UInt8) : Bool :=
  (65 ≤ byte ∧ byte ≤ 90) ∨ (97 ≤ byte ∧ byte ≤ 122)

/-- An octet that is no letter is the only one of its kind up to case. -/
theorem eq_of_lowercase_eq {a b : UInt8} (hb : is_ascii_alphabetic b = false)
    (h : byte_to_ascii_lowercase a = byte_to_ascii_lowercase b) : a = b := by
  have hfixed : ∀ b : UInt8, is_ascii_alphabetic b = false → byte_to_ascii_lowercase b = b :=
    forall_byte (by decide +kernel)
  have hletter : ∀ a : UInt8, byte_to_ascii_lowercase a = a ∨
      is_ascii_alphabetic (byte_to_ascii_lowercase a) = true := forall_byte (by decide +kernel)
  rcases hletter a with ha | ha
  · rw [← ha, h, hfixed b hb]
  · rw [h, hfixed b hb, hb] at ha
    cases ha

/-- The octets a replay may change: the id and the flags, the letters of the question and the
TTLs. -/
def ReplayChanges (response : List UInt8) (answer_offset : Nat) (rs : List RecordSpan) (i : Nat) :
    Prop :=
  i < 4 ∨ (12 ≤ i ∧ i < answer_offset ∧ response[i]?.any is_ascii_alphabetic = true) ∨ AnyTtl rs i

instance (response : List UInt8) (answer_offset : Nat) (rs : List RecordSpan) :
    DecidablePred (ReplayChanges response answer_offset rs) := fun i =>
  inferInstanceAs (Decidable (i < 4 ∨
    (12 ≤ i ∧ i < answer_offset ∧ response[i]?.any is_ascii_alphabetic = true) ∨
    ∃ r ∈ rs, r.fixed + 4 ≤ i ∧ i < r.fixed + 8))

/-- One question in two packets, up to case, ends at one place and has the same octets but for
letters. -/
theorem same_question {a b : List UInt8} {qa qb : DnsPacketQuestionView} {na nb : Nat}
    (ha : question_at a 12 = .ok (qa, na)) (hb : question_at b 12 = .ok (qb, nb))
    (hname : qa.qname_wire.map byte_to_ascii_lowercase = qb.qname_wire.map byte_to_ascii_lowercase)
    (htype : qa.qtype = qb.qtype) (hclass : qa.qclass = qb.qclass) :
    na = nb ∧ ∀ i, 12 ≤ i → i < nb → b[i]?.any is_ascii_alphabetic = false → a[i]? = b[i]? := by
  obtain ⟨sa, hscan, hta, hca, hwire, rfl⟩ := question_at_ok ha
  obtain ⟨sb, hscan', htb, hcb, hwire', rfl⟩ := question_at_ok hb
  have hlta := scan_lt_end hscan
  have hla := read_u16_bound hta
  have hlb := read_u16_bound htb
  rw [hwire, hwire'] at hname
  have hlen := congrArg List.length hname
  rw [length_map, length_map, slice, slice, length_take, length_take,
    length_drop, length_drop] at hlen
  obtain rfl : sa = sb := by omega
  refine ⟨rfl, ?_⟩
  intro i hge hlt hletter
  rw [htype] at hta
  rw [hclass] at hca
  rcases Nat.lt_or_ge i sa with hi | hi
  · -- an octet of the name
    have hget := congrArg (fun l => l[i - 12]?) hname
    rw [getElem?_map, getElem?_map, slice, slice, getElem?_take_of_lt (by omega),
      getElem?_take_of_lt (by omega), getElem?_drop, getElem?_drop, Nat.add_sub_cancel' hge] at hget
    rw [getElem?_eq_getElem (by omega), getElem?_eq_getElem (by omega)] at hget ⊢
    rw [getElem?_eq_getElem (by omega), Option.any_some] at hletter
    exact congrArg some (eq_of_lowercase_eq hletter (Option.some.inj hget))
  · rcases Nat.lt_or_ge i (sa + 2) with hi' | hi'
    · exact octets_of_read_u16 hta htb i hi hi'
    · exact octets_of_read_u16 hca hcb i hi' (by omega)

/-! ## The response for a request -/

/-- The stored response with the id, the question and the flags `RD` and `CD` of a request. -/
structure Restored (response request : List UInt8) (answer_offset : Nat) (rs : List RecordSpan)
    (out : List UInt8) : Prop where
  length_eq : out.length = response.length
  id_eq : read_u16 out 0 = read_u16 request 0
  flags_eq : ∃ flags request_flags, read_u16 response 2 = .ok flags ∧
    read_u16 request 2 = .ok request_flags ∧
    read_u16 out 2 = .ok ((flags &&& ~~~0x0110) ||| (request_flags &&& 0x0110))
  counts_eq : ∀ i, 4 ≤ i → i < 12 → out[i]? = response[i]?
  question_eq : ∀ i, 12 ≤ i → i < answer_offset → out[i]? = request[i]?
  records_eq : ∀ i, answer_offset ≤ i → ¬AnyTtl rs i → out[i]? = response[i]?

variable {response : List UInt8} {plan : DnsResponseCachePlan} {view : DnsPacketView}
  {flags : UInt16} {question : DnsPacketQuestionView} {labels : List (List UInt8)}
  {rs : List RecordSpan} {request_packet : List UInt8} {request : DnsPacketView}
  {asked : DnsPacketQuestionView} {labels' : List (List UInt8)}

section Replay

variable (hp : Planned response plan view flags question labels rs)

include hp

section

variable (ha : AsksFor asked labels' plan.key)

include ha

theorem Planned.same_name :
    asked.qname_wire.map byte_to_ascii_lowercase = question.qname_wire.map byte_to_ascii_lowercase := by
  rw [ha.wire_eq, hp.wire_eq]
  apply (name_text_eq_iff ha.valid ha.short hp.valid hp.short).mp
  rw [← ha.qname_eq, hp.key_eq]

theorem Planned.same_type : asked.qtype = question.qtype ∧ asked.qclass = question.qclass := by
  rw [ha.qtype_eq, ha.qclass_eq, hp.key_eq]
  exact ⟨rfl, rfl⟩

theorem Planned.matches_asked : asked.matches question = true := by
  obtain ⟨htype, hclass⟩ := hp.same_type ha
  rw [DnsPacketQuestionView.matches, htype, hclass, beq_self_eq_true, beq_self_eq_true,
    (wire_name_eq_ignore_ascii_case_iff _ _).mpr (hp.same_name ha)]
  rfl

end

/-- The filled packet: the plan's response with the id of the request. -/
theorem Planned.filled (request_id : UInt16) (out : List UInt8) :
    AgreeOff (PlanChanges rs) (fill_packed_response_into plan.entry.packed_response request_id out)
      response := by
  have hlen := hp.packed.length_eq
  have hbound := read_u16_bound hp.flags_eq
  rw [fill_packed_response_into, if_neg (by omega)]
  refine AgreeOff.trans (AgreeOff.copy_at ?_ ?_) hp.packed
  · rw [length_cons, length_singleton]
    omega
  · intro i _ hlt
    exact Or.inl (by omega)

theorem Planned.head_eq (h : AgreeOff (PlanChanges rs) packet response)
    {i : Nat} (hge : 2 ≤ i) (hlt : i < view.answer_offset) : packet[i]? = response[i]? := by
  apply h.get_eq
  rintro (hlow | ⟨r, hr, httl⟩)
  · omega
  · have := hp.records.mem_bounds r hr
    rw [RecordSpan.ttl] at httl
    omega

theorem Planned.read_count : read_u16 response 4 = .ok 1 := by
  obtain ⟨-, -, -, -, -, hqd, -, -⟩ := parse_ok hp.view_eq
  rw [hqd]
  exact congrArg _ (UInt16.toNat_inj.mp hp.one_question)

variable (hreq : DnsPacketView.parse request_packet = .ok request)

include hreq

section

variable (hone : request.question_count.toNat = 1)
  (hq : question_at request_packet 12 = .ok (asked, request.answer_offset))
  (ha : AsksFor asked labels' plan.key) (h : AgreeOff (PlanChanges rs) packet response)

include hone hq ha h

theorem Planned.validate :
    ∃ view', parse packet = .ok view' ∧ view'.answer_offset = view.answer_offset ∧
      validate_dns_packet_response_for_request_fast request (some view') false = .ok () := by
  obtain ⟨hoff, hend⟩ := question_at_bounds hp.question_eq
  have hqd' : read_u16 packet 4 = .ok 1 := by
    rw [read_u16_congr (fun i hge hlt => hp.head_eq h (by omega) (by omega)), hp.read_count]
  obtain ⟨view', hview', hcount', hoff'⟩ := parse_of_question (by rw [h.length_eq]; omega) hqd'
    (question_at_frame hp.question_eq (fun i hge hlt => hp.head_eq h (by omega) hlt))
  refine ⟨view', hview', hoff', ?_⟩
  have hone' : request.question_count = 1 := UInt16.toNat_inj.mp hone
  have hresponse : view'.response = true := by
    obtain ⟨flags', -, -, hflags', hflag, -⟩ := parse_ok hview'
    rw [read_u16_congr (fun i hge hlt => hp.head_eq h (by omega) (by omega)), hp.flags_eq] at hflags'
    rw [hflag, ← Except.ok.inj hflags', bne_iff_ne]
    exact hp.is_response
  obtain ⟨question', hq', hnext'⟩ := question_of_view hview' (congrArg UInt16.toNat hcount')
  obtain ⟨asked', haq, hnext⟩ := question_of_view hreq hone
  obtain ⟨rfl, -⟩ := Prod.mk.inj (Except.ok.inj (hq.symm.trans haq))
  rw [question_at_frame hp.question_eq (fun i hge hlt => hp.head_eq h (by omega) hlt)] at hq'
  obtain ⟨rfl, -⟩ := Prod.mk.inj (Except.ok.inj hq')
  rw [validate_dns_packet_response_for_request_fast, hresponse, if_neg (by decide),
    if_neg (fun hid => Bool.false_ne_true hid.1), hone', hcount', if_neg (by decide),
    if_neg (by decide), if_neg (fun hne => hne rfl)]
  change match_questions 1 1 0 _ _ = _
  rw [match_questions, hnext, hnext']
  dsimp only
  rw [if_pos (hp.matches_asked ha), match_questions]

/-- The packet the request's id, question and flags are written into. -/
theorem Planned.restored :
    ∃ out, restore_dns_response_for_request request packet = .ok out ∧
      Restored response request_packet request.answer_offset rs out := by
  obtain ⟨view', hview', hoff', hval⟩ := hp.validate hreq hone hq ha h
  obtain ⟨htype, hclass⟩ := hp.same_type ha
  obtain ⟨hsame, -⟩ := same_question hq hp.question_eq (hp.same_name ha) htype hclass
  obtain ⟨hoff, hend⟩ := question_at_bounds hp.question_eq
  obtain ⟨-, hend'⟩ := question_at_bounds hq
  obtain ⟨request_flags, hpacket, hid, hrflags, -⟩ := parse_ok hreq
  have hlen := h.length_eq
  -- the three writes
  set source := slice request_packet 12 request.answer_offset with hsource
  have hslen : source.length = request.answer_offset - 12 := by
    rw [hsource, slice, length_take, length_drop]
    omega
  have hb1 : 12 + source.length ≤ packet.length := by omega
  set out1 := copy_at packet 12 source with hout1
  have hl1 : out1.length = packet.length := length_copy_at hb1
  have hb2 : 0 + (u16_bytes request.id).length ≤ out1.length := by
    rw [length_u16_bytes]
    omega
  set out2 := copy_at out1 0 (u16_bytes request.id) with hout2
  have hl2 : out2.length = out1.length := length_copy_at hb2
  have hget2 : ∀ i, 2 ≤ i → out2[i]? = out1[i]? := by
    intro i hge
    apply getElem?_copy_at_outside hb2
    rw [length_u16_bytes]
    omega
  have hflags : read_u16 out2 2 = .ok flags := by
    rw [← hp.flags_eq]
    apply read_u16_congr
    intro i hge hlt
    rw [hget2 i hge, getElem?_copy_at_outside hb1 (by omega)]
    exact hp.head_eq h hge (by omega)
  set value := (flags &&& ~~~0x0110) ||| (request_flags &&& 0x0110) with hvalue
  have hb3 : 2 + (u16_bytes value).length ≤ out2.length := by
    rw [length_u16_bytes]
    omega
  have hget3 : ∀ i, i < 2 ∨ 4 ≤ i → (copy_at out2 2 (u16_bytes value))[i]? = out2[i]? := by
    intro i hi
    apply getElem?_copy_at_outside hb3
    rw [length_u16_bytes]
    omega
  refine ⟨copy_at out2 2 (u16_bytes value), ?_, ?_⟩
  · rw [restore_dns_response_for_request, hview']
    dsimp only [Bind.bind, Except.bind]
    rw [hval]
    rw [if_neg (fun hne => hne (hsame.trans hoff'.symm)), hpacket]
    rw [hflags]
    rw [hrflags]
    rfl
  · refine
      { length_eq := by rw [length_copy_at hb3, hl2, hl1, hlen]
        id_eq := ?_
        flags_eq := ⟨flags, request_flags, hp.flags_eq, hrflags,
          read_u16_copy_at (by omega) value⟩
        counts_eq := ?_
        question_eq := ?_
        records_eq := ?_ }
    · rw [read_u16_congr (fun i _ hlt => hget3 i (Or.inl (by omega))),
        read_u16_copy_at (by omega), hid]
    · intro i hge hlt
      rw [hget3 i (Or.inr hge), hget2 i (by omega), getElem?_copy_at_outside hb1 (Or.inl hlt)]
      exact hp.head_eq h (by omega) (by omega)
    · intro i hge hlt
      obtain ⟨j, rfl⟩ := Nat.exists_eq_add_of_le hge
      rw [hget3 _ (Or.inr (by omega)), hget2 _ (by omega), getElem?_copy_at_inside hb1 (by omega),
        hsource, slice, getElem?_take_of_lt (by omega), getElem?_drop]
    · intro i hge hnot
      rw [hget3 i (Or.inr (by omega)), hget2 i (by omega), getElem?_copy_at_outside hb1 (by omega)]
      exact h.get_eq i (fun hch => hch.elim (by omega) hnot)

end

end Replay

/-! ## Capping -/

/-- When no owner name is read where a packet differs from the original, all its TTLs are
capped. -/
theorem cap_ttls_total {original : List UInt8} {limit : UInt32} {stop : Nat} {C : Nat → Prop}
    (hrs : Records original offset rs stop) (httl : ∀ i, AnyTtl rs i → C i)
    (hnames : ∀ r ∈ rs, ∀ i ∈ name_positions original r.owner, ¬C i) :
    ∀ packet, SameRecords original packet offset rs → AgreeOff C packet original →
      ∃ out, cap_ttls limit rs.length offset packet = .ok out := by
  induction hrs with
  | nil offset =>
    intro packet hsame hagree
    exact ⟨packet, rfl⟩
  | @cons offset stop r rs hhead htail ih =>
    intro packet hsame hagree
    have htotal := ih (fun i hi => httl i hi.cons)
      (fun r' hr' => hnames r' (mem_cons_of_mem _ hr'))
    obtain ⟨howner, hscan, hlt, hstop_le, rdlen, hrd, hstop⟩ := record_at_ok hhead
    have hfirst := hnames r mem_cons_self
    rw [howner] at hfirst
    have hscan' := scan_frame hagree.length_eq (fun i hi => hagree.get_eq i (hfirst i hi))
    obtain ⟨kind, hkind⟩ := read_u16_ok packet r.fixed (by rw [hsame.length_eq]; omega)
    rw [length_cons, cap_ttls, hscan', hscan]
    change ∃ out, (read_u16 packet r.fixed >>= _) = _
    rw [hkind]
    rw [hsame.read_rdlen hhead htail, hrd]
    change ∃ out, (if packet.length < r.fixed + 10 + rdlen.toNat then _ else _) = _
    rw [← hstop, if_neg (by rw [hsame.length_eq]; omega)]
    by_cases hopt : kind ≠ 41
    · obtain ⟨ttl, hread⟩ := read_u32_ok packet (r.fixed + 4) (by rw [hsame.length_eq]; omega)
      rw [if_pos hopt, hread]
      obtain ⟨hwrite, hnext⟩ := hsame.write_ttl hhead (lesser ttl limit)
      exact htotal _ hnext ((hwrite.mono fun i hi => httl i ⟨r, mem_cons_self, hi⟩).trans hagree)
    · rw [if_neg hopt]
      exact htotal packet (hsame.tail hhead rfl (fun i _ => rfl)) hagree

/-! ## The records of a response -/

def records_from (packet : List UInt8) : Nat → Nat → Except DnsError (List RecordSpan)
  | 0, _ => .ok []
  | count + 1, offset => do
    let r ← record_at packet offset
    let rs ← records_from packet count r.stop
    pure (r :: rs)

def record_spans (packet : List UInt8) : Except DnsError (List RecordSpan) := do
  let view ← DnsPacketView.parse packet
  let count ← record_count packet
  records_from packet count view.answer_offset

theorem records_from_of_records {stop : Nat}
    (h : Records packet offset rs stop) : records_from packet rs.length offset = .ok rs := by
  induction h with
  | nil => rfl
  | cons head tail ih =>
    rw [length_cons, records_from, head]
    change (records_from packet _ _ >>= _) = _
    rw [ih]
    rfl

theorem Planned.record_spans_eq (hp : Planned response plan view flags question labels rs) :
    record_spans response = .ok rs := by
  rw [record_spans, hp.view_eq]
  rw [hp.count_eq]
  exact records_from_of_records hp.records

/-! ## The replay -/

/-- The replayed response: the original with the id, the question and the flags `RD` and `CD` of
the request, and with every TTL at most `remaining`. -/
structure Replayed (response request : List UInt8) (answer_offset : Nat) (rs : List RecordSpan)
    (remaining : Int) (out : List UInt8) : Prop where
  length_eq : out.length = response.length
  id_eq : read_u16 out 0 = read_u16 request 0
  flags_eq : ∃ flags request_flags, read_u16 response 2 = .ok flags ∧
    read_u16 request 2 = .ok request_flags ∧
    read_u16 out 2 = .ok ((flags &&& ~~~0x0110) ||| (request_flags &&& 0x0110))
  counts_eq : slice out 4 12 = slice response 4 12
  question_eq : slice out 12 answer_offset = slice request 12 answer_offset
  owner_kind_eq : ∀ r ∈ rs, slice out r.owner (r.fixed + 4) = slice response r.owner (r.fixed + 4)
  rdata_eq : ∀ r ∈ rs, slice out (r.fixed + 8) r.stop = slice response (r.fixed + 8) r.stop
  ttl_le : ∀ r ∈ rs, ∀ kind, read_u16 response r.fixed = .ok kind → kind ≠ 41 →
    ∃ ttl, read_u32 out (r.fixed + 4) = .ok ttl ∧ (ttl.toNat : Int) ≤ remaining

/-- Owner names are read at octets that a replay leaves alone. -/
def Undisturbed (response : List UInt8) (answer_offset : Nat) (rs : List RecordSpan) : Prop :=
  ∀ r ∈ rs, ∀ i ∈ name_positions response r.owner, ¬ReplayChanges response answer_offset rs i

instance (response : List UInt8) (answer_offset : Nat) (rs : List RecordSpan) :
    Decidable (Undisturbed response answer_offset rs) :=
  inferInstanceAs (Decidable (∀ r ∈ rs, ∀ i ∈ name_positions response r.owner,
    ¬ReplayChanges response answer_offset rs i))

variable {now_unix : Int}

theorem remaining_ttl_le {deadline : Int} (h : now_unix < deadline) :
    ((remaining_ttl deadline now_unix).toNat : Int) ≤ deadline - now_unix := by
  rw [remaining_ttl, UInt32.toNat_ofNat']
  omega

namespace Records

theorem ttl_within {stop : Nat} (h : Records packet offset rs stop) : ∀ r ∈ rs, ∀ i, r.owner ≤ i → i < r.stop →
    AnyTtl rs i → r.ttl i := by
  induction h with
  | nil => intro r hr; cases hr
  | @cons offset stop first rs head tail ih =>
    obtain ⟨howner, -, hlt, -, rdlen, -, hstop⟩ := record_at_ok head
    intro r hr i hge hlt' hany
    obtain ⟨r', hr', httl⟩ := hany
    rcases mem_cons.mp hr with rfl | hmem
    · rcases mem_cons.mp hr' with rfl | hr'
      · exact httl
      · have := tail.ttl_ge ⟨r', hr', httl⟩
        omega
    · rcases mem_cons.mp hr' with rfl | hr'
      · have := tail.mem_bounds r hmem
        rw [RecordSpan.ttl] at httl
        omega
      · exact ih r hmem i hge hlt' ⟨r', hr', httl⟩

end Records

section Replay

variable {restored : List UInt8}
  (hr : Restored response request_packet request.answer_offset rs restored)

include hr

theorem Restored.same_records : SameRecords response restored request.answer_offset rs :=
  ⟨hr.length_eq, hr.records_eq⟩

variable (hq : question_at request_packet 12 = .ok (asked, request.answer_offset))

include hq

theorem Restored.cap_eq (hp : Planned response plan view flags question labels rs) (limit : UInt32) :
    cap_dns_response_ttls restored limit = cap_ttls limit rs.length request.answer_offset restored := by
  obtain ⟨hoff, hend⟩ := question_at_bounds hp.question_eq
  have hqd' : read_u16 restored 4 = .ok 1 := by
    rw [read_u16_congr (fun i hge hlt => hr.counts_eq i hge (by omega)), hp.read_count]
  obtain ⟨view', hview', -, hoff'⟩ := parse_of_question (by rw [hr.length_eq]; omega) hqd'
    (question_at_frame hq hr.question_eq)
  have hcount : record_count restored = .ok rs.length := by
    rw [record_count_congr hr.counts_eq, hp.count_eq]
  rw [cap_dns_response_ttls_eq hview' hcount, hoff']

/-- A restored packet whose TTLs were capped is the replayed response. -/
theorem Restored.replayed (hrs : Records response request.answer_offset rs response.length)
    {deadline : Int} (hlive : now_unix < deadline) {out : List UInt8}
    (h : cap_ttls (remaining_ttl deadline now_unix) rs.length request.answer_offset restored =
      .ok out) :
    Replayed response request_packet request.answer_offset rs (deadline - now_unix) out := by
  obtain ⟨hagree, httls⟩ := cap_ttls_ok hrs hr.same_records h
  obtain ⟨hoff, hend⟩ := question_at_bounds hq
  -- no TTL is before the records, and inside a record only its own four octets are
  have hhead : ∀ i, i < request.answer_offset → out[i]? = restored[i]? := by
    intro i hlt
    apply hagree.get_eq
    rintro ⟨r, hmem, httl⟩
    have := hrs.mem_bounds r hmem
    rw [RecordSpan.ttl] at httl
    omega
  have hfield : ∀ r ∈ rs, ∀ i, r.owner ≤ i → i < r.stop → ¬r.ttl i → out[i]? = response[i]? := by
    intro r hmem i hge hlt hnot
    have hbounds := hrs.mem_bounds r hmem
    have hany : ¬AnyTtl rs i := fun hany => hnot (hrs.ttl_within r hmem i hge hlt hany)
    rw [hagree.get_eq i hany, hr.records_eq i (by omega) hany]
  refine
    { length_eq := by rw [hagree.length_eq, hr.length_eq]
      id_eq := ?_
      flags_eq := ?_
      counts_eq := ?_
      question_eq := ?_
      owner_kind_eq := ?_
      rdata_eq := ?_
      ttl_le := ?_ }
  · rw [read_u16_congr (fun i _ hlt => hhead i (by omega)), hr.id_eq]
  · rw [read_u16_congr (fun i _ hlt => hhead i (by omega) : ∀ i, 2 ≤ i → i < 2 + 2 → _)]
    exact hr.flags_eq
  · apply slice_congr
    intro i hge hlt
    rw [hhead i (by omega), hr.counts_eq i hge hlt]
  · apply slice_congr
    intro i hge hlt
    rw [hhead i hlt, hr.question_eq i hge hlt]
  · intro r hmem
    have hbounds := hrs.mem_bounds r hmem
    apply slice_congr
    intro i hge hlt
    apply hfield r hmem i hge (by omega)
    rw [RecordSpan.ttl]
    omega
  · intro r hmem
    have hbounds := hrs.mem_bounds r hmem
    apply slice_congr
    intro i hge hlt
    apply hfield r hmem i (by omega) hlt
    rw [RecordSpan.ttl]
    omega
  · intro r hmem kind hkind hopt
    obtain ⟨ttl, hread, hle⟩ := httls r hmem kind hkind hopt
    refine ⟨ttl, hread, Int.le_trans ?_ (remaining_ttl_le hlive)⟩
    exact Int.ofNat_le.mpr (UInt32.le_iff_toNat_le.mp hle)

/-- Off the octets a replay changes, the restored packet is the response. -/
theorem Restored.agree (hp : Planned response plan view flags question labels rs)
    (ha : AsksFor asked labels' plan.key) :
    AgreeOff (ReplayChanges response request.answer_offset rs) restored response := by
  obtain ⟨htype, hclass⟩ := hp.same_type ha
  obtain ⟨hsame, hletters⟩ := same_question hq hp.question_eq (hp.same_name ha) htype hclass
  refine ⟨hr.length_eq, ?_⟩
  intro i hnot
  rw [ReplayChanges, not_or, not_or] at hnot
  obtain ⟨hlow, hquestion, httl⟩ := hnot
  rcases Nat.lt_or_ge i 12 with hlt | hge
  · exact hr.counts_eq i (by omega) hlt
  rcases Nat.lt_or_ge i request.answer_offset with hlt | hge'
  · rw [hr.question_eq i hge hlt]
    apply hletters i hge (by omega)
    exact Bool.eq_false_iff.mpr (fun hany => hquestion ⟨hge, hlt, hany⟩)
  · exact hr.records_eq i hge' httl

end Replay

theorem asks_for_of_name {next : Nat} (hq : question_at request_packet 12 = .ok (asked, next))
    (hname : canonical_wire_name asked.qname_wire = .ok plan.key.qname)
    (htype : asked.qtype = plan.key.qtype) (hclass : asked.qclass = plan.key.qclass) :
    ∃ labels, AsksFor asked labels plan.key := by
  obtain ⟨stop, hscan, -, -, hwire, -⟩ := question_at_ok hq
  obtain ⟨labels, -, hv, hle, hslice⟩ := scan_uncompressed hscan
  rw [hslice] at hwire
  rw [hwire, canonical_wire_name_body hv hle] at hname
  exact ⟨labels, hv, hle, hwire, (Except.ok.inj hname).symm, htype, hclass⟩

section Restore

variable {hasher : HashBuilder} {store : DnsCacheStore} {ignore_fixed_ttl : Bool}
  (hreq : DnsPacketView.parse request_packet = .ok request)
  (hcount : request.question_count.toNat = 1)
  (hq : question_at request_packet 12 = .ok (asked, request.answer_offset))
  (ha : AsksFor asked labels plan.key) (hone : store.entries.iter = [(plan.key, plan.entry)])

include hreq hcount hq ha hone

theorem restore_past_deadline
    (hpast : plan.entry.lookup_deadline ignore_fixed_ttl ≤ now_unix) (out : List UInt8) :
    ∃ store', restore_cached_response_for_packet_question hasher store now_unix request_packet
      ignore_fixed_ttl out = .ok (none, store') := by
  obtain ⟨asked', hq', hnext⟩ := question_of_view hreq hcount
  obtain ⟨rfl, -⟩ := Prod.mk.inj (Except.ok.inj (hq.symm.trans hq'))
  obtain ⟨store', hlookup⟩ := @lookup_past_deadline _ _ _ _ hasher _ _ _ ha hone hpast
  refine ⟨store', ?_⟩
  rw [restore_cached_response_for_packet_question, hreq]
  change (if request.question_count.toNat ≠ 1 then _ else _) = _
  rw [if_neg (fun hne => hne hcount), hnext]
  change (store.lookup_packet_question hasher now_unix asked ignore_fixed_ttl >>= _) = _
  rw [hlookup]
  rfl

theorem restore_before_deadline
    (hlive : now_unix < plan.entry.lookup_deadline ignore_fixed_ttl) {out restored : List UInt8}
    (hrestored : restore_dns_response_for_request request
      (fill_packed_response_into plan.entry.packed_response request.id out) = .ok restored) :
    restore_cached_response_for_packet_question hasher store now_unix request_packet
        ignore_fixed_ttl out
      = (cap_dns_response_ttls restored
          (remaining_ttl (plan.entry.lookup_deadline ignore_fixed_ttl) now_unix) >>= fun bytes =>
        if bytes.isEmpty then .ok (none, store.record_hit)
        else .ok (some (⟨request.id, bytes.length⟩, bytes), store.record_hit)) := by
  obtain ⟨asked', hq', hnext⟩ := question_of_view hreq hcount
  obtain ⟨rfl, -⟩ := Prod.mk.inj (Except.ok.inj (hq.symm.trans hq'))
  have hlookup := @lookup_before_deadline _ _ _ _ hasher _ _ _ ha hone hlive
  rw [restore_cached_response_for_packet_question, hreq]
  change (if request.question_count.toNat ≠ 1 then _ else _) = _
  rw [if_neg (fun hne => hne hcount), hnext]
  change (store.lookup_packet_question hasher now_unix asked ignore_fixed_ttl >>= _) = _
  rw [hlookup]
  dsimp only [Bind.bind, Except.bind]
  rw [hrestored]
  rfl

end Restore

/-- A request for the key of a plan, to a store with the plan's entry only. At or past the selected
deadline there is no hit. Before it, what is returned is a hit with the original response, aged;
and there is one unless an owner name of the response is read at an octet the replay changes. -/
theorem restore_of_plan {planned_at : Int} {response : List UInt8} {fixed_domain_ttl : Option Int}
    {plan : DnsResponseCachePlan}
    (hbuild : build_response_cache_plan_from_packet planned_at response fixed_domain_ttl
      = .ok (some plan))
    (hasher : HashBuilder) (store : DnsCacheStore)
    (hone : store.entries.iter = [(plan.key, plan.entry)]) {request_packet : List UInt8}
    {request : DnsPacketView} {asked : DnsPacketQuestionView} {rest : DnsPacketQuestionIter}
    (hreq : DnsPacketView.parse request_packet = .ok request) (hcount : request.question_count.toNat = 1)
    (hasked : request.questions.next = some (asked, rest))
    (hname : canonical_wire_name asked.qname_wire = .ok plan.key.qname)
    (htype : asked.qtype = plan.key.qtype) (hclass : asked.qclass = plan.key.qclass)
    (now_unix : Int) (ignore_fixed_ttl : Bool) (out : List UInt8) :
    (plan.entry.lookup_deadline ignore_fixed_ttl ≤ now_unix →
      ∃ store', restore_cached_response_for_packet_question hasher store now_unix request_packet
        ignore_fixed_ttl out = .ok (none, store')) ∧
    ∃ rs, record_spans response = .ok rs ∧
      (now_unix < plan.entry.lookup_deadline ignore_fixed_ttl →
        (∀ found store', restore_cached_response_for_packet_question hasher store now_unix
            request_packet ignore_fixed_ttl out = .ok (found, store') →
          ∃ bytes, found = some (⟨request.id, bytes.length⟩, bytes) ∧
            Replayed response request_packet request.answer_offset rs
              (plan.entry.lookup_deadline ignore_fixed_ttl - now_unix) bytes) ∧
        (Undisturbed response request.answer_offset rs →
          ∃ hit, restore_cached_response_for_packet_question hasher store now_unix request_packet
            ignore_fixed_ttl out = .ok (some hit, store.record_hit))) := by
  obtain ⟨view, flags, question, labels, rs, hp⟩ := planned_of_build hbuild
  obtain ⟨asked', hq, hnext⟩ := question_of_view hreq hcount
  obtain ⟨rfl, -⟩ := Prod.mk.inj (Option.some.inj (hasked.symm.trans hnext))
  obtain ⟨labels', ha⟩ := asks_for_of_name hq hname htype hclass
  refine ⟨fun hpast => restore_past_deadline hreq hcount hq ha hone hpast out, rs,
    hp.record_spans_eq, ?_⟩
  intro hlive
  obtain ⟨restored, hrestored, hr⟩ := hp.restored hreq hcount hq ha (hp.filled request.id out)
  rw [restore_before_deadline hreq hcount hq ha hone hlive hrestored,
    hr.cap_eq hq hp (remaining_ttl (plan.entry.lookup_deadline ignore_fixed_ttl) now_unix)]
  have hsame := (same_question hq hp.question_eq (hp.same_name ha) (hp.same_type ha).1
    (hp.same_type ha).2).1
  have hrs := hp.records
  rw [← hsame] at hrs
  -- a capped packet is as long as the response, so it is a hit
  have hhit : ∀ bytes, cap_ttls (remaining_ttl (plan.entry.lookup_deadline ignore_fixed_ttl) now_unix)
      rs.length request.answer_offset restored = .ok bytes →
      Replayed response request_packet request.answer_offset rs
        (plan.entry.lookup_deadline ignore_fixed_ttl - now_unix) bytes ∧ bytes.isEmpty = false := by
    intro bytes hcap
    have hreplayed := hr.replayed hq hrs hlive hcap
    have hlen := read_u16_bound hp.flags_eq
    refine ⟨hreplayed, ?_⟩
    rw [isEmpty_eq_false_iff, ← length_pos_iff, hreplayed.length_eq]
    omega
  refine ⟨?_, ?_⟩
  · intro found store' h
    obtain ⟨bytes, hcap, h⟩ := Fallible.bind_ok h
    obtain ⟨hreplayed, hne⟩ := hhit bytes hcap
    rw [hne, if_neg Bool.false_ne_true] at h
    cases h
    exact ⟨bytes, rfl, hreplayed⟩
  · intro hun
    obtain ⟨bytes, hcap⟩ := cap_ttls_total hrs (fun i hi => Or.inr (Or.inr hi)) hun restored
      hr.same_records (hr.agree hq hp ha)
    obtain ⟨-, hne⟩ := hhit bytes hcap
    refine ⟨(⟨request.id, bytes.length⟩, bytes), ?_⟩
    rw [hcap]
    change (if bytes.isEmpty = true then _ else _) = _
    rw [hne, if_neg Bool.false_ne_true]

/-- A response for `a.` with one address, whose owner name is a pointer to `target`. -/
def answer_with_pointer (target : UInt8) : List UInt8 :=
  [0, 0, 0x81, 0x80, 0, 1, 0, 1, 0, 0, 0, 0, 1, 0x61, 0, 0, 1, 0, 1,
    0xc0, target, 0, 1, 0, 1, 0, 0, 0, 60, 0, 4, 1, 2, 3, 4]

/-- What is planned for it at time 0: the same packet, its TTL zeroed. -/
def plan_with_pointer (target : UInt8) : DnsResponseCachePlan where
  key := ⟨"a.", 1, 1⟩
  entry := {
    route_owner_key := "a.|1|1"
    ips := [.V4 0x01020304]
    has_any_ip := true
    deadline_unix := 60
    original_deadline_unix := 60
    packed_response := copy_at (answer_with_pointer target) 25 [0, 0, 0, 0] }
  min_ttl := 60
  answer_count := 1
  ip_count := 1
  client_ttl_zeroed := true

/-- A query for `A.`, with an id whose octets are those of a pointer to themselves. -/
def query_with_pointer_id : List UInt8 :=
  [0xc0, 0, 1, 0x10, 0, 1, 0, 0, 0, 0, 0, 0, 1, 0x41, 0, 0, 1, 0, 1]

def view_with_pointer_id : DnsPacketView where
  packet := query_with_pointer_id
  id := 0xc000
  response := false
  question_count := 1
  answer_count := 0
  answer_offset := 19

def store_of_plan (plan : DnsResponseCachePlan) : DnsCacheStore where
  capacity := 4
  entries := .Small [(plan.key, plan.entry)]
  stats := {}

/-- Keys are probed in order, and all hash alike. -/
def constant_hasher : HashBuilder where
  finish _ := 0
  probe keys := keys
  probe_perm keys := .refl keys

/-- The usual pointer to the question: half a minute on there is a hit, whose TTL is zero. -/
theorem restore_of_plan_address :
    Undisturbed (answer_with_pointer 12) 19 [⟨19, 21, 35⟩] ∧
    ∃ hit, restore_cached_response_for_packet_question constant_hasher
      (store_of_plan (plan_with_pointer 12)) 30 query_with_pointer_id false []
      = .ok (some hit, (store_of_plan (plan_with_pointer 12)).record_hit) := by
  have hun : Undisturbed (answer_with_pointer 12) 19 [⟨19, 21, 35⟩] := by decide +kernel
  obtain ⟨-, rs, hrs, h⟩ := @restore_of_plan 0 (answer_with_pointer 12) none (plan_with_pointer 12)
    (by decide +kernel) constant_hasher (store_of_plan (plan_with_pointer 12)) rfl
    query_with_pointer_id view_with_pointer_id ⟨[1, 0x41, 0], 1, 1⟩ ⟨query_with_pointer_id, 19, 0⟩
    (by decide +kernel) rfl (by decide +kernel) (by decide +kernel) rfl rfl 30 false []
  have hspans : record_spans (answer_with_pointer 12) = .ok [⟨19, 21, 35⟩] := by decide +kernel
  obtain rfl := Except.ok.inj (hrs.symm.trans hspans)
  exact ⟨hun, (h (by decide +kernel)).2 hun⟩

/-- The response can be planned when its owner name is read in the id, where it finds the root. A
matching query then has to find it in its own id, which never ends: half a minute before the
deadline there is no hit but an error. -/
theorem restore_of_pointer_into_id :
    build_response_cache_plan_from_packet 0 (answer_with_pointer 0) none
      = .ok (some (plan_with_pointer 0)) ∧
    DnsPacketView.parse query_with_pointer_id = .ok view_with_pointer_id ∧
    view_with_pointer_id.questions.next
      = some (⟨[1, 0x41, 0], 1, 1⟩, ⟨query_with_pointer_id, 19, 0⟩) ∧
    canonical_wire_name [1, 0x41, 0] = .ok (plan_with_pointer 0).key.qname ∧
    (30 : Int) < (plan_with_pointer 0).entry.lookup_deadline false ∧
    (restore_cached_response_for_packet_question constant_hasher
      (store_of_plan (plan_with_pointer 0)) 30 query_with_pointer_id false []).isOk = false := by
  decide +kernel

end DaeNext.Dns
