/-
What a cache plan keeps of its response.

The plan is made of a packet whose records were all read, from the end of its question to its
last octet. The response it stores is that packet but for the id and the TTLs: the loops that
zero or cap TTLs find the records where the original has them, because a name in a rewritten
packet ends where it did.
-/
import DaeNext.DnsHotPath

set_option autoImplicit false

namespace DaeNext.Dns

open Fallible List DnsPacketView
open Patch (copy_at AgreeOff)

/-! ## Walking over the records of a rewritten packet -/

/-- A TTL octet of one of the records. -/
def AnyTtl (rs : List RecordSpan) (i : Nat) : Prop := ∃ r ∈ rs, r.ttl i

variable {rs : List RecordSpan}

theorem AnyTtl.cons {r : RecordSpan} {i : Nat} (h : AnyTtl rs i) : AnyTtl (r :: rs) i := by
  obtain ⟨r', hr', httl⟩ := h
  exact ⟨r', mem_cons_of_mem _ hr', httl⟩

/-- The packet is the original from `offset` on, but for TTLs. -/
structure SameRecords (original packet : List UInt8) (offset : Nat) (rs : List RecordSpan) : Prop where
  length_eq : packet.length = original.length
  get_eq : ∀ i, offset ≤ i → ¬AnyTtl rs i → packet[i]? = original[i]?

variable {original packet : List UInt8} {offset stop : Nat}

section Walk

variable {r : RecordSpan} (h : SameRecords original packet offset (r :: rs))
  (hhead : record_at original offset = .ok r)

include h hhead

section

variable (htail : Records original r.stop rs stop)

include htail

theorem SameRecords.head {i : Nat} (hge : offset ≤ i) (hlt : i < r.stop)
    (hfield : i < r.fixed + 4 ∨ r.fixed + 8 ≤ i) : packet[i]? = original[i]? := by
  apply h.get_eq i hge
  rintro ⟨r', hr', httl⟩
  rcases mem_cons.mp hr' with rfl | hr'
  · rw [RecordSpan.ttl] at httl
    omega
  · have := htail.ttl_ge ⟨r', hr', httl⟩
    omega

omit htail in
theorem SameRecords.tail {packet' : List UInt8} (hlen : packet'.length = packet.length)
    (hsame : ∀ i, r.stop ≤ i → packet'[i]? = packet[i]?) : SameRecords original packet' r.stop rs := by
  obtain ⟨howner, -, hlt, -, rdlen, -, hstop⟩ := record_at_ok hhead
  refine ⟨hlen.trans h.length_eq, ?_⟩
  intro i hge hnot
  rw [hsame i hge]
  apply h.get_eq i (by omega)
  rintro ⟨r', hr', httl⟩
  rcases mem_cons.mp hr' with rfl | hr'
  · rw [RecordSpan.ttl] at httl
    omega
  · exact hnot ⟨r', hr', httl⟩

/-- A name that can be scanned in the rewritten packet ends where it did. -/
theorem SameRecords.scan_eq {fixed : Nat}
    (hscan : scan_dns_name packet offset packet.length true = .ok fixed) : fixed = r.fixed := by
  obtain ⟨-, hscan', -, -, rdlen, -, hstop⟩ := record_at_ok hhead
  exact scan_end_eq hscan' hscan
    (fun i hge hlt => h.head hhead htail hge (by omega) (Or.inl (by omega)))

theorem SameRecords.read_kind : read_u16 packet r.fixed = read_u16 original r.fixed := by
  obtain ⟨howner, -, hlt, -, rdlen, -, hstop⟩ := record_at_ok hhead
  exact read_u16_congr
    (fun i hge hlt => h.head hhead htail (by omega) (by omega) (Or.inl (by omega)))

theorem SameRecords.read_rdlen : read_u16 packet (r.fixed + 8) = read_u16 original (r.fixed + 8) := by
  obtain ⟨howner, -, hlt, -, rdlen, -, hstop⟩ := record_at_ok hhead
  exact read_u16_congr
    (fun i hge hlt => h.head hhead htail (by omega) (by omega) (Or.inr (by omega)))

end

omit hhead h in
theorem length_ttl_bytes (ttl : UInt32) : (ttl_bytes ttl).length = 4 := Net.length_be_bytes 4 _

/-- A TTL written into the first record changes neither the rest of it nor the later records. -/
theorem SameRecords.write_ttl (ttl : UInt32) :
    AgreeOff r.ttl (copy_at packet (r.fixed + 4) (ttl_bytes ttl)) packet ∧
      SameRecords original (copy_at packet (r.fixed + 4) (ttl_bytes ttl)) r.stop rs := by
  obtain ⟨-, -, hlt, hstop_le, rdlen, -, hstop⟩ := record_at_ok hhead
  have hlen := length_ttl_bytes ttl
  have hbound : r.fixed + 4 + (ttl_bytes ttl).length ≤ packet.length := by
    rw [hlen, h.length_eq]
    omega
  have hwrite := AgreeOff.copy_at (S := r.ttl) hbound (fun i hge hlt => ⟨hge, by omega⟩)
  refine ⟨hwrite, h.tail hhead hwrite.length_eq (fun i hge => hwrite.get_eq i ?_)⟩
  rw [RecordSpan.ttl]
  omega

end Walk

/-! ## TTLs -/

theorem slice_copy_at {source : List UInt8} (h : offset + source.length ≤ packet.length) :
    slice (copy_at packet offset source) offset (offset + source.length) = source := by
  have hlen : (packet.take offset).length = offset := length_take_of_le (by omega)
  rw [slice, copy_at, append_assoc, drop_left' hlen, Nat.add_sub_cancel_left, take_left]

theorem read_u32_copy_at (packet : List UInt8) (offset : Nat) (h : offset + 4 ≤ packet.length)
    (ttl : UInt32) : read_u32 (copy_at packet offset (ttl_bytes ttl)) offset = .ok ttl := by
  have hslice := @slice_copy_at packet offset (ttl_bytes ttl) h
  rw [length_ttl_bytes] at hslice
  rw [read_u32, Patch.length_copy_at h, if_neg (by omega), hslice, ttl_bytes, Net.ofNat_be_bytes_u32]

theorem lesser_le (a b : UInt32) : lesser a b ≤ b := by
  rw [lesser]
  split_ifs with h
  · exact h
  · exact UInt32.le_refl b

/-- What capping does to the records of a rewritten packet. -/
theorem cap_ttls_ok {limit : UInt32} (hrs : Records original offset rs stop) :
    ∀ {packet out : List UInt8}, SameRecords original packet offset rs →
      cap_ttls limit rs.length offset packet = .ok out →
      AgreeOff (AnyTtl rs) out packet ∧
        ∀ r ∈ rs, ∀ kind, read_u16 original r.fixed = .ok kind → kind ≠ 41 →
          ∃ ttl, read_u32 out (r.fixed + 4) = .ok ttl ∧ ttl ≤ limit := by
  induction hrs with
  | nil offset =>
    intro packet out hsame h
    cases h
    exact ⟨AgreeOff.refl _ _, nofun⟩
  | @cons offset stop r rs hhead htail ih =>
    intro packet out hsame h
    have hr := record_at_ok hhead
    obtain ⟨howner, -, hlt, hstop_le, rdlen, hrd, hstop⟩ := hr
    obtain ⟨fixed, hscan, h⟩ := bind_ok h
    obtain rfl := hsame.scan_eq hhead htail hscan
    obtain ⟨kind, hkind, h⟩ := bind_ok h
    obtain ⟨rdlen', hrd', h⟩ := bind_ok h
    rw [hsame.read_rdlen hhead htail, hrd] at hrd'
    obtain rfl := Except.ok.inj hrd'
    rw [hsame.read_kind hhead htail] at hkind
    rw [← hstop, if_neg (by rw [hsame.length_eq]; omega)] at h
    by_cases hopt : kind ≠ 41
    · rw [if_pos hopt] at h
      obtain ⟨ttl, -, h⟩ := bind_ok h
      obtain ⟨hwrite, hnext⟩ := hsame.write_ttl hhead (lesser ttl limit)
      obtain ⟨hagree, httls⟩ := ih hnext h
      refine ⟨(hagree.mono fun i => AnyTtl.cons).trans
        (hwrite.mono fun i hi => ⟨r, mem_cons_self, hi⟩), ?_⟩
      intro r' hr' kind' hkind' hne
      rcases mem_cons.mp hr' with rfl | hr'
      · -- no later record touches this TTL
        refine ⟨lesser ttl limit, ?_, lesser_le ttl limit⟩
        rw [← read_u32_copy_at packet (r'.fixed + 4) (by rw [hsame.length_eq]; omega)]
        apply read_u32_congr
        intro i hge hlt
        apply hagree.get_eq
        intro hany
        have := htail.ttl_ge hany
        omega
      · exact httls r' hr' kind' hkind' hne
    · rw [if_neg hopt] at h
      have hnext := hsame.tail hhead rfl (fun i _ => rfl)
      obtain ⟨hagree, httls⟩ := ih hnext h
      refine ⟨hagree.mono fun i => AnyTtl.cons, ?_⟩
      intro r' hr' kind' hkind' hne
      rcases mem_cons.mp hr' with rfl | hr'
      · rw [hkind] at hkind'
        obtain rfl := Except.ok.inj hkind'
        exact absurd hne hopt
      · exact httls r' hr' kind' hkind' hne

/-- Zeroing the TTLs of the first records changes nothing but TTLs. -/
theorem zero_answer_ttls_ok (hrs : Records original offset rs stop) :
    ∀ {count : Nat} {packet out : List UInt8}, count ≤ rs.length →
      SameRecords original packet offset rs → zero_answer_ttls count offset packet = .ok out →
      AgreeOff (AnyTtl rs) out packet := by
  induction hrs with
  | nil offset =>
    intro count packet out hcount hsame h
    obtain rfl := Nat.le_zero.mp hcount
    cases h
    exact AgreeOff.refl _ _
  | @cons offset stop r rs hhead htail ih =>
    intro count packet out hcount hsame h
    cases count with
    | zero =>
      cases h
      exact AgreeOff.refl _ _
    | succ count =>
      obtain ⟨howner, -, hlt, hstop_le, rdlen, hrd, hstop⟩ := record_at_ok hhead
      obtain ⟨fixed, hscan, h⟩ := bind_ok h
      obtain rfl := hsame.scan_eq hhead htail hscan
      obtain ⟨hwrite, hnext⟩ := hsame.write_ttl hhead 0
      rw [if_neg (by rw [hsame.length_eq]; omega)] at h
      obtain ⟨rdlen', hrd', h⟩ := bind_ok h
      rw [read_u16_congr (fun i hge _ => hwrite.get_eq i (by rw [RecordSpan.ttl]; omega)),
        hsame.read_rdlen hhead htail, hrd] at hrd'
      obtain rfl := Except.ok.inj hrd'
      rw [← hstop, if_neg (by rw [hwrite.length_eq, hsame.length_eq]; omega)] at h
      rw [length_cons, Nat.add_le_add_iff_right] at hcount
      exact ((ih hcount hnext h).mono fun i => AnyTtl.cons).trans
        (hwrite.mono fun i hi => ⟨r, mem_cons_self, hi⟩)

/-! ## The records of a response that is cached -/

variable {terminal : String}

theorem section_record_ok {qclass : UInt16} {s s' : SectionState} {part : Nat}
    (h : section_record packet terminal qclass s part = .ok s') :
    ∃ r, record_at packet s.offset = .ok r ∧ s'.offset = r.stop := by
  obtain ⟨fixed, hscan, h⟩ := bind_ok h
  obtain ⟨kind, -, h⟩ := bind_ok h
  obtain ⟨cls, -, h⟩ := bind_ok h
  obtain ⟨ttl, -, h⟩ := bind_ok h
  obtain ⟨rdlen, hrd, h⟩ := bind_ok h
  by_cases hlt : packet.length < fixed + 10 + rdlen.toNat
  · rw [if_pos hlt] at h
    cases h
  · rw [if_neg hlt] at h
    refine ⟨⟨s.offset, fixed, fixed + 10 + rdlen.toNat⟩, ?_, ?_⟩
    · rw [record_at, hscan]
      change (read_u16 packet (fixed + 8) >>= _) = _
      rw [hrd]
      change (if packet.length < fixed + 10 + rdlen.toNat then _ else _) = _
      rw [if_neg hlt]
      rfl
    · -- whatever the record says about negative answers, the next one starts after it
      by_cases hsoa : part = 1 ∧ kind = 6 ∧ cls = qclass
      · rw [if_pos hsoa] at h
        obtain ⟨negative_ttl, -, h⟩ := bind_ok h
        rw [← Except.ok.inj h]
      · rw [if_neg hsoa] at h
        rw [← Except.ok.inj h]

theorem section_records_ok {qclass : UInt16} (parts : List Nat) :
    ∀ {s s' : SectionState},
      parts.foldlM (section_record packet terminal qclass) s = .ok s' →
      ∃ rs, Records packet s.offset rs s'.offset ∧ rs.length = parts.length := by
  induction parts with
  | nil =>
    intro s s' h
    cases h
    exact ⟨[], .nil _, rfl⟩
  | cons part parts ih =>
    intro s s' h
    obtain ⟨t, hpart, h⟩ := bind_ok h
    obtain ⟨r, hrec, hoff⟩ := section_record_ok hpart
    obtain ⟨rs, hrs, hlen⟩ := ih h
    rw [hoff] at hrs
    exact ⟨r :: rs, .cons hrec hrs, by rw [length_cons, length_cons, hlen]⟩

def record_count (packet : List UInt8) : Except DnsError Nat := do
  let answers ← read_u16 packet 6
  let authorities ← read_u16 packet 8
  let additionals ← read_u16 packet 10
  pure (answers.toNat + authorities.toNat + additionals.toNat)

theorem section_cache_metadata_ok {response : DnsPacketView} {result : Option UInt32 × Bool}
    (hview : parse packet = .ok response) (h : section_cache_metadata response terminal = .ok result) :
    ∃ rs, Records packet response.answer_offset rs packet.length ∧
      record_count packet = .ok rs.length ∧ response.answer_count.toNat ≤ rs.length := by
  obtain ⟨flags, hpacket, -, -, -, -, han, -⟩ := parse_ok hview
  rw [section_cache_metadata, hpacket] at h
  obtain ⟨authorities, hns, h⟩ := bind_ok h
  obtain ⟨additionals, har, h⟩ := bind_ok h
  cases hq : response.questions.next with
  | none =>
    rw [hq] at h
    cases h
  | some next =>
    rw [hq] at h
    obtain ⟨s, hs, h⟩ := bind_ok h
    obtain ⟨rs, hrs, hlen⟩ := section_records_ok _ hs
    rw [length_append, length_append, length_replicate, length_replicate, length_replicate] at hlen
    by_cases hend : s.offset ≠ packet.length
    · rw [if_pos hend] at h
      cases h
    · rw [not_not.mp hend] at hrs
      refine ⟨rs, hrs, ?_, by omega⟩
      rw [record_count, han, hlen]
      rw [hns]
      rw [har]
      rfl

/-- The octets of a response that a plan may change: its id and its TTLs. -/
def PlanChanges (rs : List RecordSpan) (i : Nat) : Prop := i < 2 ∨ AnyTtl rs i

variable {view : DnsPacketView}

theorem normalized_ok {out : List UInt8} {zero : Bool}
    (hrs : Records packet view.answer_offset rs stop) (hoff : 2 ≤ view.answer_offset)
    (hcount : view.answer_count.toNat ≤ rs.length)
    (h : normalized_packed_response packet view zero = .ok out) :
    AgreeOff (PlanChanges rs) out packet := by
  rw [normalized_packed_response] at h
  by_cases hlen : packet.length < 2
  · rw [if_pos hlen] at h
    cases h
  · rw [if_neg hlen] at h
    have hbound : 0 + [(0 : UInt8), 0].length ≤ packet.length := by
      rw [length_cons, length_singleton]
      omega
    have hid : AgreeOff (PlanChanges rs) (copy_at packet 0 [0, 0]) packet :=
      AgreeOff.copy_at hbound (fun i _ hlt => Or.inl (by rw [length_cons, length_singleton] at hlt; omega))
    cases zero with
    | false =>
      cases h
      exact hid
    | true =>
      have hsame : SameRecords packet (copy_at packet 0 [0, 0]) view.answer_offset rs :=
        ⟨hid.length_eq, fun i hge hnot => hid.get_eq i (fun hch => hch.elim (by omega) hnot)⟩
      exact ((zero_answer_ttls_ok hrs hcount hsame h).mono fun i => Or.inr).trans hid

theorem record_count_congr {packet' : List UInt8} (h : ∀ i, 4 ≤ i → i < 12 → packet'[i]? = packet[i]?) :
    record_count packet' = record_count packet := by
  rw [record_count, record_count,
    read_u16_congr (fun i hge hlt => h i (by omega) (by omega) : ∀ i, 6 ≤ i → i < 6 + 2 → _),
    read_u16_congr (fun i hge hlt => h i (by omega) (by omega) : ∀ i, 8 ≤ i → i < 8 + 2 → _),
    read_u16_congr (fun i hge hlt => h i (by omega) (by omega) : ∀ i, 10 ≤ i → i < 10 + 2 → _)]

theorem cap_dns_response_ttls_eq {count : Nat} (hview : parse packet = .ok view)
    (hcount : record_count packet = .ok count) (limit : UInt32) :
    cap_dns_response_ttls packet limit = cap_ttls limit count view.answer_offset packet := by
  obtain ⟨flags, -, -, -, -, -, han, -⟩ := parse_ok hview
  obtain ⟨answers, han', hcount⟩ := bind_ok hcount
  obtain rfl := Except.ok.inj (han.symm.trans han')
  obtain ⟨authorities, hns, hcount⟩ := bind_ok hcount
  obtain ⟨additionals, har, hcount⟩ := bind_ok hcount
  rw [cap_dns_response_ttls, hview]
  rw [hns]
  rw [har, ← Except.ok.inj hcount]
  rfl

theorem question_at_bounds {question : DnsPacketQuestionView} {next : Nat}
    (h : question_at packet offset = .ok (question, next)) :
    offset + 4 < next ∧ next ≤ packet.length := by
  obtain ⟨stop, hscan, -, hclass, -, rfl⟩ := question_at_ok h
  have hlt := scan_lt_end hscan
  have hbound := read_u16_bound hclass
  omega

/-- What a plan is made of. -/
structure Planned (packet : List UInt8) (plan : DnsResponseCachePlan) (view : DnsPacketView)
    (flags : UInt16) (question : DnsPacketQuestionView) (labels : List (List UInt8))
    (rs : List RecordSpan) : Prop where
  view_eq : DnsPacketView.parse packet = .ok view
  one_question : view.question_count.toNat = 1
  flags_eq : read_u16 packet 2 = .ok flags
  is_response : flags &&& 0x8000 ≠ 0
  question_eq : question_at packet 12 = .ok (question, view.answer_offset)
  valid : ValidLabels labels
  short : wire_len labels ≤ 255
  wire_eq : question.qname_wire = body labels ++ [0]
  key_eq : plan.key = ⟨name_text labels, question.qtype, question.qclass⟩
  records : Records packet view.answer_offset rs packet.length
  count_eq : record_count packet = .ok rs.length
  packed : AgreeOff (PlanChanges rs) plan.entry.packed_response packet

section Build

variable {question : DnsPacketQuestionView} {labels : List (List UInt8)}
  {plan : DnsResponseCachePlan}

theorem key_new (hv : ValidLabels labels) (hle : wire_len labels ≤ 255) (qtype qclass : UInt16) :
    DnsCacheKey.new (name_text labels) qtype qclass = ⟨name_text labels, qtype, qclass⟩ := by
  rw [DnsCacheKey.new, canonical_name_lowercase_name_text hv hle]

variable {fixed : Option Int} {now_unix : Int}

section

variable {qname : String} (hq : question_at packet 12 = .ok (question, view.answer_offset))
  (hrs : Records packet view.answer_offset rs packet.length)
  (hle : view.answer_count.toNat ≤ rs.length)

include hq hrs hle

theorem negative_plan_ok {min_ttl : UInt32}
    (hview : parse packet = .ok view) (hone : view.question_count.toNat = 1)
    (hcount : record_count packet = .ok rs.length)
    (h : build_negative_response_cache_plan now_unix packet view qname min_ttl fixed
      = .ok (some plan)) :
    plan.key = DnsCacheKey.new qname question.qtype question.qclass ∧
      AgreeOff (PlanChanges rs) plan.entry.packed_response packet := by
  obtain ⟨hoff, hend⟩ := question_at_bounds hq
  obtain ⟨normal, hnormal, h⟩ := bind_ok h
  obtain ⟨packed, hcap, h⟩ := bind_ok h
  have hagree := normalized_ok hrs (by omega) hle hnormal
  -- the header, the question and the records of the normalized packet are the original's
  have hhead : ∀ i, 2 ≤ i → i < view.answer_offset → normal[i]? = packet[i]? := by
    intro i hge hlt
    apply hagree.get_eq
    rintro (hlow | ⟨r, hr, httl⟩)
    · omega
    · have := hrs.mem_bounds r hr
      rw [RecordSpan.ttl] at httl
      omega
  have hsame : SameRecords packet normal view.answer_offset rs :=
    ⟨hagree.length_eq, fun i hge hnot => hagree.get_eq i (fun hch => hch.elim (by omega) hnot)⟩
  obtain ⟨flags, -, -, -, -, hqd, -, -⟩ := parse_ok hview
  have hqd' : read_u16 normal 4 = .ok 1 := by
    rw [read_u16_congr (fun i hge hlt => hhead i (by omega) (by omega)), hqd]
    exact congrArg _ (UInt16.toNat_inj.mp hone)
  obtain ⟨view', hview', -, hoff'⟩ := parse_of_question (by rw [hagree.length_eq]; omega) hqd'
    (question_at_frame hq (fun i hge hlt => hhead i (by omega) hlt))
  have hcount' : record_count normal = .ok rs.length := by
    rw [record_count_congr (fun i hge hlt => hhead i (by omega) (by omega)), hcount]
  rw [cap_dns_response_ttls_eq hview' hcount', hoff'] at hcap
  obtain ⟨hcapped, -⟩ := cap_ttls_ok hrs hsame hcap
  obtain ⟨question', hq', hnext⟩ := question_of_view hview hone
  obtain ⟨rfl, -⟩ := Prod.mk.inj (Except.ok.inj (hq.symm.trans hq'))
  rw [hnext] at h
  obtain rfl := Option.some.inj (Except.ok.inj h)
  exact ⟨rfl, (hcapped.mono fun i => Or.inr).trans hagree⟩

theorem positive_plan_ok {answers : List DnsPacketAnswerView}
    (h : build_positive_response_cache_plan now_unix packet view question qname answers fixed
      = .ok (some plan)) :
    plan.key = DnsCacheKey.new qname question.qtype question.qclass ∧
      AgreeOff (PlanChanges rs) plan.entry.packed_response packet := by
  obtain ⟨hoff, -⟩ := question_at_bounds hq
  rw [build_positive_response_cache_plan] at h
  cases hmin : min_answer_ttl answers with
  | none =>
    rw [hmin] at h
    cases h
  | some min_ttl =>
    rw [hmin] at h
    obtain ⟨packed, hnormal, h⟩ := bind_ok h
    obtain rfl := Option.some.inj (Except.ok.inj h)
    exact ⟨rfl, normalized_ok hrs (by omega) hle hnormal⟩

end

theorem plan_for_question_ok {flags : UInt16}
    (hview : parse packet = .ok view) (hone : view.question_count.toNat = 1)
    (hq : question_at packet 12 = .ok (question, view.answer_offset)) (hv : ValidLabels labels)
    (hle : wire_len labels ≤ 255) (hwire : question.qname_wire = body labels ++ [0])
    (h : build_plan_for_question now_unix packet flags view question fixed = .ok (some plan)) :
    ∃ rs, Records packet view.answer_offset rs packet.length ∧
      record_count packet = .ok rs.length ∧
      plan.key = ⟨name_text labels, question.qtype, question.qclass⟩ ∧
      AgreeOff (PlanChanges rs) plan.entry.packed_response packet := by
  rw [build_plan_for_question, hwire, canonical_wire_name_body hv hle] at h
  obtain ⟨qname, hqname, h⟩ := bind_ok h
  cases hqname
  by_cases hip : (Net.IpAddr.from_str (Text.trim_end_matches '.' (name_text labels))).isOk = true
  · rw [if_pos hip] at h
    cases h
  rw [if_neg hip] at h
  obtain ⟨answers, -, h⟩ := bind_ok h
  obtain ⟨terminal, -, h⟩ := bind_ok h
  cases terminal with
  | none => cases h
  | some terminal =>
    obtain ⟨⟨negative_ttl, extended_error⟩, hmeta, h⟩ := bind_ok h
    obtain ⟨rs, hrs, hcount, han⟩ := section_cache_metadata_ok hview hmeta
    refine ⟨rs, hrs, hcount, ?_⟩
    rw [← key_new hv hle]
    dsimp only at h
    by_cases hext : extended_error = true
    · rw [if_pos hext] at h
      cases h
    rw [if_neg hext] at h
    split at h
    · -- a negative answer is kept only with a TTL of its zone and without addresses
      split at h
      · cases h
      cases negative_ttl with
      | none => cases h
      | some ttl =>
        dsimp only at h
        split at h
        · cases h
        · exact negative_plan_ok hq hrs han hview hone hcount h
    · exact positive_plan_ok hq hrs han h

end Build

/-- A plan is made of a response with one question and records up to its end, under the
canonical name of the question. -/
theorem planned_of_build {now_unix : Int} {fixed : Option Int} {plan : DnsResponseCachePlan}
    (h : build_response_cache_plan_from_packet now_unix packet fixed = .ok (some plan)) :
    ∃ view flags question labels rs, Planned packet plan view flags question labels rs := by
  obtain ⟨flags, hflags, h⟩ := bind_ok h
  by_cases hskip : flags &&& 0x8000 = 0 ∨ flags &&& 0x0200 ≠ 0 ∨
      ¬(flags &&& 0x000f = 0 ∨ flags &&& 0x000f = 3)
  · rw [if_pos hskip] at h
    cases h
  rw [if_neg hskip] at h
  obtain ⟨view, hview, h⟩ := bind_ok h
  by_cases hone : view.question_count.toNat ≠ 1
  · rw [if_pos hone] at h
    cases h
  rw [if_neg hone] at h
  have hone := not_not.mp hone
  obtain ⟨question, hq, hnext⟩ := question_of_view hview hone
  rw [hnext] at h
  obtain ⟨stop, hscan, -, -, hwire, -⟩ := question_at_ok hq
  obtain ⟨labels, -, hv, hle, hslice⟩ := scan_uncompressed hscan
  rw [hslice] at hwire
  obtain ⟨rs, hrs, hcount, hkey, hpacked⟩ := plan_for_question_ok hview hone hq hv hle hwire h
  exact ⟨view, flags, question, labels, rs,
    { view_eq := hview
      one_question := hone
      flags_eq := hflags
      is_response := fun hzero => hskip (Or.inl hzero)
      question_eq := hq
      valid := hv
      short := hle
      wire_eq := hwire
      key_eq := hkey
      records := hrs
      count_eq := hcount
      packed := hpacked }⟩

end DaeNext.Dns
