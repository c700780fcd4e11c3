/-
The records of a DNS packet, and what reading them depends on.

A record is an owner name, type, class, TTL and data; `record_at` gives where its parts are.
Two facts carry the proofs about packets that are rewritten in place. Where a name ends is
decided by the octets in place, before its first pointer. And a scan reads few positions; a
packet that is the same there gives the same scan.
-/
import DaeNext.DnsPacketView
import DaeNext.LibPatch

set_option autoImplicit false

namespace DaeNext.Dns

open Patch List DnsPacketView

/-! ## Fields of packets that agree -/

variable {a b : List UInt8}

theorem slice_congr {start stop : Nat} (h : ∀ i, start ≤ i → i < stop → a[i]? = b[i]?) :
    slice a start stop = slice b start stop := by
  apply ext_getElem?
  intro j
  rw [slice, slice, getElem?_take, getElem?_take]
  split_ifs with hj
  · rw [getElem?_drop, getElem?_drop]
    exact h _ (by omega) (by omega)
  · rfl

variable {offset : Nat}

theorem length_lt_congr {n : Nat} (h : a[offset + n]? = b[offset + n]?) :
    a.length < offset + (n + 1) ↔ b.length < offset + (n + 1) := by
  have ha : a.length < offset + (n + 1) ↔ a[offset + n]? = none := by
    rw [List.getElem?_eq_none_iff]
    omega
  have hb : b.length < offset + (n + 1) ↔ b[offset + n]? = none := by
    rw [List.getElem?_eq_none_iff]
    omega
  rw [ha, hb, h]

theorem read_u16_congr (h : ∀ i, offset ≤ i → i < offset + 2 → a[i]? = b[i]?) :
    read_u16 a offset = read_u16 b offset := by
  rw [read_u16, read_u16, slice_congr h]
  have hlen := length_lt_congr (h (offset + 1) (by omega) (by omega))
  by_cases hlt : a.length < offset + 2
  · rw [if_pos hlt, if_pos (hlen.mp hlt)]
  · rw [if_neg hlt, if_neg (fun hb => hlt (hlen.mpr hb))]

theorem read_u32_congr (h : ∀ i, offset ≤ i → i < offset + 4 → a[i]? = b[i]?) :
    read_u32 a offset = read_u32 b offset := by
  rw [read_u32, read_u32, slice_congr h]
  have hlen := length_lt_congr (h (offset + 3) (by omega) (by omega))
  by_cases hlt : a.length < offset + 4
  · rw [if_pos hlt, if_pos (hlen.mp hlt)]
  · rw [if_neg hlt, if_neg (fun hb => hlt (hlen.mpr hb))]

variable {packet : List UInt8}

theorem read_u16_bound {value : UInt16} (h : read_u16 packet offset = .ok value) :
    offset + 2 ≤ packet.length := by
  rw [read_u16] at h
  by_contra hlt
  rw [if_pos (by omega)] at h
  cases h

theorem read_u16_ok (packet : List UInt8) (offset : Nat) (h : offset + 2 ≤ packet.length) :
    ∃ value, read_u16 packet offset = .ok value := by
  rw [read_u16, if_neg (by omega)]
  exact ⟨_, rfl⟩

theorem read_u32_ok (packet : List UInt8) (offset : Nat) (h : offset + 4 ≤ packet.length) :
    ∃ value, read_u32 packet offset = .ok value := by
  rw [read_u32, if_neg (by omega)]
  exact ⟨_, rfl⟩

/-! ## Where a name ends -/

variable {scope_end e : Nat}

section Reads

variable {packet' : List UInt8} {compressed compressed' : Bool} {scope_end' jumps jumps' e' : Nat}
  {labels labels' : List (List UInt8)}

theorem Reads.lt_end (h : Reads packet compressed offset scope_end jumps labels e) : offset < e := by
  induction h with
  | root | label hget htop hlen hpacket hscope rest ih | pointer => omega

/-- The octets in place, up to the first pointer, decide where a name ends. -/
theorem Reads.end_eq (h : Reads packet compressed offset scope_end jumps labels e)
    (h' : Reads packet' compressed' offset scope_end' jumps' labels' e')
    (hagree : ∀ i, offset ≤ i → i < e → packet'[i]? = packet[i]?) : e' = e := by
  induction h generalizing labels' e' with
  | root hget hscope =>
    have hfirst := hagree _ le_rfl (by omega)
    cases h' with
    | root => rfl
    | label hget' htop hlen =>
      rw [hget', hget] at hfirst
      exact absurd (Option.some.inj hfirst) hlen
    | pointer hget' hptr =>
      rw [hget', hget] at hfirst
      rw [Option.some.inj hfirst] at hptr
      exact absurd hptr (by decide)
  | label hget htop hlen hpacket hscope rest ih =>
    have hfirst := hagree _ le_rfl (by have := rest.lt_end; omega)
    cases h' with
    | root hget' =>
      rw [hget', hget] at hfirst
      exact absurd (Option.some.inj hfirst).symm hlen
    | label hget' htop' hlen' hpacket' hscope' rest' =>
      rw [hget', hget] at hfirst
      cases hfirst
      exact ih rest' (fun i hi hlt => hagree i (by omega) hlt)
    | pointer hget' hptr =>
      rw [hget', hget] at hfirst
      rw [Option.some.inj hfirst, htop] at hptr
      exact absurd hptr (by decide)
  | pointer hget hptr hcomp hsecond hscope hjumps target ih =>
    have hfirst := hagree _ le_rfl (by omega)
    cases h' with
    | root hget' =>
      rw [hget', hget] at hfirst
      rw [← Option.some.inj hfirst] at hptr
      exact absurd hptr (by decide)
    | label hget' htop hlen =>
      rw [hget', hget] at hfirst
      rw [← Option.some.inj hfirst, htop] at hptr
      exact absurd hptr (by decide)
    | pointer => rfl

/-- A name without pointers is read from the octets in place alone. -/
theorem Reads.frame (h : Reads packet false offset scope_end jumps labels e)
    (hagree : ∀ i, offset ≤ i → i < e → packet'[i]? = packet[i]?) (hscope' : e ≤ scope_end')
    (hlen' : e ≤ packet'.length) : Reads packet' false offset scope_end' jumps labels e := by
  induction h with
  | root hget hscope =>
    refine .root ?_ hscope'
    rw [hagree _ le_rfl (by omega), hget]
  | @label offset scope jumps e len labels hget htop hlen hpacket hscope rest ih =>
    have hlt := rest.lt_end
    rw [slice_congr fun i hi hlt => (hagree i (by omega) (by omega)).symm]
    exact .label ((hagree _ le_rfl (by omega)).trans hget) htop hlen (by omega) (by omega)
      (ih (fun i hi hlt => hagree i (by omega) hlt) hscope' hlen')
  | pointer hget hptr hcomp => cases hcomp

end Reads

variable {compressed : Bool}

theorem scan_lt_end (h : scan_dns_name packet offset scope_end compressed = .ok e) :
    offset < e := by
  obtain ⟨labels, hreads, -⟩ := scan_dns_name_ok_iff.mp h
  exact hreads.lt_end

variable {packet' : List UInt8}

/-- Two scans that both succeed end at one place when the octets there agree. -/
theorem scan_end_eq {scope_end' e' : Nat}
    (h : scan_dns_name packet offset scope_end compressed = .ok e)
    (h' : scan_dns_name packet' offset scope_end' compressed = .ok e')
    (hagree : ∀ i, offset ≤ i → i < e → packet'[i]? = packet[i]?) : e' = e := by
  obtain ⟨labels, hreads, -⟩ := scan_dns_name_ok_iff.mp h
  obtain ⟨labels', hreads', -⟩ := scan_dns_name_ok_iff.mp h'
  exact hreads.end_eq hreads' hagree

theorem scan_uncompressed_frame (h : scan_uncompressed_name packet offset = .ok e)
    (hagree : ∀ i, offset ≤ i → i < e → packet'[i]? = packet[i]?) :
    scan_uncompressed_name packet' offset = .ok e := by
  obtain ⟨labels, hreads, hle⟩ := scan_dns_name_ok_iff.mp h
  have hlt := hreads.lt_end
  obtain ⟨hdrop, he⟩ := hreads.drop_eq rfl
  -- the last octet of the name is the root label
  have hlast : e - 1 < packet'.length := by
    have hget := hagree (e - 1) (by omega) (by omega)
    have hin : e - 1 < packet.length := by
      have hlen := congrArg List.length hdrop
      rw [length_drop, length_append, length_cons] at hlen
      have := body_length labels
      omega
    rw [getElem?_eq_getElem hin] at hget
    exact (List.getElem?_eq_some_iff.mp hget).1
  exact scan_dns_name_ok_iff.mpr ⟨labels, hreads.frame hagree (by omega) (by omega), hle⟩

/-! ## Packets with one question -/

theorem question_at_frame {next : Nat} {question : DnsPacketQuestionView}
    (h : question_at packet offset = .ok (question, next))
    (hagree : ∀ i, offset ≤ i → i < next → packet'[i]? = packet[i]?) :
    question_at packet' offset = .ok (question, next) := by
  obtain ⟨stop, hscan, htype, hclass, hwire, rfl⟩ := question_at_ok h
  have hlt := scan_lt_end hscan
  have htype' : read_u16 packet' stop = .ok question.qtype := by
    rw [← htype]
    exact read_u16_congr (fun i hge hlt => hagree i (by omega) (by omega))
  have hclass' : read_u16 packet' (stop + 2) = .ok question.qclass := by
    rw [← hclass]
    exact read_u16_congr (fun i hge hlt => hagree i (by omega) (by omega))
  have hwire' : question.qname_wire = slice packet' offset stop := by
    rw [hwire]
    exact (slice_congr (fun i hge hlt => hagree i hge (by omega))).symm
  rw [question_at, scan_uncompressed_frame hscan (fun i hge hlt => hagree i hge (by omega))]
  change (read_u16 packet' stop >>= _) = _
  rw [htype']
  rw [hclass', ← hwire']
  rfl

/-- The one question of a packet ends where its records start. -/
theorem question_of_view {view : DnsPacketView} (h : parse packet = .ok view)
    (hone : view.question_count.toNat = 1) :
    ∃ question, question_at packet 12 = .ok (question, view.answer_offset) ∧
      view.questions.next = some (question, ⟨packet, view.answer_offset, 0⟩) := by
  obtain ⟨flags, hpacket, -, -, -, -, -, hval⟩ := parse_ok h
  rw [hone] at hval
  obtain ⟨question, next, hq, hval⟩ := validate_question_section_succ hval
  cases hval
  refine ⟨question, hq, ?_⟩
  rw [questions, hpacket, hone]
  exact DnsPacketQuestionIter.next_of_ok hq

/-- A packet with a header that counts one question, and that question, can be viewed. -/
theorem parse_of_question {question : DnsPacketQuestionView} {next : Nat}
    (hlen : 12 ≤ packet.length) (hqd : read_u16 packet 4 = .ok 1)
    (hq : question_at packet 12 = .ok (question, next)) :
    ∃ view, parse packet = .ok view ∧ view.question_count = 1 ∧ view.answer_offset = next := by
  obtain ⟨stop, hscan, htype, hclass, -, rfl⟩ := question_at_ok hq
  obtain ⟨id, hid⟩ := read_u16_ok packet 0 (by omega)
  obtain ⟨flags, hflags⟩ := read_u16_ok packet 2 (by omega)
  obtain ⟨an, han⟩ := read_u16_ok packet 6 (by omega)
  have hval : validate_question_section packet 1 12 = .ok (stop + 4) := by
    rw [validate_question_section, hscan]
    change (read_u16 packet stop >>= _) = _
    rw [htype]
    rw [hclass]
    rfl
  refine ⟨⟨packet, id, flags &&& 0x8000 != 0, 1, an, stop + 4⟩, ?_, rfl, rfl⟩
  rw [parse, if_neg (by omega), hqd]
  change (validate_question_section packet 1 12 >>= _) = _
  rw [hval]
  rw [hid]
  rw [hflags]
  rw [han]
  rfl

/-! ## What a scan reads -/

/-- The positions read in one state of the scan: the length octet, and the second octet of a
pointer. -/
def scan_reads (packet : List UInt8) (s : ScanState) : List Nat :=
  match packet[s.offset]? with
  | some len => if len &&& 0xc0 = 0xc0 then [s.offset, s.offset + 1] else [s.offset]
  | none => [s.offset]

/-- The positions read by the scan of the name at `offset`. -/
def name_positions (packet : List UInt8) (offset : Nat) : List Nat :=
  ((scan_loop packet true).visited (scan_start packet offset packet.length)).flatMap
    (scan_reads packet)

theorem scan_step_congr {s : ScanState} (hlen : packet'.length = packet.length)
    (h : ∀ i ∈ scan_reads packet s, packet'[i]? = packet[i]?) :
    scan_step packet' compressed s = scan_step packet compressed s := by
  have hfollow : ∀ target, s.follow packet' target = s.follow packet target := by
    intro target
    rw [ScanState.follow, ScanState.follow, hlen]
  rw [scan_reads] at h
  rw [scan_step, scan_step, hlen]
  cases hget : packet[s.offset]? with
  | none =>
    rw [hget] at h
    rw [h s.offset mem_cons_self, hget]
  | some len =>
    rw [hget] at h
    dsimp only at h
    by_cases hptr : len &&& 0xc0 = 0xc0
    · rw [if_pos hptr] at h
      have hsecond := h (s.offset + 1) (mem_cons_of_mem _ mem_cons_self)
      rw [h s.offset mem_cons_self, hget]
      dsimp only
      rw [if_pos hptr, if_pos hptr, hsecond]
      simp only [hfollow]
    · rw [if_neg hptr] at h
      rw [h s.offset mem_cons_self, hget]
      dsimp only
      rw [if_neg hptr, if_neg hptr]

/-- A packet that is the same at the positions a scan reads gives the same scan. -/
theorem scan_frame (hlen : packet'.length = packet.length)
    (h : ∀ i ∈ name_positions packet offset, packet'[i]? = packet[i]?) :
    scan_dns_name packet' offset packet'.length true
      = scan_dns_name packet offset packet.length true := by
  have hstart : scan_start packet' offset packet'.length = scan_start packet offset packet.length := by
    rw [scan_start, scan_start, hlen]
  rw [scan_dns_name, scan_dns_name, hstart]
  apply Loop.run_congr
  intro t ht
  apply scan_step_congr hlen
  intro i hi
  exact h i (mem_flatMap.mpr ⟨t, ht, hi⟩)

/-! ## Records -/

/-- Where the parts of a record are: its owner name from `owner` on, its type, class, TTL and
data length from `fixed` on, and its data after those, up to `stop`. -/
structure RecordSpan where
  owner : Nat
  fixed : Nat
  stop : Nat
  deriving DecidableEq, Repr

/-- The TTL octets of a record. -/
def RecordSpan.ttl (r : RecordSpan) (i : Nat) : Prop := r.fixed + 4 ≤ i ∧ i < r.fixed + 8

def record_at (packet : List UInt8) (offset : Nat) : Except DnsError RecordSpan := do
  let fixed ← scan_dns_name packet offset packet.length true
  let rdlen ← read_u16 packet (fixed + 8)
  let stop := fixed + 10 + rdlen.toNat
  if packet.length < stop then throw .UnexpectedEof
  pure ⟨offset, fixed, stop⟩

/-- From `offset` on there are these records one after the other, up to `stop`. -/
inductive Records (packet : List UInt8) : Nat → List RecordSpan → Nat → Prop where
  | nil (offset : Nat) : Records packet offset [] offset
  | cons {offset stop : Nat} {r : RecordSpan} {rs : List RecordSpan}
      (head : record_at packet offset = .ok r) (tail : Records packet r.stop rs stop) :
      Records packet offset (r :: rs) stop

theorem record_at_ok {r : RecordSpan} (h : record_at packet offset = .ok r) :
    r.owner = offset ∧ scan_dns_name packet offset packet.length true = .ok r.fixed ∧
      offset < r.fixed ∧ r.stop ≤ packet.length ∧
      ∃ rdlen, read_u16 packet (r.fixed + 8) = .ok rdlen ∧ r.stop = r.fixed + 10 + rdlen.toNat := by
  obtain ⟨fixed, hscan, h⟩ := Fallible.bind_ok h
  obtain ⟨rdlen, hrd, h⟩ := Fallible.bind_ok h
  by_cases hlt : packet.length < fixed + 10 + rdlen.toNat
  · rw [if_pos hlt] at h
    cases h
  · rw [if_neg hlt] at h
    cases h
    exact ⟨rfl, hscan, scan_lt_end hscan, Nat.le_of_not_lt hlt, rdlen, hrd, rfl⟩

namespace Records

variable {stop : Nat} {rs : List RecordSpan}

theorem mem_bounds (h : Records packet offset rs stop) :
    ∀ r ∈ rs, offset ≤ r.owner ∧ r.owner < r.fixed ∧ r.fixed + 10 ≤ r.stop ∧ r.stop ≤ packet.length := by
  induction h with
  | nil => intro r hr; cases hr
  | cons head tail ih =>
    obtain ⟨howner, -, hlt, hlen, rdlen, -, hstop⟩ := record_at_ok head
    intro r hr
    rcases mem_cons.mp hr with rfl | hr
    · omega
    · have := ih r hr
      omega

theorem ttl_ge {r : RecordSpan} (h : Records packet r.stop rs stop) {i : Nat}
    (hi : ∃ r' ∈ rs, r'.ttl i) : r.stop ≤ i := by
  obtain ⟨r', hr', httl⟩ := hi
  have := h.mem_bounds r' hr'
  rw [RecordSpan.ttl] at httl
  omega

end Records

end DaeNext.Dns
