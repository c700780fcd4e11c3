/-
Names between wire and text: what `encode_dns_name_into` writes, and the round trip
through the canonical text.

`Encoding labels cur s` says that the encoder's buffer holds the finished labels and
the octets of the current one, with the current length octet and everything after
still zero. One lemma for each kind of turn keeps it; what the encoder accepts and
what it makes of a canonical text both follow from those lemmas.
-/
import DaeNext.DnsNameText

set_option autoImplicit false

namespace DaeNext.Dns

open List
open Text (byte_to_ascii_lowercase forall_byte)

/-! ## What the buffer holds -/

theorem set_at {α : Type} (pre post : List α) (x y : α) :
    (pre ++ x :: post).set pre.length y = pre ++ y :: post := by
  rw [set_append_right _ _ le_rfl, Nat.sub_self, set_cons_zero]

/-- The buffer of the encoder in a turn of its loop. -/
structure Encoding (labels : List (List UInt8)) (cur : List UInt8) (s : EncodeState) : Prop where
  valid : ValidLabels labels
  cur_le : cur.length ≤ 63
  start_eq : s.label_start = (body labels).length
  length_eq : s.length = (body labels).length + 1 + cur.length
  fits : s.length ≤ 254 ∨ (cur = [] ∧ s.length = 255)
  buffer : s.wire = body labels ++ 0 :: (cur ++ List.replicate (255 - s.length) 0)

namespace Encoding

variable {labels : List (List UInt8)} {cur : List UInt8} {s : EncodeState}

theorem start (input : List UInt8) :
    Encoding [] [] { wire := List.replicate 255 0, length := 1, label_start := 0, rest := input } :=
  ⟨nofun, Nat.zero_le _, rfl, rfl, .inl (Nat.le_of_ble_eq_true rfl), rfl⟩

variable (h : Encoding labels cur s)

include h

/-- The label that ends is not empty: its length octet goes to its place in front of it. -/
theorem close_label :
    s.wire.set s.label_start (UInt8.ofNat (s.length - s.label_start - 1))
      = body (labels ++ [cur]) ++ List.replicate (255 - s.length) 0 := by
  have hlen : s.length - s.label_start - 1 = cur.length := by
    rw [h.length_eq, h.start_eq]
    omega
  rw [hlen, h.buffer, h.start_eq, set_at, body_append, body_cons, body_nil, append_nil,
    append_assoc, cons_append]

theorem close_length : (body (labels ++ [cur])).length = s.length := by
  rw [body_append, body_cons, body_nil, append_nil, length_append, length_cons, h.length_eq]
  omega

theorem length_le (hcur : cur ≠ []) : s.length ≤ 254 := by
  rcases h.fits with hfits | ⟨hnil, -⟩
  · exact hfits
  · exact absurd hnil hcur

theorem close_valid (hcur : cur ≠ []) : ValidLabels (labels ++ [cur]) := by
  intro label hmem
  rcases mem_append.mp hmem with hmem | hmem
  · exact h.valid label hmem
  · rw [mem_singleton.mp hmem]
    exact ⟨length_pos_iff.mpr hcur, h.cur_le⟩

theorem step_end (hrest : s.rest = []) : encode_step s = .inr (.ok (body (labels ++ [cur]) ++ [0])) := by
  rw [encode_step, hrest]
  dsimp only
  rw [h.close_label, take_append_of_le_length (Nat.le_of_eq h.close_length.symm),
    ← h.close_length, take_length]

variable {rest : List UInt8}

omit h in
theorem step_dot_error (h : Encoding labels [] s) (hrest : s.rest = 0x2e :: rest) :
    encode_step s = .inr (.error .InvalidDnsName) := by
  have hlen : s.length - s.label_start - 1 = 0 := by
    rw [h.length_eq, h.start_eq]
    simp
  rw [encode_step, hrest]
  dsimp only
  rw [if_pos rfl, if_pos hlen]

theorem step_dot (hcur : cur ≠ []) (hrest : s.rest = 0x2e :: rest) (hmore : rest ≠ []) :
    ∃ s', encode_step s = .inl s' ∧ Encoding (labels ++ [cur]) [] s' ∧ s'.rest = rest := by
  have hpos : 0 < cur.length := length_pos_iff.mpr hcur
  have hle := h.length_le hcur
  have hlen : s.length - s.label_start - 1 ≠ 0 := by
    rw [h.length_eq, h.start_eq]
    omega
  refine ⟨{ wire := body (labels ++ [cur]) ++ List.replicate (255 - s.length) 0
            length := s.length + 1, label_start := s.length, rest := rest }, ?_, ?_, rfl⟩
  · rw [encode_step, hrest]
    dsimp only
    rw [if_pos rfl, if_neg hlen, if_neg (by omega), if_neg hmore, h.close_label]
  · refine ⟨h.close_valid hcur, Nat.zero_le _, h.close_length.symm, ?_, ?_, ?_⟩
    · rw [h.close_length]
      rfl
    · dsimp only
      by_cases hfull : s.length = 254
      · exact .inr ⟨rfl, by omega⟩
      · exact .inl (by omega)
    · -- the place of the next length octet is still zero
      have hrep : 255 - s.length = (255 - (s.length + 1)) + 1 := by omega
      rw [hrep, replicate_succ, nil_append]

theorem step_last_dot (hcur : cur ≠ []) (hrest : s.rest = [0x2e]) :
    encode_step s = .inr (.ok (body (labels ++ [cur]) ++ [0])) := by
  have hpos : 0 < cur.length := length_pos_iff.mpr hcur
  have hle := h.length_le hcur
  have hlen : s.length - s.label_start - 1 ≠ 0 := by
    rw [h.length_eq, h.start_eq]
    omega
  have hrep : 255 - s.length = (255 - (s.length + 1)) + 1 := by omega
  rw [encode_step, hrest]
  dsimp only
  rw [if_pos rfl, if_neg hlen, if_neg (by omega), if_pos rfl, h.close_label, ← h.close_length,
    take_append, h.close_length, hrep, replicate_succ, take_of_length_le (by
      rw [h.close_length]; omega), Nat.add_sub_cancel_left, take_succ_cons, take_zero]

section

variable {byte b : UInt8} {rest' : List UInt8} (hrest : s.rest = byte :: rest) (hdot : byte ≠ 0x2e)
  (hread : read_octet byte rest = .ok (b, rest'))

include hrest hdot hread

/-- An octet goes to the current label, while label and name have room. -/
theorem step_octet (hroom : s.length < 254) (hcur : cur.length < 63) :
    ∃ s', encode_step s = .inl s' ∧ Encoding labels (cur ++ [b]) s' ∧ s'.rest = rest' := by
  have hstart := h.start_eq
  have hlen := h.length_eq
  refine ⟨{ s with wire := s.wire.set s.length b, length := s.length + 1, rest := rest' }, ?_, ?_,
    rfl⟩
  · rw [encode_step, hrest]
    dsimp only
    rw [if_neg hdot, hread]
    dsimp only
    rw [if_neg (by omega)]
  · refine ⟨h.valid, ?_, hstart, ?_, .inl ?_, ?_⟩
    · rw [length_append, length_singleton]
      omega
    · dsimp only
      rw [length_append, length_singleton]
      omega
    · dsimp only
      omega
    · -- the octet is the first of the zeros behind the current label
      have hrep : 255 - s.length = (255 - (s.length + 1)) + 1 := by omega
      have hpre : (body labels ++ 0 :: cur).length = s.length := by
        rw [length_append, length_cons]
        omega
      rw [h.buffer, hrep, replicate_succ, ← cons_append, ← append_assoc, ← hpre,
        set_at, append_assoc, cons_append, append_assoc, singleton_append]

theorem step_octet_error (hroom : 254 ≤ s.length ∨ 63 ≤ cur.length) :
    encode_step s = .inr (.error .InvalidDnsName) := by
  have hstart := h.start_eq
  have hlen := h.length_eq
  rw [encode_step, hrest]
  dsimp only
  rw [if_neg hdot, hread]
  dsimp only
  rw [if_pos (by omega)]

end

end Encoding

/-! ## What the encoder accepts -/

/-- In every turn the buffer holds labels, and the input ends only inside a label. -/
def EncodeState.Good (s : EncodeState) : Prop :=
  ∃ labels cur, Encoding labels cur s ∧ (s.rest = [] → cur ≠ [])

/-- A turn of the encoder fails, goes on with a good state or gives a name. -/
theorem encode_step_cases {s : EncodeState} (hs : s.Good) :
    (∃ error, encode_step s = .inr (.error error)) ∨ (∃ s', encode_step s = .inl s' ∧ s'.Good) ∨
    ∃ labels, ValidLabels labels ∧ wire_len labels ≤ 255 ∧
      encode_step s = .inr (.ok (body labels ++ [0])) := by
  obtain ⟨labels, cur, h, hend⟩ := hs
  have hclose : cur ≠ [] → wire_len (labels ++ [cur]) ≤ 255 := by
    intro hcur
    rw [← body_length, h.close_length]
    exact Nat.succ_le_succ (h.length_le hcur)
  cases hrest : s.rest with
  | nil =>
    have hcur := hend hrest
    exact .inr (.inr ⟨_, h.close_valid hcur, hclose hcur, h.step_end hrest⟩)
  | cons byte rest =>
    by_cases hdot : byte = 0x2e
    · subst hdot
      by_cases hcur : cur = []
      · subst hcur
        exact .inl ⟨_, h.step_dot_error hrest⟩
      by_cases hmore : rest = []
      · subst hmore
        exact .inr (.inr ⟨_, h.close_valid hcur, hclose hcur, h.step_last_dot hcur hrest⟩)
      · obtain ⟨s', hst, henc, hrest'⟩ := h.step_dot hcur hrest hmore
        exact .inr (.inl ⟨s', hst, _, _, henc, fun hnil => absurd (hrest'.symm.trans hnil) hmore⟩)
    · cases hread : read_octet byte rest with
      | error error =>
        refine .inl ⟨error, ?_⟩
        rw [encode_step, hrest]
        dsimp only
        rw [if_neg hdot, hread]
      | ok octet =>
        by_cases hroom : 254 ≤ s.length ∨ 63 ≤ cur.length
        · exact .inl ⟨_, h.step_octet_error hrest hdot hread hroom⟩
        · obtain ⟨s', hst, henc, -⟩ :=
            h.step_octet hrest hdot hread (by omega) (by omega)
          exact .inr (.inl ⟨s', hst, _, _, henc, fun _ => by simp⟩)

/-- What the encoder gives is the wire form of valid labels, of at most 255 octets. -/
theorem encode_loop_ok {octets : List UInt8} (s : EncodeState) :
    s.Good → encode_loop.run s = .ok octets →
    ∃ labels, ValidLabels labels ∧ wire_len labels ≤ 255 ∧ octets = body labels ++ [0] := by
  induction s using encode_loop.induct with
  | h s ih =>
    intro hs hrun
    rcases encode_step_cases hs with ⟨error, hst⟩ | ⟨s', hst, hs'⟩ | ⟨labels, hv, hle, hst⟩
    · rw [encode_loop.run_inr hst] at hrun
      cases hrun
    · rw [encode_loop.run_inl hst] at hrun
      exact ih s' hst hs' hrun
    · rw [encode_loop.run_inr hst] at hrun
      exact ⟨labels, hv, hle, (Except.ok.inj hrun).symm⟩

variable {labels : List (List UInt8)}

/-- The scanner accepts the wire form of valid labels of at most 255 octets. -/
theorem scan_body (hv : ValidLabels labels) (hle : wire_len labels ≤ 255) :
    scan_dns_name (body labels ++ [0]) 0 (body labels ++ [0]).length false
      = .ok (body labels ++ [0]).length := by
  have hlen : (body labels ++ [0]).length = wire_len labels := by
    rw [length_append, length_singleton, body_length]
  rw [scan_dns_name_ok_iff, hlen]
  refine ⟨labels, ?_, hle⟩
  have hreads : Reads (body labels ++ [0]) false 0 (wire_len labels) 0 labels (0 + wire_len labels) :=
    reads_of_drop_eq hv 0 drop_zero (by omega)
  rwa [Nat.zero_add] at hreads

/-! ## What the encoder makes of a canonical text -/

theorem escape_digits (b : UInt8) :
    [0x30 + b / 100, 0x30 + b / 10 % 10, 0x30 + b % 10].all is_ascii_digit = true ∧
      (0x30 + b / 100 - 0x30).toNat * 100 + (0x30 + b / 10 % 10 - 0x30).toNat * 10
        + (0x30 + b % 10 - 0x30).toNat = b.toNat := by
  revert b
  exact forall_byte (by decide +kernel)

theorem read_octet_escape (byte : UInt8) (rest : List UInt8) :
    ∃ first tail, escape_bytes byte ++ rest = first :: tail ∧ first ≠ 0x2e ∧
      read_octet first tail = .ok (byte_to_ascii_lowercase byte, rest) := by
  rw [escape_bytes]
  generalize byte_to_ascii_lowercase byte = b
  by_cases hlit : literal_byte b = true
  · rw [if_pos hlit]
    rw [literal_byte, decide_eq_true_eq] at hlit
    refine ⟨b, rest, rfl, fun h => hlit.2 (.inl h), ?_⟩
    rw [read_octet.eq_def, if_neg (fun h => hlit.2 (.inr (.inl h)))]
  · rw [if_neg hlit]
    obtain ⟨hall, hvalue⟩ := escape_digits b
    have hfirst : is_ascii_digit (0x30 + b / 100) = true := by
      rw [all_cons, Bool.and_eq_true] at hall
      exact hall.1
    refine ⟨0x5c, (0x30 + b / 100) :: (0x30 + b / 10 % 10) :: (0x30 + b % 10) :: rest, rfl,
      by decide, ?_⟩
    rw [read_octet.eq_def, if_pos rfl]
    dsimp only
    rw [if_pos hfirst, if_neg (by rw [hall]; decide), hvalue, if_pos b.toNat_lt, UInt8.ofNat_toNat]

theorem encode_loop_label {more : List UInt8} (octets : List UInt8) :
    ∀ (cur : List UInt8) (s : EncodeState), Encoding labels cur s →
      s.rest = octets.flatMap escape_bytes ++ more →
      s.length + octets.length ≤ 254 → cur.length + octets.length ≤ 63 →
      ∃ s', encode_loop.run s = encode_loop.run s' ∧
        Encoding labels (cur ++ octets.map byte_to_ascii_lowercase) s' ∧ s'.rest = more := by
  induction octets with
  | nil =>
    intro cur s h hrest _ _
    refine ⟨s, rfl, ?_, hrest⟩
    rwa [map_nil, append_nil]
  | cons byte octets ih =>
    intro cur s h hrest hlen hcur
    rw [length_cons] at hlen hcur
    rw [flatMap_cons, append_assoc] at hrest
    obtain ⟨first, tail, htext, hdot, hread⟩ :=
      read_octet_escape byte (octets.flatMap escape_bytes ++ more)
    obtain ⟨t, hst, ht, htrest⟩ :=
      h.step_octet (hrest.trans htext) hdot hread (by omega) (by omega)
    have htlen : t.length = s.length + 1 := by
      rw [ht.length_eq, h.length_eq, length_append, length_singleton]
      omega
    obtain ⟨s', hrun, hs', hrest'⟩ := ih _ t ht htrest (by omega)
      (by rw [length_append, length_singleton]; omega)
    refine ⟨s', by rw [encode_loop.run_inl hst, hrun], ?_, hrest'⟩
    rwa [append_assoc, singleton_append, ← map_cons] at hs'

def lowercase (labels : List (List UInt8)) : List (List UInt8) :=
  labels.map (List.map byte_to_ascii_lowercase)

theorem wire_len_lowercase (labels : List (List UInt8)) :
    wire_len (lowercase labels) = wire_len labels := by
  rw [wire_len, wire_len, lowercase, map_map]
  congr 3
  funext label
  rw [Function.comp_apply, length_map]

theorem ValidLabels.lowercase (h : ValidLabels labels) : ValidLabels (lowercase labels) := by
  intro label hmem
  obtain ⟨l, hl, rfl⟩ := mem_map.mp hmem
  rw [length_map]
  exact h l hl

/-- The text of labels, read from an empty current label, gives the labels in lower case. -/
theorem encode_loop_labels (labels : List (List UInt8)) : ∀ (before : List (List UInt8)) (s : EncodeState),
    Encoding before [] s → labels ≠ [] → ValidLabels labels → s.rest = labels_bytes labels →
    wire_len before + wire_len labels ≤ 256 →
    encode_loop.run s = .ok (body (before ++ lowercase labels) ++ [0]) := by
  induction labels with
  | nil =>
    intro _ _ _ hne
    exact absurd rfl hne
  | cons label labels ih =>
    intro before s h _ hv hrest hlen
    obtain ⟨⟨h1, h2⟩, hv⟩ := hv.cons
    have hslen := h.length_eq
    have hpos := wire_len_pos labels
    have hbefore := body_length before
    rw [wire_len_cons] at hlen
    rw [length_nil] at hslen
    rw [labels_bytes, flatMap_cons, append_assoc] at hrest
    obtain ⟨t, hrun, ht, htrest⟩ :=
      encode_loop_label label [] s h hrest (by omega) (by rw [length_nil]; omega)
    rw [nil_append] at ht
    have hcur : label.map byte_to_ascii_lowercase ≠ [] := by
      rw [← length_pos_iff, length_map]
      omega
    rw [hrun, lowercase, map_cons]
    cases labels with
    | nil => rw [encode_loop.run_inr (ht.step_last_dot hcur htrest), map_nil]
    | cons label' labels =>
      obtain ⟨u, hst, hu, hurest⟩ := ht.step_dot hcur htrest (by
        simp)
      rw [encode_loop.run_inl hst, ih _ u hu (cons_ne_nil _ _) hv hurest (by
        rw [← body_length, ht.close_length, ht.length_eq, length_map]
        omega), append_assoc, singleton_append]
      rfl

theorem labels_bytes_ne (hnil : labels ≠ []) (hv : ValidLabels labels) :
    ¬(labels_bytes labels = [] ∨ labels_bytes labels = [0x2e]) := by
  cases labels with
  | nil => exact absurd rfl hnil
  | cons label labels =>
    obtain ⟨⟨h1, -⟩, -⟩ := hv.cons
    cases label with
    | nil => exact absurd h1 (by decide)
    | cons byte label =>
      obtain ⟨first, tail, htext, hdot, -⟩ := read_octet_escape byte
        (label.flatMap escape_bytes ++ ([0x2e] ++ labels_bytes labels))
      have hbytes : labels_bytes ((byte :: label) :: labels) = first :: tail := by
        rw [labels_bytes, flatMap_cons, flatMap_cons, append_assoc, append_assoc]
        exact htext
      rw [hbytes]
      rintro (h | h)
      · cases h
      · exact hdot (cons.inj h).1

/-- The round trip from text: the encoder accepts the canonical text of a name and gives the
name in lower case. -/
theorem encode_name_text (hv : ValidLabels labels) (hle : wire_len labels ≤ 255) (out : List UInt8) :
    encode_dns_name_into out (name_text labels) = (.ok (), out ++ (body (lowercase labels) ++ [0])) := by
  by_cases hnil : labels = []
  · subst hnil
    rfl
  · have hbytes : Text.as_bytes (name_text labels) = labels_bytes labels := by
      rw [name_text, if_neg hnil, as_bytes_labels_text]
    have hrun := encode_loop_labels labels [] _ (.start (labels_bytes labels)) hnil hv rfl
      (by rw [wire_len_nil]; omega)
    rw [encode_dns_name_into, hbytes, if_neg (labels_bytes_ne hnil hv), hrun, nil_append]

/-! ## The round trip from the wire -/

/-- Reading a text does not see the case of the labels it was made from. -/
theorem name_text_lowercase (labels : List (List UInt8)) :
    name_text (lowercase labels) = name_text labels := by
  have hescape : ∀ b : UInt8, escape (byte_to_ascii_lowercase b) = escape b := by
    intro b
    rw [escape, escape, Text.byte_to_ascii_lowercase_idem]
  have htext : labels_text (lowercase labels) = labels_text labels := by
    rw [labels_text, labels_text, lowercase, flatMap_map]
    apply flatMap_congr
    intro label _
    rw [flatMap_map]
    congr 1
    apply flatMap_congr
    intro b _
    exact hescape b
  have hnil : lowercase labels = [] ↔ labels = [] := map_eq_nil_iff
  simp only [name_text, htext, hnil]

/-- A length octet of at most 63 is no letter, so lowering the wire form lowers the labels. -/
theorem map_lowercase_body (hv : ValidLabels labels) :
    (body labels ++ [0]).map byte_to_ascii_lowercase = body (lowercase labels) ++ [0] := by
  induction labels with
  | nil => rfl
  | cons label labels ih =>
    obtain ⟨⟨-, h2⟩, hv⟩ := hv.cons
    have hoctet : ∀ n : Fin 64, byte_to_ascii_lowercase (UInt8.ofNat n.val) = UInt8.ofNat n.val := by
      decide +kernel
    have hlen := hoctet ⟨label.length, by omega⟩
    rw [lowercase, map_cons, body_cons, body_cons, cons_append, map_cons, append_assoc, map_append,
      ih hv, hlen, length_map, cons_append, append_assoc]
    rfl

/-- What the scanner accepts without compression is the wire form of valid labels. -/
theorem scan_uncompressed {packet : List UInt8} {offset scope_end e : Nat}
    (h : scan_dns_name packet offset scope_end false = .ok e) :
    ∃ labels, Reads packet false offset scope_end 0 labels e ∧ ValidLabels labels ∧
      wire_len labels ≤ 255 ∧ slice packet offset e = body labels ++ [0] := by
  obtain ⟨labels, hreads, hle⟩ := scan_dns_name_ok_iff.mp h
  obtain ⟨hdrop, he⟩ := hreads.drop_eq rfl
  refine ⟨labels, hreads, hreads.label_length, hle, ?_⟩
  have hlen : e - offset = (body labels ++ [0]).length := by
    rw [length_append, length_singleton, body_length]
    omega
  rw [slice, hlen, hdrop, append_cons _ _ (packet.drop e), take_left]

theorem canonical_wire_name_body (hv : ValidLabels labels) (hle : wire_len labels ≤ 255) :
    canonical_wire_name (body labels ++ [0]) = .ok (name_text labels) := by
  apply NameLabels.text_eq (reads_of_drop_eq hv 0 drop_zero ?_) hle
  rw [length_append, length_singleton, body_length]
  omega

/-- Two names have the same text exactly when their wire forms are equal up to case. -/
theorem name_text_eq_iff {labels' : List (List UInt8)} (hv : ValidLabels labels)
    (hle : wire_len labels ≤ 255) (hv' : ValidLabels labels') (hle' : wire_len labels' ≤ 255) :
    name_text labels = name_text labels' ↔
      (body labels ++ [0]).map byte_to_ascii_lowercase
        = (body labels' ++ [0]).map byte_to_ascii_lowercase := by
  rw [map_lowercase_body hv, map_lowercase_body hv']
  constructor
  · intro htext
    have henc := encode_name_text hv hle []
    rw [htext, encode_name_text hv' hle', nil_append, nil_append] at henc
    exact (Prod.mk.inj henc).2.symm
  · intro hwire
    have hname := canonical_wire_name_body hv.lowercase (by rw [wire_len_lowercase]; exact hle)
    rw [hwire, canonical_wire_name_body hv'.lowercase (by rw [wire_len_lowercase]; exact hle'),
      name_text_lowercase, name_text_lowercase] at hname
    exact (Except.ok.inj hname).symm

/-- Names in wire form and as text. For every accepted name without compression the canonical
text encodes to the name in lower case; two accepted names have the same canonical text exactly
when they are equal up to the case of ASCII letters; and the encoder, for every text, either
appends a name the scanner accepts or leaves its destination as it was. -/
theorem dns_name_round_trip :
    (∀ (w : List UInt8) (e : Nat), scan_dns_name w 0 w.length false = .ok e →
      ∃ text, canonical_wire_name w = .ok text ∧ ∀ out, encode_dns_name_into out text
        = (.ok (), out ++ (slice w 0 e).map byte_to_ascii_lowercase)) ∧
    (∀ (w w' : List UInt8) (e e' : Nat), scan_dns_name w 0 w.length false = .ok e →
      scan_dns_name w' 0 w'.length false = .ok e' →
      (canonical_wire_name w = canonical_wire_name w' ↔
        (slice w 0 e).map byte_to_ascii_lowercase = (slice w' 0 e').map byte_to_ascii_lowercase)) ∧
    ∀ (out : List UInt8) (text : String),
      (∃ name, encode_dns_name_into out text = (.ok (), out ++ name) ∧
        scan_dns_name name 0 name.length false = .ok name.length) ∨
      ∃ error, encode_dns_name_into out text = (.error error, out) := by
  refine ⟨?_, ?_, ?_⟩
  · intro w e h
    obtain ⟨labels, hreads, hv, hle, hslice⟩ := scan_uncompressed h
    refine ⟨name_text labels, NameLabels.text_eq hreads hle, fun out => ?_⟩
    rw [encode_name_text hv hle, hslice, map_lowercase_body hv]
  · intro w w' e e' h h'
    obtain ⟨labels, hreads, hv, hle, hslice⟩ := scan_uncompressed h
    obtain ⟨labels', hreads', hv', hle', hslice'⟩ := scan_uncompressed h'
    rw [canonical_wire_name, canonical_wire_name, NameLabels.text_eq hreads hle,
      NameLabels.text_eq hreads' hle', hslice, hslice', ← name_text_eq_iff hv hle hv' hle',
      Except.ok.injEq]
  · intro out text
    rw [encode_dns_name_into]
    by_cases hroot : Text.as_bytes text = [] ∨ Text.as_bytes text = [0x2e]
    · rw [if_pos hroot]
      exact .inl ⟨[0], rfl, @scan_body [] nofun (by decide)⟩
    · rw [if_neg hroot]
      cases hrun : encode_loop.run
          { wire := List.replicate 255 0, length := 1, label_start := 0, rest := Text.as_bytes text } with
      | ok octets =>
        obtain ⟨labels, hv, hle, rfl⟩ := encode_loop_ok _
          ⟨[], [], .start _, fun h => absurd (.inl h) hroot⟩ hrun
        exact .inl ⟨body labels ++ [0], rfl, scan_body hv hle⟩
      | error error => exact .inr ⟨error, rfl⟩

end DaeNext.Dns
