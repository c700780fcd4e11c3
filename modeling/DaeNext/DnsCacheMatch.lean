/-
A question of a packet finds the key of its name.

The key holds the canonical text of a name and the question its wire form. A question compares
its labels with the text, label by label where nothing is escaped, and hashes its labels octet
by octet. For the name the text was made from, the comparison succeeds and the hash is that of
the key, so either backend of the cache finds the entry.
-/
import DaeNext.DnsCacheStore

set_option autoImplicit false

namespace Text

theorem splitList_of_not_mem {c : Char} {cs : List Char} (h : c ∉ cs) : splitList c cs = [cs] := by
  induction cs with
  | nil => rfl
  | cons x cs ih =>
    rw [List.mem_cons, not_or] at h
    rw [splitList, if_neg (Ne.symm h.1), ih h.2]

theorem splitList_append {c : Char} {cs : List Char} (h : c ∉ cs) (rest : List Char) :
    splitList c (cs ++ c :: rest) = cs :: splitList c rest := by
  induction cs with
  | nil => rw [List.nil_append, splitList, if_pos rfl]
  | cons x cs ih =>
    rw [List.mem_cons, not_or] at h
    rw [List.cons_append, splitList, if_neg (Ne.symm h.1), ih h.2]

end Text

namespace DaeNext.Dns

open Text (byte_to_ascii_lowercase forall_byte)
open List

/-! ## The text of a name, label by label -/

def label_text (label : List UInt8) : List Char := label.flatMap escape

/-- The text of a name without its last dot. -/
def joined : List (List UInt8) → List Char
  | [] => []
  | [label] => label_text label
  | label :: label' :: labels => label_text label ++ '.' :: joined (label' :: labels)

variable {labels : List (List UInt8)}

theorem labels_text_eq_joined (h : labels ≠ []) : labels_text labels = joined labels ++ ['.'] := by
  induction labels with
  | nil => exact absurd rfl h
  | cons label labels ih =>
    cases labels with
    | nil => rw [labels_text, flatMap_singleton, joined, label_text]
    | cons label' labels =>
      have htail := ih (cons_ne_nil _ _)
      rw [labels_text] at htail
      rw [labels_text, flatMap_cons, htail, joined, label_text, append_assoc,
        singleton_append, append_assoc, cons_append]

theorem dot_not_mem_escape (byte : UInt8) : '.' ∉ escape byte := by
  have hall : ∀ b : UInt8, (escape b).contains '.' = false := forall_byte (by decide +kernel)
  intro hmem
  have := hall byte
  rw [contains_iff_mem.mpr hmem] at this
  cases this

theorem dot_not_mem_label_text (label : List UInt8) : '.' ∉ label_text label := by
  intro hmem
  obtain ⟨byte, -, hb⟩ := mem_flatMap.mp hmem
  exact dot_not_mem_escape byte hb

theorem escape_bytes_of_plain {byte : UInt8} (h : '\\' ∉ escape byte) :
    escape_bytes byte = [byte_to_ascii_lowercase byte] := by
  have hall : ∀ b : UInt8, (escape b).contains '\\' = false →
      escape_bytes b = [byte_to_ascii_lowercase b] := forall_byte (by decide +kernel)
  apply hall
  rw [← Bool.not_eq_true, contains_iff_mem]
  exact h

theorem escape_ne_nil (byte : UInt8) : escape byte ≠ [] := by
  have hall : ∀ b : UInt8, (escape b).isEmpty = false := forall_byte (by decide +kernel)
  intro hnil
  have := hall byte
  rw [hnil] at this
  cases this

theorem splitList_joined (h : labels ≠ []) :
    Text.splitList '.' (joined labels) = labels.map label_text := by
  induction labels with
  | nil => exact absurd rfl h
  | cons label labels ih =>
    cases labels with
    | nil =>
      rw [joined, Text.splitList_of_not_mem (dot_not_mem_label_text label), map_singleton]
    | cons label' labels =>
      rw [joined, Text.splitList_append (dot_not_mem_label_text label),
        ih (cons_ne_nil _ _), map_cons, map_cons, map_cons]

/-- The last character before the last dot belongs to a label. -/
theorem joined_getLast (hv : ValidLabels labels) (h : labels ≠ []) :
    ∃ init c, joined labels = init ++ [c] ∧ c ≠ '.' := by
  induction labels with
  | nil => exact absurd rfl h
  | cons label labels ih =>
    obtain ⟨⟨h1, -⟩, hv'⟩ := hv.cons
    cases labels with
    | nil =>
      rcases eq_nil_or_concat' (label_text label) with hnil | ⟨init, c, hc⟩
      · obtain ⟨byte, rest, rfl⟩ := exists_cons_of_length_pos h1
        rw [label_text, flatMap_cons, append_eq_nil_iff] at hnil
        exact absurd hnil.1 (escape_ne_nil byte)
      · refine ⟨init, c, hc, ?_⟩
        rintro rfl
        apply dot_not_mem_label_text label
        rw [hc]
        exact mem_append_right _ mem_cons_self
    | cons label' labels =>
      obtain ⟨init, c, hc, hne⟩ := ih hv' (cons_ne_nil _ _)
      refine ⟨label_text label ++ '.' :: init, c, ?_, hne⟩
      rw [joined, hc, append_assoc, cons_append]

theorem trim_end_matches_name_text (hv : ValidLabels labels) (h : labels ≠ []) :
    Text.trim_end_matches '.' (name_text labels) = String.ofList (joined labels) := by
  obtain ⟨init, c, hc, hne⟩ := joined_getLast hv h
  rw [Text.trim_end_matches, name_text, if_neg h, String.toList_ofList, labels_text_eq_joined h,
    rdropWhile_concat_pos _ _ _ (by decide), hc, rdropWhile_concat_neg _ _ _ (by simpa using hne)]

/-! ## The comparison of a question with a key -/

variable {label : List UInt8}

theorem eq_ignore_ascii_case_label_text (h : '\\' ∉ label_text label) :
    Text.eq_ignore_ascii_case label (Text.as_bytes (String.ofList (label_text label))) = true := by
  have hascii : ∀ c ∈ label_text label, c.toNat < 128 := by
    intro c hc
    obtain ⟨byte, -, hb⟩ := mem_flatMap.mp hc
    have hvis := of_decide_eq_true (all_eq_true.mp (escape_visible byte) c hb)
    omega
  have hbytes : Text.as_bytes (String.ofList (label_text label)) = label.map byte_to_ascii_lowercase := by
    rw [Text.as_bytes_ofList_ascii hascii, label_text, map_flatMap, map_eq_flatMap]
    apply flatMap_congr
    intro byte hbyte
    rw [escape_map]
    exact escape_bytes_of_plain fun hesc => h (mem_flatMap.mpr ⟨byte, hbyte, hesc⟩)
  rw [Text.eq_ignore_ascii_case, hbytes, map_map, beq_iff_eq]
  apply map_congr_left
  intro byte _
  exact (Text.byte_to_ascii_lowercase_idem byte).symm

/-- The labels of a wire name against the labels of its text. -/
theorem wire_labels_eq_body (hv : ValidLabels labels)
    (hplain : ∀ label ∈ labels, '\\' ∉ label_text label) (empty saw : Bool)
    (h : labels ≠ [] ∨ saw = true) :
    wire_labels_eq empty saw (body labels ++ [0]) (labels.map fun label => String.ofList (label_text label))
      = .ok true := by
  induction labels generalizing saw with
  | nil =>
    obtain rfl := h.resolve_left (fun hne => hne rfl)
    rw [body_nil, nil_append, wire_labels_eq.eq_def]
    rfl
  | cons label labels ih =>
    obtain ⟨⟨h1, h2⟩, hv'⟩ := hv.cons
    obtain ⟨htop, hzero, hnat⟩ := length_octet h1 h2
    have hle : ¬(63 : UInt8) < UInt8.ofNat label.length := by
      rw [UInt8.lt_iff_toNat_lt, hnat]
      exact Nat.not_lt.mpr h2
    rw [body_cons, cons_append, append_assoc, map_cons, wire_labels_eq.eq_def]
    dsimp only
    rw [if_neg (fun hor => hor.elim (fun hne => hne htop) hle), if_neg hzero, hnat,
      if_neg (by rw [length_append]; omega), take_left, drop_left,
      if_pos (eq_ignore_ascii_case_label_text (hplain label mem_cons_self))]
    exact ih hv' (fun l hl => hplain l (mem_cons_of_mem _ hl)) true (Or.inr rfl)

theorem label_text_subset (h : label ∈ labels) : ∀ c ∈ label_text label, c ∈ labels_text labels := by
  intro c hc
  exact mem_flatMap.mpr ⟨label, h, mem_append_left _ hc⟩

theorem wire_name_eq_name_text (hv : ValidLabels labels) (hle : wire_len labels ≤ 255) :
    wire_name_eq_canonical_ignore_ascii_case (body labels ++ [0]) (name_text labels) = .ok true := by
  rw [wire_name_eq_canonical_ignore_ascii_case, trim_name_text]
  by_cases hspecial : (Text.contains_char '\\' (name_text labels) || name_text labels == ".") = true
  · rw [if_pos hspecial, canonical_wire_name_body hv hle, canonical_name_lowercase_name_text hv hle]
    change Except.ok (name_text labels == name_text labels) = _
    rw [beq_self_eq_true]
  · rw [if_neg hspecial]
    rw [Bool.or_eq_true, not_or] at hspecial
    have hne : labels ≠ [] := by
      rintro rfl
      exact hspecial.2 (by decide)
    have hplain : ∀ label ∈ labels, '\\' ∉ label_text label := by
      intro label hlabel hmem
      apply hspecial.1
      rw [Text.contains_char, name_text, if_neg hne, String.toList_ofList, contains_iff_mem]
      exact label_text_subset hlabel _ hmem
    dsimp only
    rw [trim_end_matches_name_text hv hne, Text.split, String.toList_ofList, splitList_joined hne,
      map_map]
    exact wire_labels_eq_body hv hplain _ false (Or.inl hne)

/-! ## The hash of a question and of its key -/

theorem hash_wire_from_cons (h1 : 1 ≤ label.length) (h2 : label.length ≤ 63) (wrote_label : Bool) :
    hash_wire_from wrote_label (body (label :: labels) ++ [0])
      = (if wrote_label then [0x2e] else []) ++ label.flatMap escape_bytes ++
        hash_wire_from true (body labels ++ [0]) := by
  obtain ⟨htop, hzero, hnat⟩ := length_octet h1 h2
  have hle : ¬(63 : UInt8) < UInt8.ofNat label.length := by
    rw [UInt8.lt_iff_toNat_lt, hnat]
    exact Nat.not_lt.mpr h2
  rw [body_cons, cons_append, append_assoc, hash_wire_from.eq_def]
  dsimp only
  rw [if_neg (fun hor => hor.elim hzero (fun hor => hor.elim (fun hne => hne htop) hle)), hnat,
    if_neg (by rw [length_append]; omega), take_left, drop_left]
  rfl

theorem hash_wire_from_root (wrote_label : Bool) : hash_wire_from wrote_label [0] = [0x2e] := by
  rw [hash_wire_from.eq_def]
  dsimp only
  rw [if_pos (Or.inl rfl)]

/-- The labels of a wire name feed the octets of its text. -/
theorem hash_wire_from_body (hv : ValidLabels labels) :
    hash_wire_from true (body labels ++ [0]) = 0x2e :: labels_bytes labels := by
  induction labels with
  | nil => exact hash_wire_from_root true
  | cons label labels ih =>
    obtain ⟨⟨h1, h2⟩, hv'⟩ := hv.cons
    rw [hash_wire_from_cons h1 h2, ih hv', labels_bytes, labels_bytes, flatMap_cons,
      append_assoc, append_assoc, singleton_append]
    rfl

theorem hash_canonical_wire_name_body (hv : ValidLabels labels) :
    hash_wire_from false (body labels ++ [0]) = if labels = [] then [0x2e] else labels_bytes labels := by
  cases labels with
  | nil => exact hash_wire_from_root false
  | cons label labels =>
    obtain ⟨⟨h1, h2⟩, hv'⟩ := hv.cons
    rw [hash_wire_from_cons h1 h2, hash_wire_from_body hv', if_neg (cons_ne_nil _ _),
      labels_bytes, labels_bytes, flatMap_cons, append_assoc, append_assoc]
    rfl

theorem escape_bytes_lowercase (byte : UInt8) :
    (escape_bytes byte).map byte_to_ascii_lowercase = escape_bytes byte := by
  revert byte
  exact forall_byte (by decide +kernel)

theorem labels_bytes_lowercase (labels : List (List UInt8)) :
    (labels_bytes labels).map byte_to_ascii_lowercase = labels_bytes labels := by
  rw [labels_bytes, map_flatMap]
  apply flatMap_congr
  intro label _
  rw [map_append, map_flatMap]
  congr 1
  apply flatMap_congr
  intro byte _
  exact escape_bytes_lowercase byte

theorem hash_canonical_name_text (hv : ValidLabels labels) (hle : wire_len labels ≤ 255) :
    hash_canonical_name_into (name_text labels) = hash_canonical_wire_name_into (body labels ++ [0]) := by
  have hname : (if needs_presentation_normalization (name_text labels) then
      canonical_name_lowercase (name_text labels) else name_text labels) = name_text labels := by
    rw [canonical_name_lowercase_name_text hv hle, ite_self]
  rw [hash_canonical_name_into, hash_canonical_wire_name_into, hname,
    trim_name_text, if_pos (ends_with_dot_name_text labels), hash_canonical_wire_name_body hv]
  by_cases hnil : labels = []
  · subst hnil
    rfl
  · obtain ⟨init, c, hc, -⟩ := joined_getLast hv hnil
    have hbytes := as_bytes_labels_text labels
    have hascii : ∀ c ∈ labels_text labels, c.toNat < 128 := fun c hc =>
      Nat.lt_of_le_of_lt (labels_text_visible labels c hc).2.1 (by decide)
    rw [labels_text_eq_joined hnil] at hbytes hascii
    rw [Text.as_bytes_ofList_ascii hascii, map_append] at hbytes
    rw [if_neg hnil, name_text, if_neg hnil, String.toList_ofList, labels_text_eq_joined hnil,
      dropLast_concat]
    have hempty : (String.ofList (joined labels)).isEmpty = false := by
      rw [← Bool.not_eq_true, String.isEmpty_iff, ← String.toList_inj, String.toList_ofList,
        String.toList_empty, hc]
      exact append_ne_nil_of_right_ne_nil _ (cons_ne_nil _ _)
    rw [hempty, if_neg (by decide), Text.as_bytes_ofList_ascii
      (fun c hc => hascii c (mem_append_left _ hc))]
    -- the text is in lower case already
    have hlower := labels_bytes_lowercase labels
    rw [← hbytes, map_append] at hlower
    rw [← hbytes]
    exact congrArg (fun bytes => (bytes ++ [0]).map HashWrite.write_u8) hlower

/-! ## A store that holds one entry -/

section Lookup

variable {question : DnsPacketQuestionView} {labels : List (List UInt8)} {key : DnsCacheKey}

structure AsksFor (question : DnsPacketQuestionView) (labels : List (List UInt8))
    (key : DnsCacheKey) : Prop where
  valid : ValidLabels labels
  short : wire_len labels ≤ 255
  wire_eq : question.qname_wire = body labels ++ [0]
  qname_eq : key.qname = name_text labels
  qtype_eq : question.qtype = key.qtype
  qclass_eq : question.qclass = key.qclass

theorem AsksFor.matches_key (h : AsksFor question labels key) :
    packet_question_matches_key question key = .ok true := by
  rw [packet_question_matches_key,
    if_neg (fun hor => hor.elim (fun hne => hne h.qtype_eq) (fun hne => hne h.qclass_eq)),
    h.wire_eq, h.qname_eq]
  exact wire_name_eq_name_text h.valid h.short

theorem AsksFor.hash_eq (h : AsksFor question labels key) :
    DnsCacheEntries.question_hash question = key.hash := by
  rw [DnsCacheEntries.question_hash, hash_dns_cache_key_wire_parts, DnsCacheKey.hash,
    hash_dns_cache_key_parts, h.qname_eq, hash_canonical_name_text h.valid h.short, h.wire_eq,
    h.qtype_eq, h.qclass_eq]

variable {entries : DnsCacheEntries} {entry : DnsCacheEntry} {hasher : HashBuilder}

theorem find_equivalent_of_single {index : Expiring.Index DnsCacheKey DnsCacheEntry}
    (h : AsksFor question labels key) (hone : index.entries.toList = [(key, entry)]) :
    DnsCacheEntries.find_equivalent hasher index (DnsCacheEntries.question_hash question)
      (DnsCacheEntries.question_equivalent question) = some key := by
  have hkeys : index.entries.keys = [key] := by
    rw [← Std.TreeMap.map_fst_toList_eq_keys, hone]
    rfl
  have hprobe : hasher.probe [key] = [key] := perm_singleton.mp (hasher.probe_perm [key])
  rw [DnsCacheEntries.find_equivalent, hkeys, hprobe, find?_cons, h.hash_eq, beq_self_eq_true,
    DnsCacheEntries.question_equivalent, h.matches_key]
  rfl

theorem get_packet_question_of_single (h : AsksFor question labels key)
    (hone : entries.iter = [(key, entry)]) :
    entries.get_packet_question hasher question = .ok (some entry) := by
  cases entries with
  | Small pairs =>
    obtain rfl : pairs = [(key, entry)] := hone
    rw [DnsCacheEntries.get_packet_question, DnsCacheEntries.question_position, h.matches_key]
    rfl
  | Map index =>
    have hget : index.get key = some entry := by
      apply Std.TreeMap.mem_toList_iff_getElem?_eq_some.mp
      rw [show index.entries.toList = [(key, entry)] from hone]
      exact mem_cons_self
    rw [DnsCacheEntries.get_packet_question, find_equivalent_of_single h hone, Option.bind_some, hget]

theorem remove_packet_question_of_single (h : AsksFor question labels key)
    (hone : entries.iter = [(key, entry)]) :
    ∃ left, entries.remove_packet_question hasher question = .ok left := by
  cases entries with
  | Small pairs =>
    obtain rfl : pairs = [(key, entry)] := hone
    rw [DnsCacheEntries.remove_packet_question, DnsCacheEntries.remove_packet_question_entry,
      DnsCacheEntries.question_position, h.matches_key]
    exact ⟨_, rfl⟩
  | Map index => exact ⟨_, rfl⟩

section

variable {store : DnsCacheStore} {now_unix : Int} {ignore_fixed_ttl : Bool}
  (h : AsksFor question labels key) (hone : store.entries.iter = [(key, entry)])

include h hone

theorem lookup_before_deadline (hlive : now_unix < entry.lookup_deadline ignore_fixed_ttl) :
    store.lookup_packet_question hasher now_unix question ignore_fixed_ttl
      = .ok (some entry, store.record_hit) := by
  have hsel : DnsCacheStore.select now_unix ignore_fixed_ttl entry = .hit := by
    rw [DnsCacheStore.select, if_pos hlive]
  rw [DnsCacheStore.lookup_packet_question, get_packet_question_of_single h hone]
  dsimp only [Bind.bind, Except.bind]
  rw [hsel]
  rfl

theorem lookup_past_deadline (hpast : entry.lookup_deadline ignore_fixed_ttl ≤ now_unix) :
    ∃ store', store.lookup_packet_question hasher now_unix question ignore_fixed_ttl
      = .ok (none, store') := by
  have hget : store.entries.get_packet_question hasher question = .ok (some entry) :=
    get_packet_question_of_single h hone
  obtain ⟨left, hleft⟩ := @remove_packet_question_of_single _ _ _ _ _ hasher h hone
  have hsel : DnsCacheStore.select now_unix ignore_fixed_ttl entry
      = if now_unix < entry.cache_expires_at then .waiting else .expired := by
    rw [DnsCacheStore.select, if_neg (Int.not_lt.mpr hpast)]
  by_cases hwait : now_unix < entry.cache_expires_at
  · refine ⟨store, ?_⟩
    rw [DnsCacheStore.lookup_packet_question, hget]
    dsimp only [Bind.bind, Except.bind]
    rw [hsel, if_pos hwait]
    rfl
  · refine ⟨store.record_expired left.2, ?_⟩
    rw [DnsCacheStore.lookup_packet_question, hget]
    dsimp only [Bind.bind, Except.bind]
    rw [hsel, if_neg hwait, hleft]
    rfl

end

end Lookup

end DaeNext.Dns
