/-
Names as text (`dae-dns/src/name.rs`, `dae-dns/src/cache_key.rs`): the escaped
presentation form, `encode_dns_name_into` and `canonical_wire_name`.

A name is a list of labels; `body labels ++ [0]` is its wire form and `name_text` its
canonical text. The encoder fills a buffer of 255 octets and writes each length octet
when its label ends; `Encoding` says which labels the buffer holds at a turn of its
loop. Decoding to text and encoding again gives the name in lower case, so the
canonical text is the name up to the case of its ASCII letters.
-/
import DaeNext.DnsNameReads

set_option autoImplicit false

namespace DaeNext.Dns

open List
open Text (byte_to_ascii_lowercase forall_byte)

/-! ## The wire form of a list of labels -/

def body (labels : List (List UInt8)) : List UInt8 :=
  labels.flatMap fun label => UInt8.ofNat label.length :: label

@[simp] theorem body_nil : body [] = [] := rfl

@[simp] theorem body_cons (label : List UInt8) (labels : List (List UInt8)) :
    body (label :: labels) = UInt8.ofNat label.length :: (label ++ body labels) := rfl

theorem body_append (labels labels' : List (List UInt8)) :
    body (labels ++ labels') = body labels ++ body labels' := flatMap_append

theorem body_length (labels : List (List UInt8)) : (body labels).length + 1 = wire_len labels := by
  induction labels with
  | nil => rfl
  | cons label labels ih =>
    rw [body_cons, wire_len_cons, length_cons, length_append]
    omega

/-- Labels of 1 to 63 octets. -/
def ValidLabels (labels : List (List UInt8)) : Prop :=
  ∀ label ∈ labels, 1 ≤ label.length ∧ label.length ≤ 63

variable {labels : List (List UInt8)}

theorem ValidLabels.cons {label : List UInt8} (h : ValidLabels (label :: labels)) :
    (1 ≤ label.length ∧ label.length ≤ 63) ∧ ValidLabels labels :=
  ⟨h label mem_cons_self, fun l hl => h l (mem_cons_of_mem _ hl)⟩

/-- The length octet of a valid label has its two top bits clear and is not the root. -/
theorem length_octet {n : Nat} (h1 : 1 ≤ n) (h2 : n ≤ 63) :
    UInt8.ofNat n &&& 0xc0 = 0 ∧ UInt8.ofNat n ≠ 0 ∧ (UInt8.ofNat n).toNat = n := by
  have hall : ∀ m : Fin 64, 1 ≤ m.val → UInt8.ofNat m.val &&& 0xc0 = 0 ∧ UInt8.ofNat m.val ≠ 0 ∧
      (UInt8.ofNat m.val).toNat = m.val := by decide +kernel
  exact hall ⟨n, by omega⟩ h1

variable {packet : List UInt8} {compressed : Bool} {scope_end : Nat}

/-- Without compression a name is its labels, one after the other, and the root. -/
theorem Reads.drop_eq {offset jumps e : Nat}
    (h : Reads packet compressed offset scope_end jumps labels e) (hc : compressed = false) :
    packet.drop offset = body labels ++ 0 :: packet.drop e ∧ e = offset + wire_len labels := by
  induction h with
  | @root offset _ _ hget _ =>
    obtain ⟨hlt, hval⟩ := List.getElem?_eq_some_iff.mp hget
    rw [drop_eq_getElem_cons hlt, hval]
    exact ⟨rfl, rfl⟩
  | @label offset _ _ e len labels hget htop hlen hpacket hscope rest ih =>
    obtain ⟨hlt, hval⟩ := List.getElem?_eq_some_iff.mp hget
    obtain ⟨hdrop, he⟩ := ih
    have hslice : (slice packet (offset + 1) (offset + 1 + len.toNat)).length = len.toNat := by
      rw [slice_length hpacket]
      omega
    refine ⟨?_, by rw [wire_len_cons, hslice]; omega⟩
    rw [body_cons, hslice, UInt8.ofNat_toNat, cons_append, append_assoc, ← hdrop,
      drop_eq_getElem_cons hlt, hval, slice_append_drop]
  | pointer hget hptr hcomp => rw [hc] at hcomp; cases hcomp

/-- A label in front of a name, given as what the packet holds. -/
theorem Reads.cons {offset jumps e : Nat} {label more : List UInt8}
    (h1 : 1 ≤ label.length) (h2 : label.length ≤ 63)
    (hdrop : packet.drop offset = UInt8.ofNat label.length :: (label ++ more))
    (hscope : offset + 1 + label.length ≤ scope_end)
    (rest : Reads packet compressed (offset + 1 + label.length) scope_end jumps labels e) :
    Reads packet compressed offset scope_end jumps (label :: labels) e := by
  obtain ⟨htop, hne, hlen⟩ := length_octet h1 h2
  have hget : packet[offset]? = some (UInt8.ofNat label.length) := by
    rw [← Nat.add_zero offset, ← getElem?_drop, hdrop, getElem?_cons_zero]
  have hdrop1 : packet.drop (offset + 1) = label ++ more := by
    rw [← drop_drop, hdrop, drop_one, tail_cons]
  have hpacket : offset + 1 + label.length ≤ packet.length := by
    have hl := congrArg List.length hdrop1
    rw [length_drop, length_append] at hl
    omega
  have hslice : slice packet (offset + 1) (offset + 1 + label.length) = label := by
    rw [slice, hdrop1, Nat.add_sub_cancel_left, take_left]
  rw [← hlen] at hscope hpacket rest hslice
  rw [← hslice]
  exact .label hget htop hne hpacket hscope rest

/-- Conversely, where the packet holds the wire form of valid labels, those labels are read. -/
theorem reads_of_drop_eq {jumps : Nat} {rest : List UInt8} (hv : ValidLabels labels) :
    ∀ offset, packet.drop offset = body labels ++ 0 :: rest →
      offset + wire_len labels ≤ scope_end →
      Reads packet compressed offset scope_end jumps labels (offset + wire_len labels) := by
  induction labels with
  | nil =>
    intro offset hdrop hscope
    have hget : packet[offset]? = some 0 := by
      rw [← Nat.add_zero offset, ← getElem?_drop, hdrop, body_nil, nil_append, getElem?_cons_zero]
    exact .root hget hscope
  | cons label labels ih =>
    intro offset hdrop hscope
    obtain ⟨⟨h1, h2⟩, hv⟩ := hv.cons
    rw [body_cons, cons_append, append_assoc] at hdrop
    rw [wire_len_cons] at hscope ⊢
    have hdrop2 : packet.drop (offset + 1 + label.length) = body labels ++ 0 :: rest := by
      rw [← drop_drop, ← drop_drop, hdrop, drop_one, tail_cons, drop_left]
    have hreads := ih hv (offset + 1 + label.length) hdrop2 (by omega)
    have hend : offset + (label.length + 1 + wire_len labels)
        = offset + 1 + label.length + wire_len labels := by omega
    rw [hend]
    exact .cons h1 h2 hdrop (by omega) hreads

/-! ## Presentation form -/

/-- The octets a label shows as they are: visible ASCII but for `.`, `\` and `|`. -/
def literal_byte (byte : UInt8) : Bool :=
  (0x21 ≤ byte ∧ byte ≤ 0x7e) ∧ ¬(byte = 0x2e ∨ byte = 0x5c ∨ byte = 0x7c)

/-- `char::from` of an octet. -/
def char_from (byte : UInt8) : Char := Char.ofNat byte.toNat

/-- What `append_label` pushes for one octet: the small letter, or three decimal digits. -/
def escape (byte : UInt8) : List Char :=
  let byte := byte_to_ascii_lowercase byte
  if literal_byte byte then [char_from byte]
  else ['\\', char_from (0x30 + byte / 100), char_from (0x30 + byte / 10 % 10),
    char_from (0x30 + byte % 10)]

def append_label (out : String) (label : List UInt8) : String :=
  label.foldl (fun out byte => (escape byte).foldl String.push out) out

/-- The loop that turns the labels of a name into text: each label with its dot, and a dot for
the root alone. -/
def NameLabels.text (labels : NameLabels) : Except DnsError String := do
  let out ← labels.items.1.foldlM
    (fun out item => do
      let label ← item
      pure ((append_label out label).push '.')) ""
  pure (if out.isEmpty then out.push '.' else out)

/-- The text of the name at the start of `wire`, without compression. -/
def canonical_wire_name (wire : List UInt8) : Except DnsError String :=
  (NameLabels.new wire 0 wire.length false).text

/-- The text of the labels, each with its dot. -/
def labels_text (labels : List (List UInt8)) : List Char :=
  labels.flatMap fun label => label.flatMap escape ++ ['.']

/-- The canonical text of a name; the root alone is a dot. -/
def name_text (labels : List (List UInt8)) : String :=
  String.ofList (if labels = [] then ['.'] else labels_text labels)

theorem toList_foldl_push (cs : List Char) (out : String) :
    (cs.foldl String.push out).toList = out.toList ++ cs := by
  induction cs generalizing out with
  | nil => rw [foldl_nil, append_nil]
  | cons c cs ih =>
    rw [foldl_cons, ih, String.toList_push, append_assoc, singleton_append]

theorem toList_append_label (out : String) (label : List UInt8) :
    (append_label out label).toList = out.toList ++ label.flatMap escape := by
  rw [append_label]
  induction label generalizing out with
  | nil => rw [foldl_nil, flatMap_nil, append_nil]
  | cons byte label ih =>
    rw [foldl_cons, ih, toList_foldl_push, flatMap_cons, append_assoc]

theorem foldlM_append_label (labels : List (List UInt8)) (out : String) :
    (labels.map .ok).foldlM (fun out (item : Except DnsError (List UInt8)) => do
      let label ← item
      pure ((append_label out label).push '.')) out
      = .ok (String.ofList (out.toList ++ labels_text labels)) := by
  induction labels generalizing out with
  | nil =>
    rw [map_nil, foldlM_nil, labels_text, flatMap_nil, append_nil, String.ofList_toList]
    rfl
  | cons label labels ih =>
    refine (ih _).trans ?_
    rw [String.toList_push, toList_append_label, labels_text, labels_text, flatMap_cons,
      append_assoc, append_assoc, append_assoc]

theorem NameLabels.text_eq {offset e : Nat}
    (h : Reads packet compressed offset scope_end 0 labels e) (hle : wire_len labels ≤ 255) :
    (NameLabels.new packet offset scope_end compressed).text = .ok (name_text labels) := by
  have hitems := (NameLabels.items_ok_iff.mpr ⟨h, hle⟩).1
  rw [NameLabels.text, hitems, foldlM_append_label]
  change Except.ok _ = _
  rw [String.toList_empty, nil_append, name_text]
  cases labels with
  | nil => rfl
  | cons label labels =>
    have hne : (String.ofList (labels_text (label :: labels))).isEmpty = false := by
      rw [← Bool.not_eq_true, String.isEmpty_iff, ← String.toList_inj, String.toList_ofList,
        String.toList_empty, labels_text, flatMap_cons]
      simp
    rw [hne, if_neg (by decide), if_neg (cons_ne_nil _ _)]

/-! ## The bytes of the text -/

def escape_bytes (byte : UInt8) : List UInt8 :=
  let byte := byte_to_ascii_lowercase byte
  if literal_byte byte then [byte]
  else [0x5c, 0x30 + byte / 100, 0x30 + byte / 10 % 10, 0x30 + byte % 10]

theorem escape_visible (byte : UInt8) :
    (escape byte).all (fun c => 0x21 ≤ c.toNat ∧ c.toNat ≤ 0x7e ∧ c.isUpper = false) = true := by
  revert byte
  exact forall_byte (by decide +kernel)

theorem escape_map (byte : UInt8) :
    (escape byte).map (fun c => UInt8.ofNat c.toNat) = escape_bytes byte := by
  revert byte
  exact forall_byte (by decide +kernel)

def labels_bytes (labels : List (List UInt8)) : List UInt8 :=
  labels.flatMap fun label => label.flatMap escape_bytes ++ [0x2e]

theorem labels_text_visible (labels : List (List UInt8)) :
    ∀ c ∈ labels_text labels, 0x21 ≤ c.toNat ∧ c.toNat ≤ 0x7e ∧ c.isUpper = false := by
  intro c hc
  obtain ⟨label, -, hc⟩ := mem_flatMap.mp hc
  rcases mem_append.mp hc with hc | hc
  · obtain ⟨byte, -, hc⟩ := mem_flatMap.mp hc
    exact of_decide_eq_true (all_eq_true.mp (escape_visible byte) c hc)
  · rw [mem_singleton.mp hc]
    decide

theorem name_text_visible (labels : List (List UInt8)) :
    ∀ c ∈ (name_text labels).toList, 0x21 ≤ c.toNat ∧ c.toNat ≤ 0x7e ∧ c.isUpper = false := by
  rw [name_text, String.toList_ofList]
  split_ifs
  · intro c hc
    rw [mem_singleton.mp hc]
    decide
  · exact labels_text_visible labels

theorem as_bytes_labels_text (labels : List (List UInt8)) :
    Text.as_bytes (String.ofList (labels_text labels)) = labels_bytes labels := by
  rw [Text.as_bytes_ofList_ascii
    (fun c hc => Nat.lt_of_le_of_lt (labels_text_visible labels c hc).2.1 (by decide)),
    labels_text, labels_bytes, map_flatMap]
  apply flatMap_congr
  intro label _
  rw [map_append, map_flatMap]
  congr 1
  apply flatMap_congr
  intro byte _
  exact escape_map byte

/-! ## The encoder -/

/-- The variables of the loop in `encode_dns_name_into`; `rest` is `input[index..]`. -/
structure EncodeState where
  wire : List UInt8
  length : Nat
  label_start : Nat
  rest : List UInt8

def is_ascii_digit (byte : UInt8) : Bool := 0x30 ≤ byte ∧ byte ≤ 0x39

/-- The octet `byte` stands for, with the escape it may begin, and the input after it. -/
def read_octet (byte : UInt8) (rest : List UInt8) : Except DnsError (UInt8 × List UInt8) :=
  if byte = 0x5c then
    match rest with
    | [] => .error .InvalidDnsName
    | next :: after =>
      if is_ascii_digit next then
        match after with
        | second :: third :: after =>
          if [next, second, third].all is_ascii_digit = false then .error .InvalidDnsName
          else
            let value := (next - 0x30).toNat * 100 + (second - 0x30).toNat * 10
              + (third - 0x30).toNat
            if value < 256 then .ok (UInt8.ofNat value, after) else .error .InvalidDnsName
        | _ => .error .InvalidDnsName
      else .ok (next, after)
  else .ok (byte, rest)

/-- One turn of the loop, and what follows it: the octets that are appended to `out`. -/
def encode_step (s : EncodeState) : EncodeState ⊕ Except DnsError (List UInt8) :=
  match s.rest with
  | [] =>
    let wire := s.wire.set s.label_start (UInt8.ofNat (s.length - s.label_start - 1))
    -- a root octet follows the final nonempty label
    .inr (.ok (wire.take s.length ++ [0]))
  | byte :: rest =>
    if byte = 0x2e then
      let label_len := s.length - s.label_start - 1
      if label_len = 0 then .inr (.error .InvalidDnsName)
      else
        let wire := s.wire.set s.label_start (UInt8.ofNat label_len)
        if 255 ≤ s.length then .inr (.error .InvalidDnsName)
        else if rest = [] then .inr (.ok (wire.take (s.length + 1)))
        else .inl { wire := wire, length := s.length + 1, label_start := s.length, rest := rest }
    else
      match read_octet byte rest with
      | .error error => .inr (.error error)
      | .ok (byte, rest) =>
        if 254 ≤ s.length ∨ 63 < s.length - s.label_start then .inr (.error .InvalidDnsName)
        else .inl { s with wire := s.wire.set s.length byte, length := s.length + 1, rest := rest }

theorem read_octet_rest {byte byte' : UInt8} {rest rest' : List UInt8}
    (h : read_octet byte rest = .ok (byte', rest')) : rest'.length ≤ rest.length := by
  revert h
  fun_cases read_octet byte rest with
  | case3 => rintro ⟨⟩; simp only [length_cons]; omega
  | case6 => rintro ⟨⟩; exact Nat.le_succ _
  | case7 => rintro ⟨⟩; exact le_rfl
  | _ => intro h; cases h

/-- Every turn takes at least one byte of the input. -/
def encode_loop : Loop EncodeState (Except DnsError (List UInt8)) where
  step := encode_step
  measure s := s.rest.length
  decreases := by
    intro s s' h
    rw [encode_step] at h
    split at h
    · cases h
    · rename_i byte rest hrest
      rw [hrest, List.length_cons]
      split at h
      · dsimp only at h
        split_ifs at h
        cases h
        exact Nat.lt_succ_self _
      · split at h
        · cases h
        · rename_i byte' rest' hread
          split_ifs at h
          cases h
          exact Nat.lt_succ_of_le (read_octet_rest hread)

/-- Encode a presentation name and append it to `out`: the result, and `out` after it. -/
def encode_dns_name_into (out : List UInt8) (name : String) : Except DnsError Unit × List UInt8 :=
  let input := Text.as_bytes name
  if input = [] ∨ input = [0x2e] then (.ok (), out ++ [0])
  else
    match encode_loop.run
      { wire := List.replicate 255 0, length := 1, label_start := 0, rest := input } with
    | .ok octets => (.ok (), out ++ octets)
    | .error error => (.error error, out)

end DaeNext.Dns
