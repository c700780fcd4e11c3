/-
Keys of the DNS cache (`dae-dns/src/cache_key.rs`): canonical names, the key `DnsCacheKey`,
the borrowed forms it is looked up by and what each of them feeds to a hasher.

A name is put into canonical form when a key or a question is made of it. On the text
of a name that came from the wire this changes nothing, so a question read from a
packet keeps the canonical text of its labels.
-/
import DaeNext.DnsNameRoundTrip

set_option autoImplicit false

namespace DaeNext.Dns

open Text (byte_to_ascii_lowercase forall_byte)

/-! ## Canonical names -/

def needs_presentation_normalization (name : String) : Bool :=
  (Text.as_bytes name).any fun byte => byte != 0x2e && !literal_byte byte

/-- The canonical form through the wire, when the name can be encoded. -/
def renormalized (trimmed : String) : Option String :=
  match encode_dns_name_into [] trimmed with
  | (.ok (), wire) => (canonical_wire_name wire).toOption
  | (.error _, _) => none

def canonical_name_lowercase (name : String) : String :=
  let trimmed := Text.trim name
  let canonical :=
    if needs_presentation_normalization trimmed then renormalized trimmed else none
  canonical.getD (
    let needs_dot := !Text.ends_with_char '.' trimmed
    if !needs_dot && !trimmed.toList.any Char.isUpper then trimmed
    else
      let out := Text.to_ascii_lowercase trimmed
      if needs_dot then out.push '.' else out)

theorem getLast_labels_text {labels : List (List UInt8)} (h : labels ≠ []) :
    (labels_text labels).getLast? = some '.' := by
  induction labels with
  | nil => exact absurd rfl h
  | cons label labels ih =>
    rw [labels_text, List.flatMap_cons, List.append_assoc, List.getLast?_append]
    cases labels with
    | nil => rfl
    | cons label' labels =>
      have hlast := ih (List.cons_ne_nil _ _)
      rw [labels_text] at hlast
      rw [List.getLast?_append, hlast]
      rfl

theorem ends_with_dot_name_text (labels : List (List UInt8)) :
    Text.ends_with_char '.' (name_text labels) = true := by
  rw [Text.ends_with_char, name_text, String.toList_ofList]
  split_ifs with hnil
  · rfl
  · rw [getLast_labels_text hnil]
    rfl

theorem trim_name_text (labels : List (List UInt8)) :
    Text.trim (name_text labels) = name_text labels := by
  apply Text.trim_of_no_whitespace
  intro c hc
  obtain ⟨h1, h2, -⟩ := name_text_visible labels c hc
  rw [Text.is_whitespace, decide_eq_false_iff_not]
  omega

theorem canonical_name_lowercase_name_text {labels : List (List UInt8)} (hv : ValidLabels labels)
    (hle : wire_len labels ≤ 255) : canonical_name_lowercase (name_text labels) = name_text labels := by
  have hupper : (name_text labels).toList.any Char.isUpper = false := by
    rw [List.any_eq_false]
    intro c hc
    rw [(name_text_visible labels c hc).2.2]
    decide
  have hname : renormalized (name_text labels) = some (name_text labels) := by
    rw [renormalized, encode_name_text hv hle, List.nil_append]
    dsimp only
    rw [canonical_wire_name_body hv.lowercase (by rw [wire_len_lowercase]; exact hle),
      name_text_lowercase]
    rfl
  rw [canonical_name_lowercase, trim_name_text]
  split_ifs with hnorm
  · rw [hname, Option.getD_some]
  · rw [Option.getD_none, ends_with_dot_name_text, hupper]
    rfl

/-! ## Keys -/

structure DnsCacheKey where
  qname : String
  qtype : UInt16
  qclass : UInt16
  deriving DecidableEq, Repr

/-- A key by a name that need not be in canonical form. -/
structure DnsCacheKeyView where
  qname : String
  qtype : UInt16
  qclass : UInt16
  deriving DecidableEq, Repr

/-- The derived order: the fields one after the other. -/
instance : Ord DnsCacheKey :=
  ⟨compareLex (compareOn DnsCacheKey.qname)
    (compareLex (compareOn DnsCacheKey.qtype) (compareOn DnsCacheKey.qclass))⟩

instance : Std.TransOrd DnsCacheKey :=
  inferInstanceAs (Std.TransCmp (compareLex (compareOn DnsCacheKey.qname)
    (compareLex (compareOn DnsCacheKey.qtype) (compareOn DnsCacheKey.qclass))))

theorem compare_key (a b : DnsCacheKey) :
    compare a b = (compare a.qname b.qname).then
      ((compare a.qtype b.qtype).then (compare a.qclass b.qclass)) := rfl

instance : Std.LawfulEqOrd DnsCacheKey where
  compare_self {a} := by
    rw [compare_key, Std.ReflOrd.compare_self, Std.ReflOrd.compare_self, Std.ReflOrd.compare_self]
    rfl
  eq_of_compare {a b} h := by
    rw [compare_key, Ordering.then_eq_eq, Ordering.then_eq_eq] at h
    obtain ⟨qname, qtype, qclass⟩ := a
    obtain ⟨qname', qtype', qclass'⟩ := b
    obtain rfl : qname = qname' := Std.LawfulEqOrd.eq_of_compare h.1
    obtain rfl : qtype = qtype' := Std.LawfulEqOrd.eq_of_compare h.2.1
    obtain rfl : qclass = qclass' := Std.LawfulEqOrd.eq_of_compare h.2.2
    rfl

def DnsCacheKey.new (qname : String) (qtype qclass : UInt16) : DnsCacheKey where
  qname := canonical_name_lowercase qname
  qtype := qtype
  qclass := qclass

def DnsCacheKey.to_string (key : DnsCacheKey) : String :=
  key.qname ++ "|" ++ toString key.qtype.toNat ++ "|" ++ toString key.qclass.toNat

def canonical_name_eq_ignore_ascii_case (canonical candidate : String) : Bool :=
  if needs_presentation_normalization candidate then
    canonical == canonical_name_lowercase candidate
  else
    let canonical_bytes := Text.as_bytes canonical
    let candidate := Text.trim candidate
    let candidate_bytes := Text.as_bytes candidate
    if Text.ends_with_char '.' candidate then
      Text.eq_ignore_ascii_case canonical_bytes candidate_bytes
    else
      canonical_bytes.length == candidate_bytes.length + 1 &&
        canonical_bytes.getLast? == some 0x2e &&
        Text.eq_ignore_ascii_case (canonical_bytes.take candidate_bytes.length) candidate_bytes

def DnsCacheKey.matches_view (self : DnsCacheKey) (view : DnsCacheKeyView) : Bool :=
  self.qtype == view.qtype && self.qclass == view.qclass &&
    canonical_name_eq_ignore_ascii_case self.qname view.qname

/-! ## Hashing -/

/-- One call of a hasher. -/
inductive HashWrite where
  | write_u8 (byte : UInt8)
  | write_u16 (value : UInt16)
  deriving DecidableEq, Repr

def hash_canonical_name_into (name : String) : List HashWrite :=
  let name := if needs_presentation_normalization name then canonical_name_lowercase name else name
  let trimmed := Text.trim name
  let without_trailing_dot :=
    if Text.ends_with_char '.' trimmed then String.ofList trimmed.toList.dropLast else trimmed
  let bytes :=
    if without_trailing_dot.isEmpty then [0x2e]
    else (Text.as_bytes without_trailing_dot).map byte_to_ascii_lowercase ++ [0x2e]
  (bytes ++ [0]).map .write_u8

def hash_dns_cache_key_parts (qname : String) (qtype qclass : UInt16) : List HashWrite :=
  hash_canonical_name_into qname ++ [.write_u16 qtype, .write_u16 qclass]

def hashed_octet (byte : UInt8) : List UInt8 :=
  let byte := byte_to_ascii_lowercase byte
  if literal_byte byte then [byte]
  else [0x5c, 0x30 + byte / 100, 0x30 + byte / 10 % 10, 0x30 + byte % 10]

/-- The loop of `hash_canonical_wire_name_into` over the octets from its offset on. -/
def hash_wire_from (wrote_label : Bool) (wire : List UInt8) : List UInt8 :=
  match wire with
  | [] => if wrote_label then [] else [0x2e]
  | len :: rest =>
    if len = 0 ∨ len &&& 0xc0 ≠ 0 ∨ 63 < len then [0x2e]
    else if rest.length < len.toNat then [0x2e]
    else
      (if wrote_label then [0x2e] else []) ++ (rest.take len.toNat).flatMap hashed_octet ++
        hash_wire_from true (rest.drop len.toNat)
termination_by wire.length
decreasing_by
  rw [List.length_drop, List.length_cons]
  omega

def hash_canonical_wire_name_into (wire : List UInt8) : List HashWrite :=
  (hash_wire_from false wire ++ [0]).map .write_u8

def hash_dns_cache_key_wire_parts (qname_wire : List UInt8) (qtype qclass : UInt16) :
    List HashWrite :=
  hash_canonical_wire_name_into qname_wire ++ [.write_u16 qtype, .write_u16 qclass]

def DnsCacheKey.hash (key : DnsCacheKey) : List HashWrite :=
  hash_dns_cache_key_parts key.qname key.qtype key.qclass

def DnsCacheKeyView.hash (view : DnsCacheKeyView) : List HashWrite :=
  hash_dns_cache_key_parts view.qname view.qtype view.qclass

end DaeNext.Dns
