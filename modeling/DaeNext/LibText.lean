/-
The standard text operations the sources use, on `String` seen as its list of
characters.

A Rust `str` is a sequence of Unicode scalar values, and so is `String`; every
operation here that the original defines on UTF-8 bytes (`ends_with`, `contains`,
ASCII case) gives the same answer on characters, because no encoding of one
character occurs inside the encoding of others. The exception is `as_bytes`,
which is spelled out as the encoding.
-/
import Mathlib.Algebra.Ring.Nat
import Mathlib.Data.List.DropRight

set_option autoImplicit false

namespace Text

open List

/-! ## Splitting and trimming -/

/-- `str::split_once` at a character: the text before and after its first
occurrence. -/
def split_once (c : Char) (s : String) : Option (String × String) :=
  match s.toList.dropWhile (· != c) with
  | [] => none
  | _ :: rest => some (String.ofList (s.toList.takeWhile (· != c)), String.ofList rest)

/-- `str::rsplit_once` at a character: the text before and after its last
occurrence. -/
def rsplit_once (c : Char) (s : String) : Option (String × String) :=
  match s.toList.reverse.dropWhile (· != c) with
  | [] => none
  | _ :: rest => some (String.ofList rest.reverse,
      String.ofList (s.toList.reverse.takeWhile (· != c)).reverse)

/-- `str::split_once` at a text, on lists. -/
def splitOnceList (pattern : List Char) : List Char → Option (List Char × List Char)
  | [] => none
  | x :: xs =>
    if pattern.isPrefixOf (x :: xs) then some ([], (x :: xs).drop pattern.length)
    else (splitOnceList pattern xs).map fun parts => (x :: parts.1, parts.2)

/-- `str::split_once` at a text that is not empty. -/
def split_once_text (pattern s : String) : Option (String × String) :=
  (splitOnceList pattern.toList s.toList).map fun parts =>
    (String.ofList parts.1, String.ofList parts.2)

/-- `str::split` at a character, on lists: never empty. -/
def splitList (c : Char) : List Char → List (List Char)
  | [] => [[]]
  | x :: xs =>
    if x = c then [] :: splitList c xs
    else
      match splitList c xs with
      | [] => [[x]]
      | g :: gs => (x :: g) :: gs

/-- `str::split` at a character. -/
def split (c : Char) (s : String) : List String := (splitList c s.toList).map String.ofList

/-- `str::contains` of one character. -/
def contains_char (c : Char) (s : String) : Bool := s.toList.contains c

/-- `str::ends_with` of one character. -/
def ends_with_char (c : Char) (s : String) : Bool := s.toList.getLast? == some c

/-- `str::strip_prefix` of a text. -/
def strip_leading (p s : String) : Option String :=
  if p.toList.isPrefixOf s.toList then some (String.ofList (s.toList.drop p.length)) else none

/-- `str::trim_end_matches` of one character. -/
def trim_end_matches (c : Char) (s : String) : String :=
  String.ofList (s.toList.rdropWhile (· == c))

/-- `str::trim_matches` of one character: from both ends. -/
def trim_matches (c : Char) (s : String) : String :=
  String.ofList ((s.toList.dropWhile (· == c)).rdropWhile (· == c))

/-- `char::is_whitespace`: the Unicode property `White_Space`. -/
def is_whitespace (c : Char) : Bool :=
  let n := c.toNat
  (9 ≤ n ∧ n ≤ 13) ∨ n = 0x20 ∨ n = 0x85 ∨ n = 0xa0 ∨ n = 0x1680 ∨ (0x2000 ≤ n ∧ n ≤ 0x200a)
    ∨ n = 0x2028 ∨ n = 0x2029 ∨ n = 0x202f ∨ n = 0x205f ∨ n = 0x3000

/-- `str::trim`. -/
def trim (s : String) : String :=
  String.ofList ((s.toList.dropWhile is_whitespace).rdropWhile is_whitespace)

theorem trim_of_no_whitespace {s : String} (h : ∀ c ∈ s.toList, is_whitespace c = false) :
    trim s = s := by
  have hdrop : ∀ l : List Char, (∀ c ∈ l, is_whitespace c = false) →
      l.dropWhile is_whitespace = l := by
    intro l hl
    rw [dropWhile_eq_self_iff]
    intro hlen
    rw [hl _ (getElem_mem hlen)]
    decide
  have hrev : ∀ c ∈ s.toList.reverse, is_whitespace c = false :=
    fun c hc => h c (List.mem_reverse.mp hc)
  rw [trim, hdrop _ h, List.rdropWhile, hdrop _ hrev, reverse_reverse, String.ofList_toList]

/-- `str::trim_start_matches` of a text: remove it as often as it is in front. -/
def trim_start_matches (p : String) (s : String) : String :=
  go s.length s.toList
where
  /-- `fuel` bounds the number of removals by the length of the text. -/
  go : Nat → List Char → String
    | 0, cs => String.ofList cs
    | fuel + 1, cs =>
      if p.toList.isPrefixOf cs then go fuel (cs.drop p.length) else String.ofList cs

theorem trim_start_matches_go_not_leading {p : String} (hp : 0 < p.length) (fuel : Nat)
    (cs : List Char) (hfuel : cs.length ≤ fuel) :
    p.toList.isPrefixOf (trim_start_matches.go p fuel cs).toList = false := by
  induction fuel generalizing cs with
  | zero =>
    have hcs : cs = [] := length_eq_zero_iff.mp (Nat.le_zero.mp hfuel)
    -- out of fuel, so nothing is left, and the text removed is not empty
    have hne : p.toList ≠ [] := by
      rw [← length_pos_iff, String.length_toList]
      exact hp
    rw [trim_start_matches.go, String.toList_ofList, hcs]
    cases hl : p.toList with
    | nil => exact absurd hl hne
    | cons c l => rfl
  | succ fuel ih =>
    rw [trim_start_matches.go]
    split
    · exact ih _ (by rw [length_drop]; omega)
    · rename_i h
      rw [String.toList_ofList]
      exact Bool.eq_false_iff.mpr h

theorem trim_start_matches_not_leading {p : String} (hp : 0 < p.length) (s : String) :
    p.toList.isPrefixOf (trim_start_matches p s).toList = false :=
  trim_start_matches_go_not_leading hp s.length s.toList (by rw [String.length_toList])

/-! ## Case and bytes -/

/-- `str::to_ascii_lowercase`. -/
def to_ascii_lowercase (s : String) : String := String.ofList (s.toList.map Char.toLower)

/-- `str::as_bytes`: the UTF-8 encoding. -/
def as_bytes (s : String) : List UInt8 := s.toList.flatMap String.utf8EncodeChar

theorem utf8EncodeChar_ascii {c : Char} (h : c.toNat < 128) :
    String.utf8EncodeChar c = [UInt8.ofNat c.toNat] := by
  have hc : c.val.toNat ≤ 0x7f := Nat.le_of_lt_succ h
  simp only [String.utf8EncodeChar, hc, if_true]
  rfl

theorem as_bytes_ofList_ascii {l : List Char} (h : ∀ c ∈ l, c.toNat < 128) :
    as_bytes (String.ofList l) = l.map fun c => UInt8.ofNat c.toNat := by
  rw [as_bytes, String.toList_ofList, map_eq_flatMap]
  apply flatMap_congr
  intro c hc
  exact utf8EncodeChar_ascii (h c hc)

/-- `u8::to_ascii_lowercase`. -/
def byte_to_ascii_lowercase (b : UInt8) : UInt8 := if 65 ≤ b ∧ b ≤ 90 then b + 32 else b

/-- A statement about one byte is a statement about 256 numbers. -/
theorem forall_byte {P : UInt8 → Prop} (h : ∀ n : Fin 256, P (UInt8.ofNat n.val)) (b : UInt8) : P b := by
  have hb := h ⟨b.toNat, b.toNat_lt⟩
  rwa [UInt8.ofNat_toNat] at hb

/-- `eq_ignore_ascii_case` on bytes. -/
def eq_ignore_ascii_case (a b : List UInt8) : Bool :=
  a.map byte_to_ascii_lowercase == b.map byte_to_ascii_lowercase

theorem byte_to_ascii_lowercase_idem (b : UInt8) :
    byte_to_ascii_lowercase (byte_to_ascii_lowercase b) = byte_to_ascii_lowercase b := by
  revert b
  exact forall_byte (by decide +kernel)

/-- `str::contains` of a text. -/
def contains (pattern s : String) : Bool := s.toList.tails.any (pattern.toList.isPrefixOf ·)

theorem toLower_of_not_isUpper {c : Char} (h : c.isUpper = false) : c.toLower = c := by
  exact dif_neg (of_decide_eq_false h)

/-- A capital is one of 26 codes, and its small letter is 32 above it. -/
theorem toLower_of_isUpper {c : Char} (h : c.isUpper) :
    65 ≤ c.val.toNat ∧ c.val.toNat ≤ 90 ∧ c.toLower.val.toNat = c.val.toNat + 32 := by
  have hrange : 65 ≤ c.val ∧ c.val ≤ 90 := of_decide_eq_true h
  have h1 : 65 ≤ c.val.toNat := UInt32.le_iff_toNat_le.mp hrange.1
  have h2 : c.val.toNat ≤ 90 := UInt32.le_iff_toNat_le.mp hrange.2
  have hlower : c.toLower.val = c.val + ('a'.val - 'A'.val) :=
    congrArg Char.val (dif_pos hrange)
  rw [hlower, UInt32.toNat_add]
  -- the sum stays below `2 ^ 32`, so it does not wrap
  have hgap : ('a'.val - 'A'.val).toNat = 32 := rfl
  omega

theorem isUpper_toLower (c : Char) : c.toLower.isUpper = false := by
  by_cases hc : c.isUpper
  · obtain ⟨h1, -, hlow⟩ := toLower_of_isUpper hc
    by_contra hup
    obtain ⟨-, h2, -⟩ := toLower_of_isUpper ((Bool.not_eq_false _).mp hup)
    omega
  · have hc : c.isUpper = false := by simpa using hc
    rw [toLower_of_not_isUpper hc, hc]

theorem toLower_eq_dot (c : Char) : (c.toLower == '.') = (c == '.') := by
  by_cases hc : c.isUpper
  · obtain ⟨h1, -, hlow⟩ := toLower_of_isUpper hc
    -- a dot is code 46, below all capitals and small letters
    have hne : ∀ d : Char, 65 ≤ d.val.toNat → (d == '.') = false := by
      intro d hd
      simp only [beq_eq_false_iff_ne]
      rintro rfl
      exact absurd hd (by decide)
    rw [hne c h1, hne c.toLower (by omega)]
  · rw [toLower_of_not_isUpper (by simpa using hc)]

theorem to_ascii_lowercase_idem (s : String) :
    to_ascii_lowercase (to_ascii_lowercase s) = to_ascii_lowercase s := by
  have hlow : ∀ c : Char, c.toLower.toLower = c.toLower :=
    fun c => toLower_of_not_isUpper (isUpper_toLower c)
  simp [to_ascii_lowercase, Function.comp_def, hlow]

theorem to_ascii_lowercase_of_no_upper {s : String} (h : s.toList.any Char.isUpper = false) :
    to_ascii_lowercase s = s := by
  have hid : ∀ c ∈ s.toList, c.toLower = c := by
    intro c hc
    rw [any_eq_false] at h
    exact toLower_of_not_isUpper (by simpa using h c hc)
  rw [to_ascii_lowercase, map_congr_left hid, map_id', String.ofList_toList]

/-- Trimming dots twice around a change of case is trimming them once. -/
theorem trim_lowercase_trim (s : String) :
    trim_end_matches '.' (to_ascii_lowercase (trim_end_matches '.' s))
      = to_ascii_lowercase (trim_end_matches '.' s) := by
  have hmap : ∀ l : List Char, (l.map Char.toLower).rdropWhile (· == '.')
      = (l.rdropWhile (· == '.')).map Char.toLower := by
    intro l
    simp only [List.rdropWhile, ← map_reverse, dropWhile_map,
      show (fun c : Char => c == '.') ∘ Char.toLower = _ from funext toLower_eq_dot]
  simp only [trim_end_matches, to_ascii_lowercase, String.toList_ofList, hmap,
    rdropWhile_idempotent]

/-! ## Numbers

`from_str_radix` for the unsigned types. A leading plus is skipped, a lone sign
is an invalid digit, and in the loop the digit is checked before the overflow. -/

/-- `std::num::ParseIntError`, with the kinds an unsigned parse can give. -/
inductive ParseIntError where
  | Empty
  | InvalidDigit
  | PosOverflow
  deriving DecidableEq, Repr

/-- Its `Display`. -/
def ParseIntError.to_string : ParseIntError → String
  | .Empty => "cannot parse integer from empty string"
  | .InvalidDigit => "invalid digit found in string"
  | .PosOverflow => "number too large to fit in target type"

/-- `char::to_digit`, for a radix of at most 36. -/
def to_digit (radix : Nat) (c : Char) : Option Nat :=
  let digit :=
    if '0' ≤ c ∧ c ≤ '9' then c.toNat - '0'.toNat
    else if 'a' ≤ c ∧ c ≤ 'z' then c.toNat - 'a'.toNat + 10
    else if 'A' ≤ c ∧ c ≤ 'Z' then c.toNat - 'A'.toNat + 10
    else radix
  if digit < radix then some digit else none

/-- The checked digit loop. -/
def parseDigits (radix max : Nat) : Nat → List Char → Except ParseIntError Nat
  | acc, [] => .ok acc
  | acc, c :: cs =>
    -- the digit is read before the product is checked
    match to_digit radix c with
    | none => .error .InvalidDigit
    | some digit =>
      if acc * radix + digit ≤ max then parseDigits radix max (acc * radix + digit) cs
      else .error .PosOverflow

/-- `from_str_radix` for an unsigned type whose greatest value is `max`. -/
def from_str_radix (radix max : Nat) (s : String) : Except ParseIntError Nat :=
  match s.toList with
  | [] => .error .Empty
  | ['+'] => .error .InvalidDigit
  | '+' :: cs => parseDigits radix max 0 cs
  | cs => parseDigits radix max 0 cs

end Text
