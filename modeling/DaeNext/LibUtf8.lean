/-
Text from bytes.

`from_utf8` accepts the encodings of texts, and gives back the text that was encoded. What it
says about other bytes is where the first wrong sequence starts and how long it is.
-/
import DaeNext.LibText

set_option autoImplicit false

namespace Text

/-- `core::str::Utf8Error`; no length means that the input ends inside a sequence. -/
structure Utf8Error where
  valid_up_to : Nat
  error_len : Option Nat
  deriving DecidableEq, Repr

def Utf8Error.to_string (self : Utf8Error) : String :=
  match self.error_len with
  | some error_len =>
    s!"invalid utf-8 sequence of {error_len} bytes from index {self.valid_up_to}"
  | none => s!"incomplete utf-8 byte sequence from index {self.valid_up_to}"

/-- A byte `10xxxxxx`. -/
def is_continuation (b : UInt8) : Bool := 0x80 ≤ b && b ≤ 0xbf

/-- The second bytes that may follow the first byte of a sequence of three or four. -/
def is_second (first second : UInt8) : Bool :=
  if first = 0xe0 then 0xa0 ≤ second && second ≤ 0xbf
  else if first = 0xed then 0x80 ≤ second && second ≤ 0x9f
  else if first = 0xf0 then 0x90 ≤ second && second ≤ 0xbf
  else if first = 0xf4 then 0x80 ≤ second && second ≤ 0x8f
  else is_continuation second

/-- The length of the sequence a byte starts; zero where it starts none. -/
def utf8_char_width (first : UInt8) : Nat :=
  if first < 0x80 then 1
  else if 0xc2 ≤ first ∧ first ≤ 0xdf then 2
  else if 0xe0 ≤ first ∧ first ≤ 0xef then 3
  else if 0xf0 ≤ first ∧ first ≤ 0xf4 then 4
  else 0

/-- What is wrong with the bytes after `first`: those of `width`, after `index` good ones. -/
def check_sequence (first : UInt8) (width index : Nat) : List UInt8 → Option (Option Nat)
  | [] => if index < width then some none else none
  | b :: bytes =>
    if width ≤ index then none
    else if (if index = 1 ∧ 2 < width then is_second first b else is_continuation b) then
      check_sequence first width (index + 1) bytes
    else some (some index)

/-- `run_utf8_validation` from `index` on. -/
def run_utf8_validation (index : Nat) (bytes : List UInt8) : Option Utf8Error :=
  match bytes with
  | [] => none
  | first :: rest =>
    match utf8_char_width first with
    | 0 => some ⟨index, some 1⟩
    | width + 1 =>
      match check_sequence first (width + 1) 1 rest with
      | some error_len => some ⟨index, error_len⟩
      | none => run_utf8_validation (index + (width + 1)) (rest.drop width)
termination_by bytes.length
decreasing_by
  rw [List.length_drop, List.length_cons]
  omega

/-- `str::from_utf8`. -/
def from_utf8 (bytes : List UInt8) : Except Utf8Error String :=
  match String.fromUTF8? bytes.toByteArray with
  | some s => .ok s
  | none => .error ((run_utf8_validation 0 bytes).getD ⟨0, none⟩)

theorem from_utf8_as_bytes (s : String) : from_utf8 (as_bytes s) = .ok s := by
  have hbytes : (as_bytes s).toByteArray = s.toByteArray := by
    rw [as_bytes, ← List.utf8Encode, ← String.toByteArray_ofList, String.ofList_toList]
  have hutf8 : String.fromUTF8? (as_bytes s).toByteArray = some s := by
    rw [String.fromUTF8?, hbytes, dif_pos s.isValidUTF8]
    rfl
  rw [from_utf8, hutf8]

/-- The byte `0xff` is in no sequence. -/
theorem ne_ff_of_mem_utf8EncodeChar {c : Char} {b : UInt8} (h : b ∈ String.utf8EncodeChar c) :
    b ≠ 0xff := by
  have hsmall : ∀ n, n < 255 → UInt8.ofNat n ≠ 0xff := by
    intro n hn heq
    have hnat := congrArg UInt8.toNat heq
    change n % 256 = 255 at hnat
    omega
  simp only [String.utf8EncodeChar] at h
  split_ifs at h <;> simp only [List.mem_cons, List.not_mem_nil, or_false] at h
  · rw [h]
    exact hsmall _ (by omega)
  · obtain rfl | rfl := h <;> exact hsmall _ (by omega)
  · obtain rfl | rfl | rfl := h <;> exact hsmall _ (by omega)
  · obtain rfl | rfl | rfl | rfl := h <;> exact hsmall _ (by omega)

theorem utf8EncodeChar_of_ascii_mem {c : Char} {b : UInt8} (h : b ∈ String.utf8EncodeChar c)
    (hb : b < 0x80) : String.utf8EncodeChar c = [b] := by
  have hlarge : ∀ n, 128 ≤ n → n < 256 → b = UInt8.ofNat n → False := by
    rintro n hn hlt rfl
    have hnat := UInt8.lt_iff_toNat_lt.mp hb
    change n % 256 < 128 at hnat
    omega
  simp only [String.utf8EncodeChar] at h ⊢
  split_ifs at h ⊢ <;> simp only [List.mem_cons, List.not_mem_nil, or_false] at h
  · rw [h]
  · obtain h | h := h <;> exact (hlarge _ (by omega) (by omega) h).elim
  · obtain h | h | h := h <;> exact (hlarge _ (by omega) (by omega) h).elim
  · obtain h | h | h | h := h <;> exact (hlarge _ (by omega) (by omega) h).elim

theorem as_bytes_inj {s t : String} (h : as_bytes s = as_bytes t) : s = t := by
  have hread := congrArg from_utf8 h
  rw [from_utf8_as_bytes, from_utf8_as_bytes] at hread
  exact Except.ok.inj hread

theorem as_bytes_of_from_utf8 {bytes : List UInt8} {s : String} (h : from_utf8 bytes = .ok s) :
    bytes = as_bytes s := by
  rw [from_utf8] at h
  cases hs : String.fromUTF8? bytes.toByteArray with
  | none =>
    rw [hs] at h
    cases h
  | some t =>
    rw [hs] at h
    cases h
    rw [String.fromUTF8?] at hs
    split_ifs at hs with hvalid
    have hbytes : bytes.toByteArray = s.toByteArray := by
      rw [← Option.some.inj hs]
      rfl
    rw [← String.ofList_toList (s := s), String.toByteArray_ofList, List.utf8Encode] at hbytes
    have hdata := congrArg (fun b : ByteArray => b.data.toList) hbytes
    simpa [as_bytes] using hdata

theorem ff_not_mem_of_from_utf8 {bytes : List UInt8} {s : String} (h : from_utf8 bytes = .ok s) :
    (0xff : UInt8) ∉ bytes := by
  rw [as_bytes_of_from_utf8 h, as_bytes]
  intro hmem
  obtain ⟨c, -, hc⟩ := List.mem_flatMap.mp hmem
  exact ne_ff_of_mem_utf8EncodeChar hc rfl

/-- `String::from_utf8_lossy`: each wrong sequence becomes one `U+FFFD`. -/
def from_utf8_lossy (bytes : List UInt8) : String :=
  match h : from_utf8 bytes with
  | .ok s => s
  | .error err =>
    (from_utf8 (bytes.take err.valid_up_to)).toOption.getD "" ++ "\uFFFD" ++
      match err.error_len with
      | some (n + 1) => from_utf8_lossy (bytes.drop (err.valid_up_to + n + 1))
      | _ => ""
termination_by bytes.length
decreasing_by
  cases bytes with
  | nil => cases h.symm.trans (from_utf8_as_bytes "")
  | cons b bytes =>
    rw [List.length_drop, List.length_cons]
    omega

theorem from_utf8_lossy_as_bytes (s : String) : from_utf8_lossy (as_bytes s) = s := by
  rw [from_utf8_lossy]
  split
  · rename_i t h
    exact (Except.ok.inj ((from_utf8_as_bytes s).symm.trans h)).symm
  · rename_i h
    cases (from_utf8_as_bytes s).symm.trans h

theorem from_utf8_of_lossy {bytes : List UInt8} (h : '\uFFFD' ∉ (from_utf8_lossy bytes).toList) :
    from_utf8 bytes = .ok (from_utf8_lossy bytes) := by
  rw [from_utf8_lossy] at h ⊢
  split at h
  · assumption
  · simp at h

example : from_utf8 [0x61, 0xe2, 0x82] = .error ⟨1, none⟩ := by decide +kernel

end Text
