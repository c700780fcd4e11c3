/-
IP addresses as the standard library has them: values, octets, the text parser
and the text form.

An address is a word, big end first; octets are read off it and read back. The
parser is the recursive descent of `core::net`: numbers without a leading zero in
dotted form, up to eight groups with one `::` in the other, and a dotted tail in
the place of the last two groups. A parser takes the characters left and gives
back a value with what it did not read; a failed one has read nothing.
-/
import DaeNext.LibText

set_option autoImplicit false

namespace Net

open List

/-- `std::net::IpAddr`. -/
inductive IpAddr where
  | V4 (addr : BitVec 32)
  | V6 (addr : BitVec 128)
  deriving DecidableEq

/-- `IpAddr::is_ipv4`. -/
def IpAddr.is_ipv4 : IpAddr → Bool
  | .V4 _ => true
  | .V6 _ => false

/-- Bits in an address of the family. -/
def IpAddr.width : IpAddr → Nat
  | .V4 _ => 32
  | .V6 _ => 128

/-! ## Octets -/

/-- `from_be_bytes`: big end first. -/
def from_be_bytes (bytes : List UInt8) : Nat := bytes.foldl (fun acc b => acc * 256 + b.toNat) 0

/-- The octets of a word of `n` bytes, big end first. -/
def be_bytes {w : Nat} (n : Nat) (x : BitVec w) : List UInt8 :=
  (List.range n).map (fun i => UInt8.ofNat (x >>> (8 * (n - 1 - i))).toNat)

theorem from_be_bytes_append (bytes : List UInt8) (b : UInt8) :
    from_be_bytes (bytes ++ [b]) = from_be_bytes bytes * 256 + b.toNat := by
  rw [from_be_bytes, foldl_append, foldl_cons, foldl_nil, from_be_bytes]

theorem be_bytes_succ {w : Nat} (n : Nat) (x : BitVec w) :
    be_bytes (n + 1) x = be_bytes n (x >>> 8) ++ [UInt8.ofNat x.toNat] := by
  rw [be_bytes, range_succ, map_append, map_singleton, be_bytes]
  congr 1
  · apply map_congr_left
    intro i hi
    have hlt := mem_range.mp hi
    have hshift : 8 * (n + 1 - 1 - i) = 8 + 8 * (n - 1 - i) := by omega
    rw [hshift, BitVec.shiftRight_add]
  · rw [Nat.add_sub_cancel, Nat.sub_self]
    rfl

theorem from_be_bytes_be_bytes {w : Nat} (n : Nat) (x : BitVec w) :
    from_be_bytes (be_bytes n x) = x.toNat % 256 ^ n := by
  induction n generalizing x with
  | zero => rw [Nat.pow_zero, Nat.mod_one]; rfl
  | succ n ih =>
    have hstep : x.toNat % 256 ^ (n + 1) = x.toNat % 256 + 256 * (x.toNat / 256 % 256 ^ n) := by
      rw [Nat.pow_succ', Nat.mod_mul]
    rw [be_bytes_succ, from_be_bytes_append, ih, BitVec.toNat_ushiftRight, Nat.shiftRight_eq_div_pow,
      UInt8.toNat_ofNat', hstep]
    change x.toNat / 256 % 256 ^ n * 256 + x.toNat % 256 = _
    omega

theorem length_be_bytes {w : Nat} (n : Nat) (x : BitVec w) : (be_bytes n x).length = n := by
  rw [be_bytes, length_map, length_range]

theorem ofNat_be_bytes_u32 (x : UInt32) : UInt32.ofNat (from_be_bytes (be_bytes 4 x.toBitVec)) = x := by
  have hlt : x.toNat < 256 ^ 4 := x.toNat_lt
  rw [from_be_bytes_be_bytes, UInt32.toNat_toBitVec, Nat.mod_eq_of_lt hlt, UInt32.ofNat_toNat]

theorem ofNat_be_bytes_u16 (x : UInt16) : UInt16.ofNat (from_be_bytes (be_bytes 2 x.toBitVec)) = x := by
  have hlt : x.toNat < 256 ^ 2 := x.toNat_lt
  rw [from_be_bytes_be_bytes, UInt16.toNat_toBitVec, Nat.mod_eq_of_lt hlt, UInt16.ofNat_toNat]

/-- `Ipv4Addr::octets`. -/
def ipv4_octets (addr : BitVec 32) : List UInt8 := be_bytes 4 addr

/-- `Ipv6Addr::octets`. -/
def ipv6_octets (addr : BitVec 128) : List UInt8 := be_bytes 16 addr

/-- `Ipv6Addr::from([u8; 16])`. -/
def ipv6_from_octets (octets : List UInt8) : BitVec 128 := BitVec.ofNat 128 (from_be_bytes octets)

theorem ipv6_from_octets_octets (addr : BitVec 128) : ipv6_from_octets (ipv6_octets addr) = addr := by
  rw [ipv6_from_octets, ipv6_octets, from_be_bytes_be_bytes, Nat.mod_eq_of_lt (b := 256 ^ 16) addr.isLt,
    BitVec.ofNat_toNat, BitVec.setWidth_eq]

/-! ## Reading -/

/-- A parser of the text left. -/
abbrev Parser (α : Type) := List Char → Option (α × List Char)

/-- `read_number` with a digit limit: no digit, too many, a leading zero that is
not allowed, or a value out of range all fail. -/
def read_number (radix max_digits max : Nat) (allow_leading_zero : Bool) : Parser Nat := fun cs =>
  let digits := cs.takeWhile (fun c => (Text.to_digit radix c).isSome)
  let value := digits.foldl (fun acc c => acc * radix + (Text.to_digit radix c).getD 0) 0
  if digits.length = 0 ∨ max_digits < digits.length then none
  else if !allow_leading_zero && digits.head? = some '0' && digits.length > 1 then none
  else if max < value then none
  else some (value, cs.drop digits.length)

/-- `read_separator`: the separator stands before every element but the first. -/
def read_separator {α : Type} (sep : Char) (index : Nat) (inner : Parser α) : Parser α := fun cs =>
  if index = 0 then inner cs
  else
    match cs with
    | c :: rest => if c = sep then inner rest else none
    | [] => none

/-- `read_ipv4_addr`: four decimal numbers. -/
def read_ipv4_addr : Parser (BitVec 32) := fun cs => do
  let octet := read_number 10 3 255 false
  let (a, cs) ← read_separator '.' 0 octet cs
  let (b, cs) ← read_separator '.' 1 octet cs
  let (c, cs) ← read_separator '.' 2 octet cs
  let (d, cs) ← read_separator '.' 3 octet cs
  return (BitVec.ofNat 32 (((a * 256 + b) * 256 + c) * 256 + d), cs)

/-- `read_groups`: up to `left` groups, the last two of which may be dotted. The
flag says whether they were. -/
def read_groups : (left index : Nat) → List Char → List Nat × Bool × List Char
  | 0, _, cs => ([], false, cs)
  | left + 1, index, cs =>
    -- a dotted end takes two groups, so it is not tried for the last one
    let dotted := if 0 < left then read_separator ':' index read_ipv4_addr cs else none
    match dotted with
    | some (addr, rest) => ([addr.toNat / 65536, addr.toNat % 65536], true, rest)
    | none =>
      match read_separator ':' index (read_number 16 4 65535 true) cs with
      | none => ([], false, cs)
      | some (group, rest) =>
        let (groups, ipv4, rest) := read_groups left (index + 1) rest
        (group :: groups, ipv4, rest)

/-- The address of eight groups. -/
def ipv6_from_groups (groups : List Nat) : BitVec 128 :=
  BitVec.ofNat 128 (groups.foldl (fun acc g => acc * 65536 + g) 0)

/-- `read_ipv6_addr`: eight groups, or fewer on both sides of a `::`. -/
def read_ipv6_addr : Parser (BitVec 128) := fun cs =>
  match read_groups 8 0 cs with
  | (head, ipv4, rest) =>
    if head.length = 8 then some (ipv6_from_groups head, rest)
    else if ipv4 then none
    else
      match rest with
      | ':' :: ':' :: rest =>
        -- `::` stands for one group at least
        let (tail, _, rest) := read_groups (7 - head.length) 0 rest
        let zeros := List.replicate (8 - head.length - tail.length) 0
        some (ipv6_from_groups (head ++ zeros ++ tail), rest)
      | _ => none

/-- `Ipv4Addr::from_str`: the text has to be used up. -/
def ipv4_from_str (s : String) : Option (BitVec 32) :=
  match read_ipv4_addr s.toList with
  | some (addr, []) => some addr
  | _ => none

/-- `Ipv6Addr::from_str`. -/
def ipv6_from_str (s : String) : Option (BitVec 128) :=
  match read_ipv6_addr s.toList with
  | some (addr, []) => some addr
  | _ => none

/-- The `Display` of `AddrParseError` for either family. -/
def addr_parse_error : String := "invalid IP address syntax"

/-- `IpAddr::from_str`: the dotted form is tried first, and the text has to be
used up. -/
def IpAddr.from_str (s : String) : Except String IpAddr :=
  match read_ipv4_addr s.toList with
  | some (addr, []) => .ok (.V4 addr)
  | some (_, _ :: _) => .error addr_parse_error
  | none =>
    match read_ipv6_addr s.toList with
    | some (addr, []) => .ok (.V6 addr)
    | _ => .error addr_parse_error

/-! ## Writing -/

/-- `Display` of an `Ipv4Addr`. -/
def ipv4_to_string (addr : BitVec 32) : String :=
  ".".intercalate ((ipv4_octets addr).map (fun b => toString b.toNat))

/-- The eight groups of an address. -/
def ipv6_segments (addr : BitVec 128) : List Nat :=
  (List.range 8).map (fun i => (addr >>> (16 * (7 - i))).toNat % 65536)

/-- The first longest run of zero groups, as start and length. -/
def longest_zeroes (segments : List Nat) : Nat × Nat :=
  (segments.foldl (fun (i, current, longest) segment =>
    if segment = 0 then
      let current : Nat × Nat := if current.2 = 0 then (i, 1) else (current.1, current.2 + 1)
      (i + 1, current, if longest.2 < current.2 then current else longest)
    else (i + 1, (0, 0), longest)) (0, ((0, 0) : Nat × Nat), ((0, 0) : Nat × Nat))).2.2

/-- Groups in hexadecimal with colons between them. -/
def fmt_subslice (chunk : List Nat) : String :=
  ":".intercalate (chunk.map (fun segment => String.ofList (Nat.toDigits 16 segment)))

/-- `Display` of an `Ipv6Addr`: a v4-mapped address ends in dotted form, and
otherwise the longest run of two or more zero groups is left out. -/
def ipv6_to_string (addr : BitVec 128) : String :=
  if addr >>> 32 = 0xffff#128 then "::ffff:" ++ ipv4_to_string (addr.setWidth 32)
  else
    let segments := ipv6_segments addr
    let (start, len) := longest_zeroes segments
    if 1 < len then
      fmt_subslice (segments.take start) ++ "::" ++ fmt_subslice (segments.drop (start + len))
    else fmt_subslice segments

/-- `Display` of an `IpAddr`. -/
def IpAddr.to_string : IpAddr → String
  | .V4 addr => ipv4_to_string addr
  | .V6 addr => ipv6_to_string addr

end Net
