/-
Longest-prefix-match tries, by what a lookup answers.

A key is a bit string with a length. A lookup finds something when an entry no
longer than the key agrees with it on all of the entry's bits; which one is
longest does not matter to a reader that only asks whether there is one. Keys are
kept as bytes, first bit on top, as tries over network addresses keep them, and
`bit_be_bytes` says which bit of a word that is.
-/
import DaeNext.LibNet
import Mathlib.Data.List.GetD

set_option autoImplicit false

namespace Lpm

/-- Bit `i` of a byte string, from the top of the first byte. -/
def bit (data : List UInt8) (i : Nat) : Bool := (data.getD (i / 8) 0).toBitVec.getMsbD (i % 8)

structure Key where
  prefix_len : Nat
  data : List UInt8
  deriving DecidableEq

def Key.covers (entry key : Key) : Bool :=
  entry.prefix_len ≤ key.prefix_len
    && (List.range entry.prefix_len).all fun i => bit entry.data i == bit key.data i

def lookup (entries : List Key) (key : Key) : Bool := entries.any (·.covers key)

theorem Key.covers_iff (entry key : Key) :
    entry.covers key = true ↔ entry.prefix_len ≤ key.prefix_len
      ∧ ∀ i < entry.prefix_len, bit entry.data i = bit key.data i := by
  simp [covers]

theorem bit_append_left {front : List UInt8} (back : List UInt8) {i : Nat}
    (hi : i < 8 * front.length) : bit (front ++ back) i = bit front i := by
  rw [bit, List.getD_append _ _ _ _ (by omega)]
  rfl

theorem bit_append_right (front back : List UInt8) (i : Nat) :
    bit (front ++ back) (8 * front.length + i) = bit back i := by
  rw [bit, List.getD_append_right _ _ _ _ (by omega),
    show (8 * front.length + i) / 8 - front.length = i / 8 by omega,
    show (8 * front.length + i) % 8 = i % 8 by omega]
  rfl

theorem bit_be_bytes {n : Nat} (x : BitVec (8 * n)) {i : Nat} (hi : i < 8 * n) :
    bit (Net.be_bytes n x) i = x.getMsbD i := by
  have hbyte : (Net.be_bytes n x).getD (i / 8) 0
      = UInt8.ofNat (x >>> (8 * (n - 1 - i / 8))).toNat := by
    rw [Net.be_bytes, List.getD_eq_getElem _ _ (by simp; omega)]
    simp
  have hbits : (UInt8.ofNat (x >>> (8 * (n - 1 - i / 8))).toNat).toBitVec
      = (x >>> (8 * (n - 1 - i / 8))).setWidth 8 := BitVec.ofNat_toNat 8 _
  rw [bit, hbyte, hbits, BitVec.getMsbD_eq_getLsbD, BitVec.getMsbD_eq_getLsbD,
    BitVec.getLsbD_setWidth, BitVec.getLsbD_ushiftRight,
    show 8 * (n - 1 - i / 8) + (8 - 1 - i % 8) = 8 * n - 1 - i by omega]
  simp [hi, show i % 8 < 8 by omega, show 7 - i % 8 < 8 by omega]

end Lpm
