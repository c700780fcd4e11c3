/-
Bitmaps kept as lists of 32-bit words, bit `i` in word `i / 32`.

The three facts a user needs: setting a bit adds that bit and no other, a bitmap
of zeros has none, and the word test `(word >> k) & 1 != 0` reads bit `k`.
-/
import Mathlib.Data.List.Basic

set_option autoImplicit false

namespace Bitmap

/-- Bit `i` of a bitmap; a bit past the last word is not set. -/
def has (bitmap : List (BitVec 32)) (bit : Nat) : Bool :=
  (bitmap[bit / 32]?).any fun (word : BitVec 32) => ((word >>> (bit % 32)) &&& 1#32) != 0#32

/-- Set bit `i`. The word has to be there. -/
def set (bitmap : List (BitVec 32)) (bit : Nat) : List (BitVec 32) :=
  bitmap.modify (bit / 32) (· ||| (1#32 <<< (bit % 32)))

theorem word_test (word : BitVec 32) (k : Nat) : (((word >>> k) &&& 1#32) != 0#32) = word.getLsbD k := by
  have hand : (word >>> k) &&& 1#32 = BitVec.setWidth 32 (BitVec.ofBool (word.getLsbD k)) := by
    refine BitVec.eq_of_getLsbD_eq fun i hi => ?_
    cases i with
    | zero => simp
    | succ i => simp [BitVec.getLsbD_one, BitVec.getLsbD_setWidth]
  rw [hand]
  cases word.getLsbD k <;> rfl

variable (bitmap : List (BitVec 32))

theorem has_eq_getLsbD (bit : Nat) : has bitmap bit = (bitmap[bit / 32]?).any (·.getLsbD (bit % 32)) := by
  simp only [has, word_test]

@[simp] theorem set_length (bit : Nat) : (set bitmap bit).length = bitmap.length := by
  rw [set, List.length_modify]

theorem has_replicate_zero (n bit : Nat) : has (List.replicate n 0#32) bit = false := by
  rw [has_eq_getLsbD, List.getElem?_replicate]
  split <;> simp

theorem has_set (i j : Nat) (hi : i / 32 < bitmap.length) :
    has (set bitmap i) j = (has bitmap j || decide (i = j)) := by
  rw [has_eq_getLsbD, has_eq_getLsbD, set, List.getElem?_modify]
  by_cases hword : i / 32 = j / 32
  · -- the same word: the bits differ only in the shift
    have hj : j / 32 < bitmap.length := by omega
    have hbit : (1#32 <<< (i % 32)).getLsbD (j % 32) = decide (i = j) := by
      have h32 : j % 32 < 32 := Nat.mod_lt j (by decide)
      by_cases hij : i = j
      · simp [hij, h32]
      · rw [decide_eq_false hij]
        by_cases hlt : j % 32 < i % 32
        · simp [hlt]
        · simp [show j % 32 - i % 32 ≠ 0 by omega]
    simp only [hword, if_true, List.getElem?_eq_getElem hj, Option.map_eq_map, Option.map_some,
      Option.any_some, BitVec.getLsbD_or, hbit]
  · have hij : i ≠ j := by
      intro h
      exact hword (by rw [h])
    simp [hword, hij]

end Bitmap
