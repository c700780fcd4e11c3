/-
Prefixes of bit vectors: three ways of saying that two words agree on their
first `bits` bits, and that they say the same.

Bit by bit from the top is what "longest prefix match" means; a comparison after
shifting the rest away is how it is usually computed; a pair of bounds is how a
prefix is stored when it has to be merged with others.
-/
import Mathlib.Algebra.Ring.Nat
import Mathlib.Data.List.Basic
import Mathlib.Order.Fin.Basic

set_option autoImplicit false

namespace PrefixBits

open BitVec

variable {w : Nat}

/-- The first `bits` bits of two words are the same. -/
def Agree (bits : Nat) (p a : BitVec w) : Prop := ∀ i < bits, p.getMsbD i = a.getMsbD i

instance (bits : Nat) (p a : BitVec w) : Decidable (Agree bits p a) :=
  inferInstanceAs (Decidable (∀ i < bits, _))

theorem ushiftRight_eq_iff (s : Nat) (p a : BitVec w) :
    p >>> s = a >>> s ↔ ∀ i, s ≤ i → i < w → p.getLsbD i = a.getLsbD i := by
  constructor
  · intro h i hs hi
    have := congrArg (fun x => x.getLsbD (i - s)) h
    simpa [getLsbD_ushiftRight, Nat.add_sub_cancel' hs] using this
  · intro h
    refine eq_of_getLsbD_eq fun i hi => ?_
    rw [getLsbD_ushiftRight, getLsbD_ushiftRight]
    -- past the width both words have zeros
    rcases Nat.lt_or_ge (s + i) w with hlt | hge
    · exact h (s + i) (Nat.le_add_right s i) hlt
    · rw [getLsbD_of_ge _ _ hge, getLsbD_of_ge _ _ hge]

variable {bits : Nat}

/-- **Agreement is equality after a shift.** -/
theorem agree_iff_ushiftRight (hbits : bits ≤ w) (p a : BitVec w) :
    Agree bits p a ↔ p >>> (w - bits) = a >>> (w - bits) := by
  rw [ushiftRight_eq_iff]
  simp only [Agree, getMsbD_eq_getLsbD]
  constructor
  · intro h i hs hi
    have := h (w - 1 - i) (by omega)
    -- counting from the top turns into counting from the bottom
    have hflip : w - 1 - (w - 1 - i) = i := by omega
    simpa [hflip, show w - 1 - i < w by omega] using this
  · intro h i hi
    rw [h (w - 1 - i) (by omega) (by omega)]

theorem toNat_shiftRight_eq_iff (s : Nat) (p a : BitVec w) :
    p.toNat >>> s = a.toNat >>> s ↔ p >>> s = a >>> s := by
  rw [← toNat_inj, toNat_ushiftRight, toNat_ushiftRight]

/-! ## Masks and bounds -/

def mask (w bits : Nat) : BitVec w :=
  if bits = 0 then 0 else BitVec.allOnes w <<< (w - bits)

theorem getLsbD_mask (hbits : bits ≤ w) (i : Nat) (hi : i < w) :
    (mask w bits).getLsbD i = decide (w - bits ≤ i) := by
  unfold mask
  split
  · rename_i h0
    simp [h0, hi]
  -- below the shift the word was filled with zeros
  · rcases Nat.lt_or_ge i (w - bits) with h | h
    · simp [h, hi, show i + bits < w by omega]
    · simp [h, hi, show i - (w - bits) < w by omega]

def low (bits : Nat) (p : BitVec w) : BitVec w := p &&& mask w bits

def high (bits : Nat) (p : BitVec w) : BitVec w := low bits p ||| ~~~ mask w bits

theorem low_ushiftRight (hbits : bits ≤ w) (p : BitVec w) :
    low bits p >>> (w - bits) = p >>> (w - bits) := by
  rw [ushiftRight_eq_iff]
  intro i hs hi
  simp [low, getLsbD_mask hbits i hi, hs]

theorem high_ushiftRight (hbits : bits ≤ w) (p : BitVec w) :
    high bits p >>> (w - bits) = p >>> (w - bits) := by
  rw [ushiftRight_eq_iff]
  intro i hs hi
  simp [high, low, getLsbD_mask hbits i hi, hs]

theorem low_congr (hbits : bits ≤ w) {p a : BitVec w} (h : p >>> (w - bits) = a >>> (w - bits)) :
    low bits p = low bits a := by
  refine eq_of_getLsbD_eq fun i hi => ?_
  simp only [low, getLsbD_and, getLsbD_mask hbits i hi]
  rcases Nat.lt_or_ge i (w - bits) with hlt | hge
  · simp [Nat.not_le.mpr hlt]
  · rw [(ushiftRight_eq_iff _ p a).mp h i hge hi]

theorem low_le (bits : Nat) (a : BitVec w) : (low bits a).toNat ≤ a.toNat := by
  exact Nat.and_le_left

theorem le_high (bits : Nat) (a : BitVec w) : a.toNat ≤ (high bits a).toNat := by
  -- with the host bits set it does not matter that they were cleared before
  have : high bits a = a ||| ~~~ mask w bits := by
    refine eq_of_getLsbD_eq fun i hi => ?_
    simp only [high, low, getLsbD_or, getLsbD_and, getLsbD_not, hi,
      decide_true, Bool.true_and]
    cases a.getLsbD i <;> cases (mask w bits).getLsbD i <;> rfl
  rw [this, toNat_or]
  exact Nat.left_le_or

/-- **A prefix is a range.** A word lies between the bounds of a prefix exactly
when it agrees with it. Shifting is monotone, which gives one direction; in the
other the bounds are those of the word itself. -/
theorem between_iff (hbits : bits ≤ w) (p a : BitVec w) :
    (low bits p).toNat ≤ a.toNat ∧ a.toNat ≤ (high bits p).toNat
      ↔ p >>> (w - bits) = a >>> (w - bits) := by
  constructor
  · rintro ⟨hlow, hhigh⟩
    have h1 : (low bits p >>> (w - bits)).toNat ≤ (a >>> (w - bits)).toNat := by
      simp only [toNat_ushiftRight, Nat.shiftRight_eq_div_pow]
      exact Nat.div_le_div_right hlow
    have h2 : (a >>> (w - bits)).toNat ≤ (high bits p >>> (w - bits)).toNat := by
      simp only [toNat_ushiftRight, Nat.shiftRight_eq_div_pow]
      exact Nat.div_le_div_right hhigh
    rw [low_ushiftRight hbits] at h1
    rw [high_ushiftRight hbits] at h2
    exact eq_of_toNat_eq (Nat.le_antisymm h1 h2)
  · intro h
    rw [high, low_congr hbits h]
    exact ⟨low_le bits a, le_high bits a⟩

theorem low_le_high (bits : Nat) (p : BitVec w) : (low bits p).toNat ≤ (high bits p).toNat := by
  exact Nat.left_le_or

/-! ## The saturating successor -/

/-- `saturating_add(1)` on words of width `w`. -/
def next_saturating (a : Fin (2 ^ w)) : Fin (2 ^ w) :=
  if h : a.val + 1 < 2 ^ w then ⟨a.val + 1, h⟩ else a

theorem next_saturating_le (a b : Fin (2 ^ w)) (h : a < b) : next_saturating a ≤ b := by
  unfold next_saturating
  split
  · exact h
  · exact h.le

theorem le_next_saturating (a : Fin (2 ^ w)) : a ≤ next_saturating a := by
  unfold next_saturating
  split
  · exact Nat.le_succ a.val
  · exact le_rfl

end PrefixBits
