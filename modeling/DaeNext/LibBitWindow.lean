/-
Bitmaps of 64-bit words that are shifted as a whole.

Bit `i` is in word `i / 64`. A shift by any number of bits goes from the last word down: what a
word becomes depends on itself and on lower words only, so the words can be overwritten in place.
Seen from outside, bit `i` of the result is bit `i - shift` of the operand.
-/
import Mathlib.Algebra.Ring.Nat
import Mathlib.Data.List.Basic

set_option autoImplicit false

namespace BitWindow

open List Nat
open BitVec hiding getElem?_eq_getElem

def word (words : List (BitVec 64)) (i : Nat) : BitVec 64 := words.getD i 0#64

/-- Bit `i`; past the last word none is set. -/
def bit (words : List (BitVec 64)) (i : Nat) : Bool := (word words (i / 64)).getLsbD (i % 64)

/-- `words[offset / 64] & (1 << offset % 64) != 0`. -/
def test (words : List (BitVec 64)) (offset : Nat) : Bool :=
  word words (offset / 64) &&& (1#64 <<< (offset % 64)) != 0#64

/-- `words[offset / 64] |= 1 << offset % 64`. -/
def set (words : List (BitVec 64)) (offset : Nat) : List (BitVec 64) :=
  words.modify (offset / 64) (· ||| (1#64 <<< (offset % 64)))

variable {words : List (BitVec 64)} {i : Nat}

theorem word_modify (f : BitVec 64 → BitVec 64) (h : i < words.length) (j : Nat) :
    word (words.modify i f) j = if i = j then f (word words j) else word words j := by
  rw [word, word, getD_eq_getElem?_getD, getD_eq_getElem?_getD, getElem?_modify]
  split_ifs with hij
  · rw [← hij, getElem?_eq_getElem h]
    rfl
  · rw [Option.map_eq_map, Option.map_id_fun', id_eq]

theorem word_set (value : BitVec 64) (h : i < words.length) (j : Nat) :
    word (words.set i value) j = if i = j then value else word words j := by
  rw [word, word, getD_eq_getElem?_getD, getD_eq_getElem?_getD, getElem?_set]
  split_ifs with hij
  · rfl
  · rfl

theorem bit_replicate_zero (n i : Nat) : bit (List.replicate n 0#64) i = false := by
  have hword : word (List.replicate n 0#64) (i / 64) = 0#64 := by
    rw [word, getD_eq_getElem?_getD, getElem?_replicate]
    split_ifs with h
    · rfl
    · rfl
  rw [bit, hword, getLsbD_zero]

theorem test_eq_bit (words : List (BitVec 64)) (offset : Nat) : test words offset = bit words offset := by
  have hlt : offset % 64 < 64 := mod_lt _ (by decide)
  rw [test, bit, ← twoPow_eq, and_twoPow]
  cases hbit : (word words (offset / 64)).getLsbD (offset % 64) with
  | false => rfl
  | true =>
    rw [if_pos rfl, bne_iff_ne]
    intro hzero
    have hone := congrArg (fun x => BitVec.getLsbD x (offset % 64)) hzero
    rw [getLsbD_twoPow, getLsbD_zero] at hone
    simp only [hlt, decide_true, Bool.and_self] at hone
    cases hone

theorem bit_set (h : i / 64 < words.length) (j : Nat) :
    bit (set words i) j = (bit words j || decide (i = j)) := by
  have hlt : i % 64 < 64 := mod_lt _ (by decide)
  rw [bit, bit, set, word_modify _ h]
  split_ifs with hword
  · rw [getLsbD_or, ← twoPow_eq, getLsbD_twoPow]
    congr 1
    rw [decide_eq_true hlt, Bool.true_and]
    exact decide_eq_decide.mpr (by omega)
  · rw [decide_eq_false (by omega), Bool.or_false]

/-- `words[offset / 64] &= !(1 << offset % 64)`. -/
def clear (words : List (BitVec 64)) (offset : Nat) : List (BitVec 64) :=
  words.modify (offset / 64) (· &&& ~~~(1#64 <<< (offset % 64)))

/-- Clear the bits `first` to `last` of one word. -/
def clear_range (words : List (BitVec 64)) (first last : Nat) : List (BitVec 64) :=
  words.modify (first / 64)
    (· &&& ~~~((BitVec.allOnes 64 <<< (first % 64)) &&& (BitVec.allOnes 64 >>> (63 - last % 64))))

theorem bit_clear (h : i / 64 < words.length) (j : Nat) :
    bit (clear words i) j = (bit words j && !decide (i = j)) := by
  have hi : i % 64 < 64 := mod_lt _ (by decide)
  have hj : j % 64 < 64 := mod_lt _ (by decide)
  rw [bit, bit, clear, word_modify _ h]
  split_ifs with hword
  · rw [getLsbD_and, getLsbD_not, ← twoPow_eq, getLsbD_twoPow,
      decide_eq_true hi, decide_eq_true hj, Bool.true_and, Bool.true_and]
    congr 2
    exact decide_eq_decide.mpr (by omega)
  · rw [decide_eq_false (by omega), Bool.not_false, Bool.and_true]

theorem bit_clear_range {first last : Nat} (h : first / 64 < words.length)
    (hword : first / 64 = last / 64) (j : Nat) :
    bit (clear_range words first last) j
      = (bit words j && !(decide (first ≤ j) && decide (j ≤ last))) := by
  have hj : j % 64 < 64 := mod_lt _ (by decide)
  rw [bit, bit, clear_range, word_modify _ h]
  split_ifs with hsame
  · have hlow : decide (j % 64 < first % 64) = !decide (first ≤ j) := by
      rw [← decide_not]
      exact decide_eq_decide.mpr (by omega)
    have hhigh : decide (63 - last % 64 + j % 64 < 64) = decide (j ≤ last) :=
      decide_eq_decide.mpr (by omega)
    rw [getLsbD_and, getLsbD_not, getLsbD_and, getLsbD_shiftLeft,
      getLsbD_ushiftRight, getLsbD_allOnes, getLsbD_allOnes,
      decide_eq_true hj, hlow, hhigh, decide_eq_true (show j % 64 - first % 64 < 64 by omega)]
    simp only [Bool.not_not, Bool.true_and, Bool.and_true]
  · have hout : ¬ (first ≤ j ∧ j ≤ last) := by omega
    rw [← Bool.decide_and, decide_eq_false hout, Bool.not_false, Bool.and_true]

/-! ## Counting -/

def count (words : List (BitVec 64)) (n : Nat) : Nat := (List.range n).countP (bit words)

theorem count_replicate_zero (m n : Nat) : count (List.replicate m 0#64) n = 0 := by
  rw [count, countP_eq_zero]
  intro i _
  rw [bit_replicate_zero]
  exact Bool.false_ne_true

/-- A test that differs at one place of a list without repetitions. -/
theorem countP_add_one {α : Type} [DecidableEq α] {p q : α → Bool} {l : List α} {i : α}
    (hnodup : l.Nodup) (hi : i ∈ l) (hp : p i = false)
    (hq : ∀ j, q j = (p j || decide (i = j))) : l.countP q = l.countP p + 1 := by
  induction l with
  | nil => cases hi
  | cons j l ih =>
    obtain ⟨hnot, hnodup⟩ := nodup_cons.mp hnodup
    rw [countP_cons, countP_cons, hq j]
    by_cases hij : i = j
    · have hrest : l.countP q = l.countP p := by
        apply countP_congr
        intro k hk
        have hne : i ≠ k := fun heq => hnot (hij ▸ heq ▸ hk)
        rw [hq k, decide_eq_false hne, Bool.or_false]
      rw [hrest, ← hij, hp, decide_eq_true rfl]
      rfl
    · have hmem := (mem_cons.mp hi).resolve_left hij
      rw [ih hnodup hmem, decide_eq_false hij, Bool.or_false]
      omega

variable {n : Nat}

theorem count_set (h : i / 64 < words.length) (hi : i < n) (hclear : bit words i = false) :
    count (set words i) n = count words n + 1 :=
  countP_add_one nodup_range (mem_range.mpr hi) hclear (bit_set h)

theorem count_clear (h : i / 64 < words.length) (hi : i < n) (hset : bit words i = true) :
    count words n = count (clear words i) n + 1 := by
  apply countP_add_one nodup_range (mem_range.mpr hi)
  · rw [bit_clear h, decide_eq_true rfl, Bool.not_true, Bool.and_false]
  · intro j
    rw [bit_clear h]
    by_cases hij : i = j
    · rw [decide_eq_true hij, ← hij, hset]
      rfl
    · rw [decide_eq_false hij, Bool.not_false, Bool.and_true, Bool.or_false]

/-- Bits that stand for the elements of a list without repetitions are as many as these. -/
theorem count_eq_length {l : List Nat} (hnodup : l.Nodup) (hlt : ∀ i ∈ l, i < n)
    (hbit : ∀ i < n, bit words i = decide (i ∈ l)) : count words n = l.length := by
  have hperm : ((List.range n).filter (bit words)).Perm l := by
    apply (perm_ext_iff_of_nodup (nodup_range.filter _) hnodup).mpr
    intro i
    rw [mem_filter, mem_range]
    constructor
    · rintro ⟨hi, hset⟩
      rw [hbit i hi] at hset
      exact of_decide_eq_true hset
    · intro hi
      exact ⟨hlt i hi, by rw [hbit i (hlt i hi), decide_eq_true hi]⟩
  rw [count, countP_eq_length_filter, hperm.length_eq]

/-- Two disjoint bitmaps fill a range exactly when no place is free in both. -/
theorem count_add_lt_iff {a b : List (BitVec 64)} (hapart : ∀ i, bit a i = true → bit b i = false) :
    count a n + count b n < n ↔ ∃ i < n, bit a i = false ∧ bit b i = false := by
  have hsum : count a n + count b n = (List.range n).countP (fun i => bit a i || bit b i) := by
    rw [count, count]
    generalize List.range n = l
    induction l with
    | nil => rfl
    | cons i l ih =>
      rw [countP_cons, countP_cons, countP_cons, ← ih]
      have hi := hapart i
      cases ha : bit a i with
      | false => simp only [Bool.false_or, Bool.false_eq_true, if_false]; omega
      | true =>
        rw [hi ha]
        simp only [Bool.or_false, Bool.false_eq_true, if_false, if_true]
        omega
  have hle := @List.countP_le_length _ (fun i => bit a i || bit b i) (List.range n)
  rw [length_range] at hle
  rw [hsum]
  constructor
  · intro hlt
    by_contra hnone
    have hall : (List.range n).countP (fun i => bit a i || bit b i) = (List.range n).length := by
      rw [countP_eq_length]
      intro i hi
      by_contra hfree
      rw [Bool.not_eq_true, Bool.or_eq_false_iff] at hfree
      exact hnone ⟨i, mem_range.mp hi, hfree.1, hfree.2⟩
    rw [hall, length_range] at hlt
    omega
  · rintro ⟨i, hi, ha, hb⟩
    by_contra hge
    have hall : (List.range n).countP (fun i => bit a i || bit b i) = (List.range n).length := by
      rw [length_range]
      omega
    have hset := countP_eq_length.mp hall i (mem_range.mpr hi)
    rw [ha, hb] at hset
    cases hset

/-! ## Shifts -/

/-- What word `destination` is after a shift by `word_shift` words and `bit_shift` bits. -/
def shifted (words : List (BitVec 64)) (word_shift bit_shift destination : Nat) : BitVec 64 :=
  if word_shift ≤ destination then
    let source := destination - word_shift
    let high := word words source <<< bit_shift
    if 0 < bit_shift ∧ 0 < source then high ||| (word words (source - 1) >>> (64 - bit_shift))
    else high
  else 0#64

/-- The words below `n`, shifted in place from the highest one down. -/
def shift_below (word_shift bit_shift : Nat) : Nat → List (BitVec 64) → List (BitVec 64)
  | 0, words => words
  | destination + 1, words =>
    shift_below word_shift bit_shift destination
      (words.set destination (shifted words word_shift bit_shift destination))

def shift (words : List (BitVec 64)) (by_bits : Nat) : List (BitVec 64) :=
  shift_below (by_bits / 64) (by_bits % 64) words.length words

theorem shifted_congr {words' : List (BitVec 64)} (word_shift bit_shift : Nat) {destination : Nat}
    (h : ∀ i ≤ destination, word words' i = word words i) :
    shifted words' word_shift bit_shift destination = shifted words word_shift bit_shift destination := by
  rw [shifted, shifted]
  dsimp only
  rw [h (destination - word_shift) (by omega), h (destination - word_shift - 1) (by omega)]

theorem length_shift_below (word_shift bit_shift n : Nat) (words : List (BitVec 64)) :
    (shift_below word_shift bit_shift n words).length = words.length := by
  induction n generalizing words with
  | zero => rfl
  | succ n ih => rw [shift_below, ih, length_set]

theorem word_shift_below (word_shift bit_shift : Nat) (h : n ≤ words.length) (i : Nat) :
    word (shift_below word_shift bit_shift n words) i
      = if i < n then shifted words word_shift bit_shift i else word words i := by
  induction n generalizing words with
  | zero => rw [shift_below, if_neg (Nat.not_lt_zero i)]
  | succ n ih =>
    rw [shift_below, ih (by rw [length_set]; omega), word_set _ (by omega)]
    rcases Nat.lt_trichotomy i n with hi | hi | hi
    · -- the word written last is above the ones still to be read
      rw [if_pos hi, if_pos (by omega)]
      apply shifted_congr
      intro j hj
      rw [word_set _ (by omega), if_neg (by omega)]
    · rw [if_neg (by omega), if_pos hi.symm, if_pos (by omega), hi]
    · rw [if_neg (by omega), if_neg (by omega), if_neg (by omega)]

theorem getLsbD_shifted (words : List (BitVec 64)) (word_shift bit_shift destination j : Nat)
    (hk : bit_shift < 64) (hj : j < 64) : (shifted words word_shift bit_shift destination).getLsbD j
      = (decide (64 * word_shift + bit_shift ≤ 64 * destination + j) &&
        bit words (64 * destination + j - (64 * word_shift + bit_shift))) := by
  rw [shifted]
  by_cases hle : word_shift ≤ destination
  · rw [if_pos hle]
    dsimp only
    obtain ⟨source, rfl⟩ := Nat.exists_eq_add_of_le hle
    rw [Nat.add_sub_cancel_left]
    by_cases hlow : j < bit_shift
    · -- the low bits come from the word below
      cases source with
      | zero =>
        have hnone : ¬(64 * word_shift + bit_shift ≤ 64 * (word_shift + 0) + j) := by omega
        rw [if_neg (by omega), getLsbD_shiftLeft, decide_eq_true hlow, decide_eq_false hnone]
        simp only [Bool.not_true, Bool.and_false, Bool.false_and]
      | succ source =>
        have hindex : 64 * (word_shift + (source + 1)) + j - (64 * word_shift + bit_shift)
            = 64 * source + (64 - bit_shift + j) := by omega
        have hge : 64 * word_shift + bit_shift ≤ 64 * (word_shift + (source + 1)) + j := by omega
        rw [if_pos ⟨by omega, by omega⟩, getLsbD_or, getLsbD_shiftLeft,
          getLsbD_ushiftRight, decide_eq_true hlow, decide_eq_true hge, hindex, bit,
          mul_add_div (by decide), mul_add_mod, div_eq_of_lt (by omega),
          mod_eq_of_lt (by omega), Nat.add_sub_cancel]
        simp only [Bool.not_true, Bool.and_false, Bool.false_and, Bool.false_or, Bool.true_and,
          Nat.add_zero]
    · have hindex : 64 * (word_shift + source) + j - (64 * word_shift + bit_shift)
          = 64 * source + (j - bit_shift) := by omega
      have hhigh : (word words source <<< bit_shift).getLsbD j
          = (word words source).getLsbD (j - bit_shift) := by
        rw [getLsbD_shiftLeft, decide_eq_true hj, decide_eq_false hlow]
        simp only [Bool.not_false, Bool.and_self, Bool.true_and]
      have hnone : (word words (source - 1) >>> (64 - bit_shift)).getLsbD j = false := by
        rw [getLsbD_ushiftRight]
        exact getLsbD_of_ge _ _ (by omega)
      rw [hindex, bit, mul_add_div (by decide), mul_add_mod, div_eq_of_lt (by omega),
        mod_eq_of_lt (by omega), Nat.add_zero, decide_eq_true (by omega), Bool.true_and, ← hhigh]
      split_ifs with hlower
      · rw [getLsbD_or, hnone, Bool.or_false]
      · rfl
  · rw [if_neg hle, getLsbD_zero, decide_eq_false (by omega), Bool.false_and]

theorem length_shift (words : List (BitVec 64)) (by_bits : Nat) :
    (shift words by_bits).length = words.length := length_shift_below _ _ _ _

theorem bit_shift (by_bits : Nat) (h : i / 64 < words.length) :
    bit (shift words by_bits) i = (decide (by_bits ≤ i) && bit words (i - by_bits)) := by
  rw [bit, shift, word_shift_below _ _ le_rfl, if_pos h,
    getLsbD_shifted _ _ _ _ _ (mod_lt _ (by decide)) (mod_lt _ (by decide)),
    div_add_mod, div_add_mod]

/-! ## The last word -/

/-- `words[last] &= (1 << used_bits) - 1`. -/
def mask_last (words : List (BitVec 64)) (used_bits : Nat) : List (BitVec 64) :=
  words.modify (words.length - 1) (· &&& ((1#64 <<< used_bits) - 1#64))

theorem getLsbD_low_mask {used_bits : Nat} (hused : used_bits < 64) (j : Nat) :
    ((1#64 <<< used_bits) - 1#64).getLsbD j = decide (j < used_bits) := by
  have hpow : 2 ^ used_bits < 2 ^ 64 := Nat.pow_lt_pow_right (by decide) hused
  have hpos : 0 < 2 ^ used_bits := Nat.two_pow_pos _
  have hnat : ((1#64 <<< used_bits) - 1#64).toNat = 2 ^ used_bits - 1 := by
    rw [← twoPow_eq, toNat_sub, toNat_twoPow, toNat_one (by decide),
      mod_eq_of_lt hpow]
    omega
  rw [BitVec.getLsbD, hnat, testBit_two_pow_sub_one]

theorem bit_mask_last {used_bits : Nat} (hused : used_bits < 64)
    (hi : i < 64 * (words.length - 1) + used_bits) (hlen : 0 < words.length) :
    bit (mask_last words used_bits) i = bit words i := by
  rw [bit, bit, mask_last, word_modify _ (by omega)]
  split_ifs with hword
  · rw [getLsbD_and, getLsbD_low_mask hused, decide_eq_true (by omega), Bool.and_true]
  · rfl

end BitWindow
