/-
The packet numbers of QUIC Initial packets (`dae-sniffing/src/quic.rs`).

A packet carries the last bytes of its number. The bytes before them are those of the number that is
expected next, unless the result is half a window off: the window next to it is meant then.
-/
import DaeNext.LibSaturating

set_option autoImplicit false

namespace DaeNext.Sniffing

open Nat

def MAX_PACKET_NUMBER : Nat := 2 ^ 62 - 1

/-- The end of `reconstruct_packet_number`. -/
def adjust (expected window candidate : Nat) : Nat :=
  let half_window := window / 2
  if Saturating.usize_add candidate half_window ≤ expected ∧ candidate ≤ MAX_PACKET_NUMBER - window then
    candidate + window
  else if Saturating.usize_add expected half_window < candidate ∧ window ≤ candidate then candidate - window
  else candidate

def reconstruct_packet_number (largest_authenticated : Option Nat) (truncated packet_number_len : Nat) : Nat :=
  let expected := (largest_authenticated.map fun largest =>
    min (Saturating.usize_add largest 1) MAX_PACKET_NUMBER).getD 0
  let window := 1 <<< (packet_number_len * 8)
  let mask := window - 1
  adjust expected window (expected &&& (2 ^ 64 - 1 - mask) ||| truncated)

/-- The number after the largest one. -/
def expected_next (largest_authenticated : Option Nat) : Nat := largest_authenticated.elim 0 (· + 1)

/-- Without its last bits a word is a multiple of the window. -/
theorem and_not_mask {e k : Nat} (he : e < 2 ^ 64) (hk : k ≤ 64) :
    e &&& (2 ^ 64 - 1 - (2 ^ k - 1)) = 2 ^ k * (e / 2 ^ k) := by
  have hpos := Nat.two_pow_pos k
  have hpow : 2 ^ k ≤ 2 ^ 64 := Nat.pow_le_pow_right (by decide) hk
  have hnot : 2 ^ 64 - 1 - (2 ^ k - 1) = 2 ^ 64 - (2 ^ k - 1 + 1) := by omega
  apply eq_of_testBit_eq
  intro i
  rw [hnot, testBit_and, testBit_two_pow_sub_succ (by omega), testBit_two_pow_sub_one, testBit_two_pow_mul,
    testBit_div_two_pow]
  rcases Nat.lt_or_ge i k with hlow | hhigh
  · simp [hlow, Nat.not_le.mpr hlow]
  · rw [Nat.sub_add_cancel hhigh]
    rcases Nat.lt_or_ge i 64 with hi | hi
    · simp [hhigh, hi]
    · simp [testBit_lt_two_pow (Nat.lt_of_lt_of_le he (Nat.pow_le_pow_right (by decide) hi))]

variable {expected window candidate : Nat}

theorem adjust_eq {p : Nat} (he : expected ≤ 2 ^ 62 - 1) (hw : window ≤ 2 ^ 32) (hp : p ≤ 2 ^ 62 - 1)
    (hlow : expected < p + window / 2) (hhigh : p ≤ expected + window / 2)
    (hc : p = candidate ∨ p = candidate + window ∨ p + window = candidate) :
    adjust expected window candidate = p := by
  simp only [adjust]
  split_ifs with hup hdown
  all_goals
    simp only [Saturating.usize_add, MAX_PACKET_NUMBER] at *
    omega

theorem adjust_mod : adjust expected window candidate % window = candidate % window := by
  simp only [adjust]
  split_ifs with hup hdown
  · exact add_mod_right _ _
  · exact (mod_eq_sub_mod hdown.2).symm
  · rfl

theorem adjust_le (hw : window ≤ 2 ^ 32) (hc : candidate ≤ 2 ^ 62 - 1) :
    adjust expected window candidate ≤ 2 ^ 62 - 1 := by
  simp only [adjust]
  split_ifs with hup hdown
  · rw [MAX_PACKET_NUMBER] at hup
    omega
  all_goals omega

/-- Every number within half a window of the expected one comes back from its last bytes. -/
theorem packet_number_reconstructed (largest_authenticated : Option Nat) {n : Nat} (hn : 1 ≤ n ∧ n ≤ 4) :
    (∀ p ≤ 2 ^ 62 - 1, expected_next largest_authenticated < p + 2 ^ (8 * n) / 2 →
      p ≤ expected_next largest_authenticated + 2 ^ (8 * n) / 2 →
      reconstruct_packet_number largest_authenticated (p % 2 ^ (8 * n)) n = p) ∧
    ∀ truncated,
      reconstruct_packet_number largest_authenticated truncated n % 2 ^ (8 * n) = truncated % 2 ^ (8 * n) ∧
      (truncated < 2 ^ (8 * n) →
        reconstruct_packet_number largest_authenticated truncated n ≤ 2 ^ 62 - 1) := by
  have hexpected : (largest_authenticated.map fun largest =>
      min (Saturating.usize_add largest 1) MAX_PACKET_NUMBER).getD 0
      = min (expected_next largest_authenticated) (2 ^ 62 - 1) := by
    cases largest_authenticated with
    | none => rfl
    | some largest =>
      dsimp only [Option.map_some, Option.getD_some, Saturating.usize_add, MAX_PACKET_NUMBER, expected_next,
        Option.elim_some]
      omega
  have he := Nat.min_le_right (expected_next largest_authenticated) (2 ^ 62 - 1)
  have hw : 2 ^ (8 * n) ≤ 2 ^ 32 := Nat.pow_le_pow_right (by decide) (by omega)
  simp only [reconstruct_packet_number, hexpected, one_shiftLeft, Nat.mul_comm n 8]
  rw [and_not_mask (Nat.lt_of_le_of_lt he (by decide)) (by omega)]
  generalize hbounded : min (expected_next largest_authenticated) (2 ^ 62 - 1) = expected at *
  -- a number whose last bits are 0 is joined with those of another
  have hjoin : ∀ t < 2 ^ (8 * n), 2 ^ (8 * n) * (expected / 2 ^ (8 * n)) ||| t
      = 2 ^ (8 * n) * (expected / 2 ^ (8 * n)) + t :=
    fun t ht => (two_pow_add_eq_or_of_lt ht _).symm
  refine ⟨fun p hp hlow hhigh => adjust_eq he hw hp ?_ ?_ ?_, fun truncated => ⟨?_, fun ht => adjust_le hw ?_⟩⟩
  · omega
  · omega
  · rw [hjoin _ (mod_lt _ (Nat.two_pow_pos _))]
    obtain rfl | rfl | rfl | rfl : n = 1 ∨ n = 2 ∨ n = 3 ∨ n = 4 := by omega
    all_goals omega
  · rw [adjust_mod, or_mod_two_pow, mul_mod_right, zero_or]
  · rw [hjoin _ ht]
    obtain rfl | rfl | rfl | rfl : n = 1 ∨ n = 2 ∨ n = 3 ∨ n = 4 := by omega
    all_goals omega

/-- The example of the QUIC specification. -/
theorem packet_number_reconstructed_rfc :
    reconstruct_packet_number (some 0xa82f30ea) (0xa82f9b32 % 2 ^ (8 * 2)) 2 = 0xa82f9b32 :=
  (packet_number_reconstructed (some 0xa82f30ea) (by decide)).1 0xa82f9b32 (by decide) (by decide) (by decide)

end DaeNext.Sniffing
