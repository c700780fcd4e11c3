/-
Saturating arithmetic of 64-bit numbers.

A sum that does not fit is the largest number, and a difference below zero is zero. Both are as
on natural numbers, cut off at the ends.
-/
import Mathlib.Algebra.Ring.Nat

set_option autoImplicit false

namespace Saturating

/-- `u64::saturating_add`. -/
def add (a b : UInt64) : UInt64 :=
  if a.toNat + b.toNat < 2 ^ 64 then a + b else UInt64.ofNat (2 ^ 64 - 1)

/-- `u64::saturating_sub`. -/
def sub (a b : UInt64) : UInt64 := if b ≤ a then a - b else 0

/-- `usize::saturating_add`. -/
def usize_add (a b : Nat) : Nat := min (a + b) (2 ^ 64 - 1)

/-- `usize::saturating_mul`. -/
def usize_mul (a b : Nat) : Nat := min (a * b) (2 ^ 64 - 1)

theorem toNat_add (a b : UInt64) : (add a b).toNat = min (a.toNat + b.toNat) (2 ^ 64 - 1) := by
  rw [add]
  split_ifs with h
  · rw [UInt64.toNat_add, Nat.mod_eq_of_lt h]
    omega
  · rw [UInt64.toNat_ofNat']
    omega

theorem toNat_sub (a b : UInt64) : (sub a b).toNat = a.toNat - b.toNat := by
  rw [sub]
  split_ifs with h
  · exact UInt64.toNat_sub_of_le _ _ h
  · have hlt : a.toNat < b.toNat := UInt64.lt_iff_toNat_lt.mp (UInt64.not_le.mp h)
    rw [UInt64.toNat_zero]
    omega

end Saturating
