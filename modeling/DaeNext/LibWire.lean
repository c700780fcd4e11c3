/-
Little-endian fields of fixed width, and records made of them.

`le k n` is the low `k` bytes of `n`, `fromLe` reads bytes back: reading back gives `n`
modulo `256 ^ k`.

An encoding that is followed by other bytes can be read off them when one knows where
it ends. `Framed shape encode` says that this is so among values of one shape (the
length of a list inside, say), and it carries over to lists of such values.
-/
import Mathlib.Algebra.Ring.Nat
import Mathlib.Data.List.Basic

set_option autoImplicit false

namespace Wire

open List

/-- `to_le_bytes` of a value of `k` bytes. -/
def le : (k n : Nat) → List UInt8
  | 0, _ => []
  | k + 1, n => UInt8.ofNat n :: le k (n / 256)

/-- `from_le_bytes`. -/
def fromLe : List UInt8 → Nat
  | [] => 0
  | b :: bs => b.toNat + 256 * fromLe bs

@[simp] theorem le_length (k n : Nat) : (le k n).length = k := by
  induction k generalizing n with
  | zero => rfl
  | succ k ih => rw [le, length_cons, ih]

theorem fromLe_le (k n : Nat) : fromLe (le k n) = n % 256 ^ k := by
  induction k generalizing n with
  | zero => rw [le, fromLe, Nat.pow_zero, Nat.mod_one]
  | succ k ih =>
    have hbyte : (UInt8.ofNat n).toNat = n % 256 := by rw [UInt8.toNat_ofNat']
    rw [le, fromLe, ih, hbyte, Nat.pow_succ, Nat.mul_comm (256 ^ k) 256, Nat.mod_mul]

theorem ofNat_fromLe_u16 (x : UInt16) : UInt16.ofNat (fromLe (le 2 x.toNat)) = x := by
  rw [fromLe_le, Nat.mod_eq_of_lt (b := 256 ^ 2) x.toNat_lt, UInt16.ofNat_toNat]

theorem ofNat_fromLe_u32 (x : UInt32) : UInt32.ofNat (fromLe (le 4 x.toNat)) = x := by
  rw [fromLe_le, Nat.mod_eq_of_lt (b := 256 ^ 4) x.toNat_lt, UInt32.ofNat_toNat]

theorem le_append_inj {k n m : Nat} {u v : List UInt8} (hn : n < 256 ^ k) (hm : m < 256 ^ k)
    (h : le k n ++ u = le k m ++ v) : n = m ∧ u = v := by
  obtain ⟨hfield, hrest⟩ := append_inj h (by rw [le_length, le_length])
  -- reading back needs the bound: `le` keeps a number modulo `256 ^ k`
  have hread := congrArg fromLe hfield
  rw [fromLe_le, fromLe_le, Nat.mod_eq_of_lt hn, Nat.mod_eq_of_lt hm] at hread
  exact ⟨hread, hrest⟩

theorem u32_append_inj {x y : UInt32} {u v : List UInt8}
    (h : le 4 x.toNat ++ u = le 4 y.toNat ++ v) : x = y ∧ u = v := by
  obtain ⟨hfield, hrest⟩ := le_append_inj x.toNat_lt y.toNat_lt h
  exact ⟨UInt32.toNat_inj.mp hfield, hrest⟩

section

variable {α σ : Type}

/-- Values of one shape can be read off the bytes their encoding starts. -/
def Framed (shape : α → σ) (encode : α → List UInt8) : Prop :=
  ∀ a b u v, shape a = shape b → encode a ++ u = encode b ++ v → a = b ∧ u = v

theorem Framed.flatMap {shape : α → σ} {encode : α → List UInt8} (h : Framed shape encode) :
    Framed (List.map shape) fun l => l.flatMap encode := by
  intro l₁
  induction l₁ with
  | nil =>
    intro l₂ u v hshape heq
    obtain rfl := map_eq_nil_iff.mp hshape.symm
    exact ⟨rfl, heq⟩
  | cons a l₁ ih =>
    intro l₂ u v hshape heq
    cases l₂ with
    | nil => cases hshape
    | cons b l₂ =>
      obtain ⟨hhead, htail⟩ := cons.inj hshape
      simp only [flatMap_cons, append_assoc] at heq
      -- the head is read off, and what is left starts with the tail
      obtain ⟨rfl, hrest⟩ := h a b _ _ hhead heq
      obtain ⟨rfl, hend⟩ := ih l₂ u v htail hrest
      exact ⟨rfl, hend⟩

/-- Encodings of one length: the number of values is all one needs. -/
theorem Framed.flatMap_of_length {encode : α → List UInt8} (h : Framed (fun _ => ()) encode) :
    Framed List.length fun l => l.flatMap encode := by
  intro l₁ l₂ u v hlen heq
  refine h.flatMap l₁ l₂ u v ?_ heq
  rw [map_const', map_const', hlen]

end

end Wire
