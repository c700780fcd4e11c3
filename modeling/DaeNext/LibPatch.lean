/-
Lists that are overwritten in place.

`copy_at` writes a range and leaves everything else, and two lists agree off a set of positions
when they have one length and the same elements elsewhere. A reader that stays off the set
cannot tell them apart.
-/
import Mathlib.Data.List.Basic

set_option autoImplicit false

namespace Patch

open List

variable {α : Type*}

/-- `list[offset..offset + source.len()].copy_from_slice(source)`, for a range inside the
list. -/
def copy_at (l : List α) (offset : Nat) (source : List α) : List α :=
  l.take offset ++ source ++ l.drop (offset + source.length)

section

variable {l source : List α} {offset i : Nat} (h : offset + source.length ≤ l.length)

include h

theorem length_copy_at : (copy_at l offset source).length = l.length := by
  rw [copy_at, length_append, length_append, length_take, length_drop]
  omega

theorem getElem?_copy_at_inside (hi : i < source.length) :
    (copy_at l offset source)[offset + i]? = source[i]? := by
  have hlen : (l.take offset).length = offset := by
    rw [length_take]
    omega
  rw [copy_at, append_assoc, getElem?_append_right (by omega), hlen,
    getElem?_append_left (by omega), Nat.add_sub_cancel_left]

theorem getElem?_copy_at_outside (hi : i < offset ∨ offset + source.length ≤ i) :
    (copy_at l offset source)[i]? = l[i]? := by
  have hlen : (l.take offset).length = offset := by
    rw [length_take]
    omega
  rw [copy_at, append_assoc]
  rcases hi with hi | hi
  · rw [getElem?_append_left (by omega), getElem?_take_of_lt hi]
  · rw [getElem?_append_right (by omega), getElem?_append_right (by omega), hlen, getElem?_drop]
    congr 1
    omega

end

/-- One length, and the same elements off the positions `S`. -/
structure AgreeOff (S : Nat → Prop) (a b : List α) : Prop where
  length_eq : a.length = b.length
  get_eq : ∀ i, ¬S i → a[i]? = b[i]?

namespace AgreeOff

variable {S T : Nat → Prop} {a b c : List α}

theorem refl (S : Nat → Prop) (a : List α) : AgreeOff S a a := ⟨rfl, fun _ _ => rfl⟩

theorem trans (hab : AgreeOff S a b) (hbc : AgreeOff S b c) : AgreeOff S a c :=
  ⟨hab.length_eq.trans hbc.length_eq, fun i hi => (hab.get_eq i hi).trans (hbc.get_eq i hi)⟩

theorem mono (h : AgreeOff S a b) (hST : ∀ i, S i → T i) : AgreeOff T a b :=
  ⟨h.length_eq, fun i hi => h.get_eq i (fun hs => hi (hST i hs))⟩

theorem copy_at {source : List α} {offset : Nat} (h : offset + source.length ≤ a.length)
    (hS : ∀ i, offset ≤ i → i < offset + source.length → S i) :
    AgreeOff S (copy_at a offset source) a := by
  refine ⟨length_copy_at h, ?_⟩
  intro i hi
  apply getElem?_copy_at_outside h
  by_contra hin
  rw [not_or, Nat.not_lt, Nat.not_le] at hin
  exact hi (hS i hin.1 hin.2)

end AgreeOff

end Patch
