/-
Publishing a list into numbered slots, against a remembered version of it.

One pass over the list writes the value of each item into the slot of its position. An
item that the remembered version has at that position is skipped. A write may fail, and
the pass then stops with the slots half written. If the slots held the remembered version
and no write fails, they hold the new one, whatever was written in the end.
-/
import Mathlib.Data.List.Basic

set_option autoImplicit false

namespace Publish

section

variable {β γ : Type}

abbrev Slots (γ : Type) := Nat → Option γ

/-- How many writes succeed before one fails, and its error. -/
abbrev Failure := Option (Nat × String)

/-- The pass from a position on. It returns what is left of the failure to come. -/
def publish_from [DecidableEq β] (value : β → γ) (previous : List β) :
    (index : Nat) → List β → Failure → Slots γ → Except String Failure × Slots γ
  | _, [], failure, slots => (.ok failure, slots)
  | index, item :: items, failure, slots =>
    -- the remembered version has it here: taken to be in the slot
    if previous[index]? = some item then
      publish_from value previous (index + 1) items failure slots
    else
      match failure with
      | some (0, err) => (.error err, slots)
      | some (n + 1, err) =>
        publish_from value previous (index + 1) items (some (n, err))
          (Function.update slots index (some (value item)))
      | none =>
        publish_from value previous (index + 1) items none
          (Function.update slots index (some (value item)))

def publish [DecidableEq β] (value : β → γ) (previous items : List β) (failure : Failure)
    (slots : Slots γ) : Except String Failure × Slots γ :=
  publish_from value previous 0 items failure slots

/-- The slots have these values, from the first on. -/
def Held (slots : Slots γ) (values : List γ) : Prop :=
  ∀ i v, values[i]? = some v → slots i = some v

variable [DecidableEq β] {value : β → γ} {previous : List β}

section

variable {items : List β} {slots : Slots γ}

theorem publish_from_below {index : Nat} {failure : Failure} {i : Nat} (hi : i < index) :
    (publish_from value previous index items failure slots).2 i = slots i := by
  induction items generalizing index failure slots with
  | nil => rfl
  | cons item items ih =>
    rw [publish_from.eq_def]
    dsimp only
    split
    · exact ih (by omega)
    · split
      · rfl
      · rw [ih (by omega), Function.update_of_ne (by omega)]
      · rw [ih (by omega), Function.update_of_ne (by omega)]

/-- One item done, by a write or because it was there: the slot at the position has it,
and the slots after it still hold the remembered version. -/
theorem publish_from_held {index : Nat} {failure rest : Failure}
    (hprevious : ∀ i v, index ≤ i → (previous.map value)[i]? = some v → slots i = some v)
    (hok : (publish_from value previous index items failure slots).1 = .ok rest) {i : Nat} {v : γ}
    (hv : (items.map value)[i]? = some v) :
    (publish_from value previous index items failure slots).2 (index + i) = some v := by
  induction items generalizing index failure slots i with
  | nil => cases hv
  | cons item items ih =>
    -- a pass over the rest that starts with the item in its slot
    have hnext : ∀ (failure : Failure) (slots' : Slots γ), slots' index = some (value item) →
        (∀ i, index + 1 ≤ i → slots' i = slots i) →
        (publish_from value previous (index + 1) items failure slots').1 = .ok rest →
        (publish_from value previous (index + 1) items failure slots').2 (index + i) = some v := by
      intro failure slots' hitem hlater hok
      cases i with
      | zero =>
        obtain rfl : value item = v := Option.some.inj hv
        rw [publish_from_below (by omega)]
        exact hitem
      | succ i =>
        have hrest := ih (fun j w hj hw => by
          rw [hlater j hj]
          exact hprevious j w (by omega) hw) hok hv
        rwa [Nat.add_right_comm, Nat.add_assoc] at hrest
    have hwritten : ∀ j, index + 1 ≤ j →
        Function.update slots index (some (value item)) j = slots j := by
      intro j hj
      exact Function.update_of_ne (by omega) _ _
    rw [publish_from.eq_def] at hok ⊢
    dsimp only at hok ⊢
    by_cases hskip : previous[index]? = some item
    · rw [if_pos hskip] at hok ⊢
      -- not written: the slot has it, because it still holds the remembered version
      refine hnext failure slots (hprevious index _ (Nat.le_refl _) ?_) (fun _ _ => rfl) hok
      rw [List.getElem?_map, hskip]
      rfl
    · rw [if_neg hskip] at hok ⊢
      match failure with
      | some (0, err) => cases hok
      | some (n + 1, err) | none => exact hnext _ _ (Function.update_self ..) hwritten hok

/-- **A pass that returns leaves the list in the slots.** -/
theorem publish_held {failure rest : Failure} (hprevious : Held slots (previous.map value))
    (hok : (publish value previous items failure slots).1 = .ok rest) :
    Held (publish value previous items failure slots).2 (items.map value) := by
  intro i v hv
  have hheld := publish_from_held (fun i v _ => hprevious i v) hok hv
  rwa [Nat.zero_add] at hheld

end

theorem held_nil (slots : Slots γ) : Held slots [] := by
  nofun

end

end Publish
