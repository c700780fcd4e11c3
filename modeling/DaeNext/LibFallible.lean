/-
Taking apart computations in `Except` that are known to have succeeded.

The `?` operator of the sources is the monad's bind, a `collect` into a `Result`
is `List.mapM`. Each comes with the
inversion that a proof about a successful run needs.
-/
import Mathlib.Data.List.Basic

set_option autoImplicit false

namespace Fallible

open List

variable {ε α β : Type} {f : α → Except ε β} {x : Except ε α} {b : β}

theorem bind_ok (h : (x >>= f) = .ok b) : ∃ a, x = .ok a ∧ f a = .ok b := by
  cases x with
  | error e => cases h
  | ok a => exact ⟨a, rfl, h⟩

/-- The last `?` before the result. -/
theorem bind_pure_ok {g : α → β} (h : (x >>= fun a => .ok (g a)) = .ok b) : ∃ a, x = .ok a ∧ g a = b := by
  obtain ⟨a, ha, hb⟩ := bind_ok h
  exact ⟨a, ha, Except.ok.inj hb⟩

theorem map_ok {g : α → β} (h : x.map g = .ok b) : ∃ a, x = .ok a ∧ g a = b := bind_pure_ok h

theorem ok_bind (a : α) (f : α → Except ε β) : (Except.ok a >>= f) = f a := rfl

/-- An early return that was not taken. -/
theorem guard_ok {c : Prop} [Decidable c] {e : ε} {x : Except ε β}
    (h : (if c then throw e >>= f else x) = .ok b) : ¬ c ∧ x = .ok b := by
  by_cases hc : c
  · rw [if_pos hc] at h
    cases h
  · rw [if_neg hc] at h
    exact ⟨hc, h⟩

/-- A step with a state that an error keeps. -/
theorem run_bind_ok {σ : Type} {x : ExceptT ε (StateM σ) α} {f : α → ExceptT ε (StateM σ) β}
    {s t : σ} (h : (x >>= f) s = (.ok b, t)) : ∃ a u, x s = (.ok a, u) ∧ f a u = (.ok b, t) := by
  rcases hx : x s with ⟨result, u⟩
  have hbind : (x >>= f) s = (ExceptT.bindCont f result) u := by
    change (ExceptT.bindCont f (x s).1) (x s).2 = _
    rw [hx]
  rw [hbind] at h
  cases result with
  | error e => cases h
  | ok a => exact ⟨a, u, rfl, h⟩

theorem run_pure_ok {σ : Type} {a b : α} {s t : σ}
    (h : (pure a : ExceptT ε (StateM σ) α) s = (.ok b, t)) : a = b ∧ s = t := by
  obtain ⟨hab, hst⟩ := Prod.mk.inj h
  exact ⟨Except.ok.inj hab, hst⟩

/-- `Result::map_err`. -/
def map_err {ε' : Type} (f : ε → ε') : Except ε α → Except ε' α
  | .ok a => .ok a
  | .error e => .error (f e)

theorem map_err_ok {ε' : Type} {f : ε → ε'} {a : α} (h : map_err f x = .ok a) : x = .ok a := by
  cases x with
  | error e => cases h
  | ok b =>
    cases h
    rfl

variable {l : List α} {r : List β}

theorem mapM_cons_ok {a : α} (h : (a :: l).mapM f = .ok r) :
    ∃ b bs, f a = .ok b ∧ l.mapM f = .ok bs ∧ r = b :: bs := by
  rw [mapM_cons] at h
  obtain ⟨b, hb, h⟩ := bind_ok h
  obtain ⟨bs, hbs, h⟩ := bind_ok h
  cases h
  exact ⟨b, bs, hb, hbs, rfl⟩

theorem mapM_nil_ok (h : [].mapM f = .ok r) : r = [] := by
  cases h
  rfl

theorem mapM_any {p : β → Bool} {q : α → Bool} (hpq : ∀ a ∈ l, ∀ b, f a = .ok b → p b = q a)
    (h : l.mapM f = .ok r) : r.any p = l.any q := by
  induction l generalizing r with
  | nil =>
    rw [mapM_nil_ok h]
    rfl
  | cons a l ih =>
    obtain ⟨b, bs, hb, hbs, rfl⟩ := mapM_cons_ok h
    rw [any_cons, any_cons, hpq a mem_cons_self b hb,
      ih (fun x hx => hpq x (mem_cons_of_mem a hx)) hbs]

theorem mapM_mem_ok (h : l.mapM f = .ok r) : ∀ a ∈ l, ∃ b, f a = .ok b := by
  induction l generalizing r with
  | nil => simp
  | cons x l ih =>
    obtain ⟨b, bs, hb, hbs, rfl⟩ := mapM_cons_ok h
    intro a ha
    rcases mem_cons.mp ha with rfl | ha
    · exact ⟨b, hb⟩
    · exact ih hbs a ha

theorem mapM_ok_of_forall (h : ∀ a ∈ l, ∃ b, f a = .ok b) : ∃ r, l.mapM f = .ok r := by
  induction l with
  | nil => exact ⟨[], mapM_nil⟩
  | cons a l ih =>
    obtain ⟨b, hb⟩ := h a mem_cons_self
    obtain ⟨bs, hbs⟩ := ih (fun x hx => h x (mem_cons_of_mem a hx))
    exact ⟨b :: bs, by rw [mapM_cons, hb, hbs]; rfl⟩

theorem mapM_length (h : l.mapM f = .ok r) : r.length = l.length := by
  induction l generalizing r with
  | nil =>
    rw [mapM_nil_ok h]
    rfl
  | cons a l ih =>
    obtain ⟨b, bs, -, hbs, rfl⟩ := mapM_cons_ok h
    rw [length_cons, length_cons, ih hbs]

theorem mapM_getElem? (h : l.mapM f = .ok r) {i : Nat} (hb : r[i]? = some b) :
    ∃ a, l[i]? = some a ∧ f a = .ok b := by
  induction l generalizing r i with
  | nil =>
    rw [mapM_nil_ok h] at hb
    cases hb
  | cons a l ih =>
    obtain ⟨c, cs, hc, hcs, rfl⟩ := mapM_cons_ok h
    cases i with
    | zero =>
      cases hb
      exact ⟨a, rfl, hc⟩
    | succ i => exact ih hcs hb

theorem mapM_perm {l' : List α} (hperm : l'.Perm l) (h : l.mapM f = .ok r) :
    ∃ r', l'.mapM f = .ok r' ∧ r'.Perm r := by
  induction hperm generalizing r with
  | nil => exact ⟨r, h, List.Perm.refl r⟩
  | cons a _ ih =>
    obtain ⟨b, bs, hb, hbs, rfl⟩ := mapM_cons_ok h
    obtain ⟨bs', hbs', hperm⟩ := ih hbs
    exact ⟨b :: bs', by rw [mapM_cons, hb, hbs']; rfl, hperm.cons b⟩
  | swap a a' l =>
    obtain ⟨b, bs, hb, hbs, rfl⟩ := mapM_cons_ok h
    obtain ⟨c, cs, hc, hcs, rfl⟩ := mapM_cons_ok hbs
    refine ⟨c :: b :: cs, ?_, List.Perm.swap b c cs⟩
    rw [mapM_cons, mapM_cons, hb, hc, hcs]
    rfl
  | trans _ _ ih₁ ih₂ =>
    obtain ⟨r₁, h₁, hperm₁⟩ := ih₂ h
    obtain ⟨r₂, h₂, hperm₂⟩ := ih₁ h₁
    exact ⟨r₂, h₂, hperm₂.trans hperm₁⟩

/-- What one loop wrote, another one reads. -/
theorem mapM_mapM {γ : Type} {f' : β → Except ε γ} {g : α → γ}
    (hread : ∀ a ∈ l, ∀ b, f a = .ok b → f' b = .ok (g a)) (h : l.mapM f = .ok r) :
    r.mapM f' = .ok (l.map g) := by
  induction l generalizing r with
  | nil =>
    rw [mapM_nil_ok h]
    rfl
  | cons a l ih =>
    obtain ⟨b, bs, hb, hbs, rfl⟩ := mapM_cons_ok h
    rw [mapM_cons, hread a mem_cons_self b hb, ih (fun x hx => hread x (mem_cons_of_mem a hx)) hbs]
    rfl

/-- What was computed from a result holds of it. -/
theorem exists_of_map_toOption {g : α → β} (h : x.toOption.map g = some b) :
    ∃ a, x = .ok a ∧ g a = b := by
  cases x with
  | error e => cases h
  | ok a => exact ⟨a, rfl, Option.some.inj h⟩

theorem exists_of_isOk {result : Except ε α} (h : result.isOk = true) : ∃ a, result = .ok a := by
  cases result with
  | error err => cases h
  | ok a => exact ⟨a, rfl⟩

end Fallible
