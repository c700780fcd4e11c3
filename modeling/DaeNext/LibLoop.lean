/-
Loops of the sources that are not a walk over a list: `loop { … }` and `while`,
over an explicit loop state.

One turn of a loop either goes on with a new state or leaves with a result, and a
`Loop` carries the measure its turns decrease, so running one is a total function.
The rules are the ones every proof about such a loop needs: one turn, an invariant,
an induction on the turns left, the states a run goes through, and two loops that
agree on those states.
-/
import Mathlib.Data.List.Basic

set_option autoImplicit false

universe u v

/-- A loop body with the measure that shows it ends. -/
structure Loop (σ : Type u) (ρ : Type v) where
  step : σ → σ ⊕ ρ
  measure : σ → Nat
  decreases : ∀ s s', step s = .inl s' → measure s' < measure s

namespace Loop

variable {σ : Type u} {ρ : Type v}

def run (l : Loop σ ρ) (s : σ) : ρ :=
  match _h : l.step s with
  | .inl s' => l.run s'
  | .inr r => r
termination_by l.measure s
decreasing_by exact l.decreases s s' _h

variable (l : Loop σ ρ)

theorem run_inl {s s' : σ} (h : l.step s = .inl s') : l.run s = l.run s' := by
  rw [run]
  split
  · rename_i t ht
    rw [h] at ht
    cases ht
    rfl
  · rename_i r hr
    rw [h] at hr
    cases hr

theorem run_inr {s : σ} {r : ρ} (h : l.step s = .inr r) : l.run s = r := by
  rw [run]
  split
  · rename_i t ht
    rw [h] at ht
    cases ht
  · rename_i r' hr
    rw [h] at hr
    cases hr
    rfl

/-- Induction on the turns a loop still makes: a fact holds of a state when it holds of the
state the next turn leaves, if there is one. -/
theorem induct {P : σ → Prop} (h : ∀ s, (∀ s', l.step s = .inl s' → P s') → P s) (s : σ) : P s := by
  induction hm : l.measure s using Nat.strongRecOn generalizing s with
  | ind m ih =>
    apply h
    intro s' hs'
    exact ih (l.measure s') (by rw [← hm]; exact l.decreases s s' hs') s' rfl

theorem run_invariant {Inv : σ → Prop} {Q : ρ → Prop}
    (hstep : ∀ s s', Inv s → l.step s = .inl s' → Inv s')
    (hexit : ∀ s r, Inv s → l.step s = .inr r → Q r) {s : σ} (hs : Inv s) : Q (l.run s) := by
  induction s using l.induct with
  | h s ih =>
    cases hst : l.step s with
    | inl s' =>
      rw [l.run_inl hst]
      exact ih s' hst (hstep s s' hs hst)
    | inr r =>
      rw [l.run_inr hst]
      exact hexit s r hs hst

/-- The states a run goes through, the first one included. -/
def visited (l : Loop σ ρ) (s : σ) : List σ :=
  match _h : l.step s with
  | .inl s' => s :: l.visited s'
  | .inr _ => [s]
termination_by l.measure s
decreasing_by exact l.decreases s s' _h

theorem visited_inl {s s' : σ} (h : l.step s = .inl s') : l.visited s = s :: l.visited s' := by
  rw [visited]
  split
  · rename_i t ht
    rw [h] at ht
    cases ht
    rfl
  · rename_i r hr
    rw [h] at hr
    cases hr

theorem visited_inr {s : σ} {r : ρ} (h : l.step s = .inr r) : l.visited s = [s] := by
  rw [visited]
  split
  · rename_i t ht
    rw [h] at ht
    cases ht
  · rfl

theorem visited_length_le (s : σ) : (l.visited s).length ≤ l.measure s + 1 := by
  induction s using l.induct with
  | h s ih =>
    cases hst : l.step s with
    | inl s' =>
      rw [l.visited_inl hst, List.length_cons]
      have hle := ih s' hst
      have hlt := l.decreases s s' hst
      omega
    | inr r =>
      rw [l.visited_inr hst]
      exact Nat.succ_le_succ (Nat.zero_le _)

/-- Two loops that take the same turn in every state the first one goes through give the same
result. -/
theorem run_congr (l l' : Loop σ ρ) {s : σ} (h : ∀ t ∈ l.visited s, l'.step t = l.step t) :
    l'.run s = l.run s := by
  induction s using l.induct with
  | h s ih =>
    cases hst : l.step s with
    | inl s' =>
      rw [l.visited_inl hst] at h
      have hs : l'.step s = .inl s' := by
        rw [h s List.mem_cons_self, hst]
      rw [l.run_inl hst, l'.run_inl hs]
      exact ih s' hst (fun t ht => h t (List.mem_cons_of_mem _ ht))
    | inr r =>
      rw [l.visited_inr hst] at h
      have hs : l'.step s = .inr r := by
        rw [h s List.mem_cons_self, hst]
      rw [l.run_inr hst, l'.run_inr hs]

end Loop
