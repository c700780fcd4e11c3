/-
Runs of a machine that takes one event at a time.

`after` is the state that a list of events leaves. A property of the state, and of the events so
far, holds after every run if it holds at the start and each further event keeps it.
-/
import Mathlib.Data.List.Induction

set_option autoImplicit false

namespace Run

variable {σ ε : Type} (step : σ → ε → σ) (init : σ)

def after (events : List ε) : σ := events.foldl step init

theorem after_concat (events : List ε) (event : ε) :
    after step init (events ++ [event]) = step (after step init events) event := by
  rw [after, List.foldl_append]
  rfl

variable {step init}

theorem invariant {P : List ε → σ → Prop} (hinit : P [] init)
    (hstep : ∀ events state event, P events state → P (events ++ [event]) (step state event))
    (events : List ε) : P events (after step init events) := by
  induction events using List.reverseRecOn with
  | nil => exact hinit
  | append_singleton events event ih =>
    rw [after_concat]
    exact hstep events _ event ih

end Run
