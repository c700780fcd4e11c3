/-
Applies and stops of the runtime (`dae-product-runtime/src/coordinator.rs`).

Every atomic access and every lock or unlock is one step, and steps of any number of calls
interleave. An apply first looks for pending stops and then loads the stop epoch; a stop that
registers and advances the epoch between these two is not seen by the check under the gate once it
has finished. The record that `summary` reports is left out.
-/
import DaeNext.LibRun
import Mathlib.Algebra.Ring.Nat

set_option autoImplicit false

namespace DaeNext.RuntimeApplyCoordinator

open List Option

def SUPERSEDED : String := "runtime apply intent was superseded by stop"
def POISONED : String := "runtime apply coordinator lock poisoned"
def BUSY : String := "runtime apply gate busy; intent rejected after 30s"

/-- Where a call of `begin_apply` or `begin_stop`, or the permit it returned, stands. -/
inductive Call where
  | started
  | admitted
  | waiting (accepted_stop_epoch : Nat)
  | locked (accepted_stop_epoch : Nat)
  | unchanged
  | superseded
  | granted
  | stop_started
  | registered
  | stop_waiting
  | stop_poisoned
  | stop_granted
  | released (panics : Bool)
  | refused (message : String)
  | finished
deriving DecidableEq, Repr

structure Shared where
  gate : Option Nat := none
  poisoned : Bool := false
  stop_epoch : Nat := 0
  stop_pending : Nat := 0
deriving DecidableEq, Repr

/-- The next step of call `id`. `bad`: the deadline for the gate has passed, or the permit is
dropped by a panic. -/
def advance (self : Shared) (id : Nat) (bad : Bool) : Call → Call × Shared
  | .started => if self.stop_pending ≠ 0 then (.refused SUPERSEDED, self) else (.admitted, self)
  | .admitted => (.waiting self.stop_epoch, self)
  | .waiting accepted =>
    if self.gate ≠ none then if bad then (.refused BUSY, self) else (.waiting accepted, self)
    else if self.poisoned then (.refused POISONED, self)
    else (.locked accepted, { self with gate := some id })
  | .locked accepted => if self.stop_epoch ≠ accepted then (.superseded, self) else (.unchanged, self)
  | .unchanged => if self.stop_pending ≠ 0 then (.superseded, self) else (.granted, self)
  | .superseded => (.refused SUPERSEDED, { self with gate := none })
  | .granted => (.finished, { self with gate := none, poisoned := self.poisoned || bad })
  | .stop_started => (.registered, { self with stop_pending := self.stop_pending + 1 })
  | .registered => (.stop_waiting, { self with stop_epoch := self.stop_epoch + 1 })
  | .stop_waiting =>
    if self.gate ≠ none then (.stop_waiting, self)
    else if self.poisoned then (.stop_poisoned, self)
    else (.stop_granted, { self with gate := some id })
  | .stop_poisoned => (.refused POISONED, { self with stop_pending := self.stop_pending - 1 })
  | .stop_granted => (.released bad, { self with stop_pending := self.stop_pending - 1 })
  | .released panics => (.finished, { self with gate := none, poisoned := self.poisoned || panics })
  | .refused message => (.refused message, self)
  | .finished => (.finished, self)

/-- The calls in the order they drew their intent, the first of which is 1. -/
structure State where
  shared : Shared := {}
  calls : List Call := []
deriving DecidableEq, Repr

inductive Event where
  | begin_apply
  | begin_stop
  | next (id : Nat) (bad : Bool)
deriving DecidableEq, Repr

def step (self : State) : Event → State
  | .begin_apply => { self with calls := self.calls ++ [.started] }
  | .begin_stop => { self with calls := self.calls ++ [.stop_started] }
  | .next id bad =>
    match self.calls[id]? with
    | none => self
    | some call =>
      { shared := (advance self.shared id bad call).2
        calls := self.calls.set id (advance self.shared id bad call).1 }

def run (events : List Event) : State := Run.after step {} events

/-! ## The counter and the gate -/

/-- A stop that has registered and has not been released. -/
def Call.pending : Call → Bool
  | .registered | .stop_waiting | .stop_poisoned | .stop_granted => true
  | _ => false

def Call.holds_gate : Call → Bool
  | .locked _ | .unchanged | .superseded | .granted | .stop_granted | .released _ => true
  | _ => false

/-- The call has loaded the epoch and has not been granted a permit. -/
def Call.loaded : Call → Bool
  | .waiting _ | .locked _ | .unchanged => true
  | _ => false

/-- The call was turned away, or will be because the epoch it loaded is an old one. -/
def Call.outdated (epoch : Nat) : Call → Bool
  | .waiting accepted | .locked accepted => decide (accepted < epoch)
  | .superseded | .refused _ => true
  | _ => false

structure Sound (state : State) : Prop where
  pending : state.shared.stop_pending = state.calls.countP Call.pending
  gate : ∀ {id : Nat} {call : Call}, state.calls[id]? = some call → call.holds_gate = true →
    state.shared.gate = some id
  epochs : ∀ {id : Nat} {call : Call}, state.calls[id]? = some call → call.loaded = true →
    call = .unchanged ∨ call.outdated (state.shared.stop_epoch + 1) = true

section Advance

variable {self : Shared} {id other : Nat} {bad : Bool} {call : Call}

theorem advance_pending (h : call.pending = true → 0 < self.stop_pending) :
    (advance self id bad call).2.stop_pending + (if call.pending then 1 else 0)
      = self.stop_pending + (if (advance self id bad call).1.pending then 1 else 0) := by
  fun_cases advance self id bad call
  all_goals first | rfl | exact Nat.sub_add_cancel (h rfl)

theorem advance_holds (h : call.holds_gate = true → self.gate = some id)
    (hholds : (advance self id bad call).1.holds_gate = true) :
    (advance self id bad call).2.gate = some id := by
  revert hholds
  fun_cases advance self id bad call
  all_goals intro hholds
  all_goals first | rfl | exact h rfl | cases hholds

/-- A call takes the gate only when it is free, and gives back only its own. -/
theorem advance_gate (h : call.holds_gate = true → self.gate = some id) (hne : other ≠ id)
    (hother : self.gate = some other) : (advance self id bad call).2.gate = some other := by
  fun_cases advance self id bad call
  all_goals first
    | exact hother
    | exact absurd (some.inj (hother.symm.trans (h rfl))) hne
    | exact absurd (hother ▸ some_ne_none other) ‹¬self.gate ≠ none›

theorem advance_epoch : self.stop_epoch ≤ (advance self id bad call).2.stop_epoch := by
  fun_cases advance self id bad call
  all_goals first | exact le_rfl | exact Nat.le_succ _

theorem outdated_mono {epoch later : Nat} (hle : epoch ≤ later) (h : call.outdated epoch = true) :
    call.outdated later = true := by
  revert h
  fun_cases Call.outdated epoch call
  all_goals intro h
  all_goals first
    | exact h
    | cases h
    | exact decide_eq_true (Nat.lt_of_lt_of_le (of_decide_eq_true h) hle)

theorem advance_outdated (h : call.outdated self.stop_epoch = true) :
    (advance self id bad call).1.outdated (advance self id bad call).2.stop_epoch = true := by
  revert h
  fun_cases advance self id bad call
  all_goals intro h
  all_goals first
    | exact h
    | rfl
    | cases h
    | exact absurd (Nat.ne_of_gt (of_decide_eq_true h)) ‹_›

theorem advance_loaded (h : call.loaded = true → call = .unchanged ∨ call.outdated (self.stop_epoch + 1) = true)
    (hloaded : (advance self id bad call).1.loaded = true) :
    (advance self id bad call).1 = .unchanged
      ∨ (advance self id bad call).1.outdated ((advance self id bad call).2.stop_epoch + 1) = true := by
  revert hloaded
  fun_cases advance self id bad call
  all_goals intro hloaded
  all_goals first
    | exact absurd hloaded Bool.false_ne_true
    | exact .inl rfl
    | exact .inr ((h rfl).resolve_left nofun)
    | exact .inr (decide_eq_true (Nat.lt_succ_self _))

end Advance

variable {self : State} {id i j : Nat} {bad : Bool} {call : Call}

theorem step_next (h : self.calls[id]? = some call) :
    step self (.next id bad) = ⟨(advance self.shared id bad call).2,
      self.calls.set id (advance self.shared id bad call).1⟩ := by
  rw [step, h]

theorem getElem?_set_call (h : self.calls[id]? = some call) (new : Call) (other : Nat) :
    (self.calls.set id new)[other]? = if id = other then some new else self.calls[other]? := by
  rw [getElem?_set, if_pos (List.getElem?_eq_some_iff.mp h).1]

theorem getElem?_begin (h : self.calls[id]? = some call) (new : Call) :
    (self.calls ++ [new])[id]? = some call := by
  rw [getElem?_append_left (List.getElem?_eq_some_iff.mp h).1, h]

theorem Sound.begin (h : Sound self) {new : Call} (hpending : new.pending = false)
    (hholds : new.holds_gate = false) (hloaded : new.loaded = false) :
    Sound { self with calls := self.calls ++ [new] } := by
  have hold : ∀ {id : Nat} {call : Call}, (self.calls ++ [new])[id]? = some call →
      self.calls[id]? = some call ∨ call = new := by
    intro id call hget
    rw [getElem?_append] at hget
    split_ifs at hget with hlt
    · exact .inl hget
    · exact .inr (mem_singleton.mp (mem_of_getElem? hget))
  constructor
  · rw [countP_append, countP_singleton, hpending]
    exact h.pending
  · intro id call hget hcall
    obtain hget | rfl := hold hget
    · exact h.gate hget hcall
    · exact absurd hcall (by rw [hholds]; exact Bool.false_ne_true)
  · intro id call hget hcall
    obtain hget | rfl := hold hget
    · exact h.epochs hget hcall
    · exact absurd hcall (by rw [hloaded]; exact Bool.false_ne_true)

theorem Sound.step (h : Sound self) (event : Event) : Sound (step self event) := by
  cases event with
  | begin_apply | begin_stop => exact h.begin rfl rfl rfl
  | next id bad =>
    cases hget : self.calls[id]? with
    | none =>
      rw [RuntimeApplyCoordinator.step, hget]
      exact h
    | some call =>
      obtain ⟨hlt, hcall⟩ := List.getElem?_eq_some_iff.mp hget
      rw [step_next hget]
      constructor
      · have hpos : call.pending = true → 0 < self.shared.stop_pending := by
          intro hpending
          rw [h.pending, countP_pos_iff]
          exact ⟨call, mem_of_getElem? hget, hpending⟩
        have hmoved := @advance_pending self.shared id bad call hpos
        dsimp only
        rw [countP_set hlt, hcall, ← h.pending]
        by_cases hpending : call.pending = true
        · have := hpos hpending
          rw [if_pos hpending] at hmoved ⊢
          omega
        · rw [if_neg hpending] at hmoved ⊢
          omega
      · intro other held hother hheld
        rw [getElem?_set_call hget] at hother
        split_ifs at hother with heq
        · cases hother
          rw [← heq]
          exact advance_holds (h.gate hget) hheld
        · exact advance_gate (h.gate hget) (fun hne => heq hne.symm) (h.gate hother hheld)
      · intro other held hother hheld
        rw [getElem?_set_call hget] at hother
        split_ifs at hother with heq
        · cases hother
          exact advance_loaded (h.epochs hget) hheld
        · exact (h.epochs hother hheld).imp_right (outdated_mono (Nat.succ_le_succ advance_epoch))

theorem run_sound (events : List Event) : Sound (run events) :=
  Run.invariant (P := fun _ => Sound)
    ⟨rfl, fun h _ => (by cases h), fun h _ => (by cases h)⟩ (fun _ _ event h => h.step event) events

/-! ## A stop outruns the applies that loaded the epoch before it -/

/-- The apply is outdated, or it is about to find the stop pending. -/
structure Outrun (i j : Nat) (state : State) : Prop where
  sound : Sound state
  apply : ∃ call, state.calls[i]? = some call ∧ (call.outdated state.shared.stop_epoch = true
    ∨ call = .unchanged ∧ state.calls[j]? = some .stop_waiting)

theorem Outrun.step (h : Outrun i j self) (event : Event) : Outrun i j (step self event) := by
  refine ⟨h.sound.step event, ?_⟩
  obtain ⟨call, hi, hcall⟩ := h.apply
  have hbegin : ∀ new, ∃ call, (self.calls ++ [new])[i]? = some call
      ∧ (call.outdated self.shared.stop_epoch = true
        ∨ call = .unchanged ∧ (self.calls ++ [new])[j]? = some .stop_waiting) :=
    fun new => ⟨call, getElem?_begin hi new, hcall.imp_right fun h => ⟨h.1, getElem?_begin h.2 new⟩⟩
  cases event with
  | begin_apply | begin_stop => exact hbegin _
  | next id bad =>
    cases hget : self.calls[id]? with
    | none =>
      rw [RuntimeApplyCoordinator.step, hget]
      exact ⟨call, hi, hcall⟩
    | some other =>
      rw [step_next hget]
      by_cases hid : id = i
      · -- its own next step
        subst hid
        obtain rfl := some.inj (hi.symm.trans hget)
        refine ⟨_, by rw [getElem?_set_call hget, if_pos rfl], .inl ?_⟩
        obtain hold | ⟨rfl, hj⟩ := hcall
        · exact advance_outdated hold
        · have hpending : self.shared.stop_pending ≠ 0 := by
            rw [h.sound.pending, ← Nat.pos_iff_ne_zero, countP_pos_iff]
            exact ⟨_, mem_of_getElem? hj, rfl⟩
          rw [advance, if_pos hpending]
          rfl
      · refine ⟨call, by rw [getElem?_set_call hget, if_neg hid, hi], ?_⟩
        obtain hold | ⟨rfl, hj⟩ := hcall
        · exact .inl (outdated_mono advance_epoch hold)
        · refine .inr ⟨rfl, ?_⟩
          rw [getElem?_set_call hget]
          split_ifs with heq
          · -- the gate is not free for the stop
            rw [heq, hj] at hget
            rw [← some.inj hget, advance, if_pos (by rw [h.sound.gate hi rfl]; exact some_ne_none i)]
          · exact hj

end DaeNext.RuntimeApplyCoordinator
