/-
Consumers of a byte stream that is cut into segments.

A consumer keeps what it cannot use yet. It is seamless when a cut makes no difference: two segments
in turn give what one call on both gives, and an error is not undone by what follows. Then every
cut of a stream gives the output of the whole stream.
-/
import Mathlib.Data.List.Basic

set_option autoImplicit false

namespace Segments

variable {σ α β ε : Type}

/-- The calls on the segments in turn, with the outputs put together. -/
def feed_all (feed : σ → List α → Except ε (List β) × σ) (state : σ) :
    List (List α) → Except ε (List β) × σ
  | [] => (.ok [], state)
  | segment :: segments =>
    match feed state segment with
    | (.error error, state) => (.error error, state)
    | (.ok out, state) =>
      ((feed_all feed state segments).1.map (out ++ ·), (feed_all feed state segments).2)

structure Seamless (feed : σ → List α → Except ε (List β) × σ) : Prop where
  ok : ∀ {state next : σ} {segment : List α} {out : List β} (more : List α),
    feed state segment = (.ok out, next) →
    feed state (segment ++ more) = ((feed next more).1.map (out ++ ·), (feed next more).2)
  error : ∀ {state next : σ} {segment : List α} {e : ε} (more : List α),
    feed state segment = (.error e, next) → (feed state (segment ++ more)).1 = .error e

theorem after_eq_iff {result : Except ε (List β) × σ} {first out : List β} {next : σ} :
    (result.1.map (first ++ ·), result.2) = (.ok out, next) ↔
      ∃ rest, result = (.ok rest, next) ∧ first ++ rest = out := by
  obtain ⟨_ | rest, last⟩ := result <;> simp [Except.map, and_comm]

namespace Seamless

variable {feed : σ → List α → Except ε (List β) × σ} (h : Seamless feed)

include h

variable {state next : σ} {out : List β}

/-- After a call nothing is left that could be used without more input. -/
theorem feed_nil {segment : List α} (hfeed : feed state segment = (.ok out, next)) :
    feed next [] = (.ok [], next) := by
  have hboth := h.ok [] hfeed
  rw [List.append_nil, hfeed] at hboth
  obtain ⟨hout, hnext⟩ := Prod.mk.inj hboth
  rcases hnil : feed next [] with ⟨result, state'⟩
  rw [hnil] at hout hnext
  cases result with
  | error e => cases hout
  | ok rest =>
    have hrest : out = out ++ rest := Except.ok.inj hout
    dsimp only at hnext
    rw [← hnext, List.append_right_eq_self.mp hrest.symm]

/-- What the whole stream gives, every cut of it gives, and the other way round. -/
theorem feed_all_eq_iff (segments : List (List α)) (hnil : feed state [] = (.ok [], state)) :
    feed_all feed state segments = (.ok out, next) ↔ feed state segments.flatten = (.ok out, next) := by
  induction segments generalizing state next out with
  | nil => rw [List.flatten_nil, hnil, feed_all]
  | cons segment segments ih =>
    rw [feed_all, List.flatten_cons]
    rcases hfirst : feed state segment with ⟨result, middle⟩
    cases result with
    | error e =>
      have herror := h.error segments.flatten hfirst
      constructor
      · intro hfeed
        cases (Prod.mk.inj hfeed).1
      · intro hfeed
        rw [hfeed] at herror
        cases herror
    | ok first =>
      rw [h.ok segments.flatten hfirst]
      simp only [after_eq_iff, ih (h.feed_nil hfirst)]

theorem ok_of_append {segment more : List α} (hfeed : feed state (segment ++ more) = (.ok out, next)) :
    ∃ first middle, feed state segment = (.ok first, middle) := by
  rcases hfirst : feed state segment with ⟨result, middle⟩
  cases result with
  | error e =>
    have herror := h.error more hfirst
    rw [hfeed] at herror
    cases herror
  | ok first => exact ⟨first, middle, rfl⟩

end Seamless

end Segments
