import Mathlib.Data.List.Basic
import Mathlib.Data.List.Flatten
import Mathlib.Data.List.TakeWhile

/-!
# Reading a trace

The bytes, or other items, that the events of a trace contribute up to the
first event that stops the count.
-/

namespace SwitchLanPlay.Library

variable {ε α : Type}

/-- What the events before the first one with `stop` contribute, in order. -/
def collectUntil (stop : ε → Bool) (items : ε → List α) (events : List ε) : List α :=
  (events.takeWhile fun event => !stop event).flatMap items

section CollectUntil

variable {stop : ε → Bool} {items : ε → List α} {first second : List ε}

@[simp] theorem collectUntil_nil : collectUntil stop items [] = [] := rfl

/-- As long as nothing stopped the count, it goes on behind. -/
theorem collectUntil_append_of_running (running : ∀ event ∈ first, stop event = false) :
    collectUntil stop items (first ++ second) = first.flatMap items ++ collectUntil stop items second := by
  have all : ∀ event ∈ first, (!stop event) = true := fun event member => by simp [running event member]
  rw [collectUntil, List.takeWhile_append_of_pos all, List.flatMap_append]
  rfl

theorem collectUntil_of_running (running : ∀ event ∈ first, stop event = false) :
    collectUntil stop items first = first.flatMap items := by
  have all : ∀ event ∈ first, (!stop event) = true := fun event member => by simp [running event member]
  rw [collectUntil, List.takeWhile_eq_self_iff.mpr all]

/-- Events that contribute nothing do not change the count. -/
theorem collectUntil_append_of_silent (silent : ∀ event ∈ second, items event = []) :
    collectUntil stop items (first ++ second) = collectUntil stop items first := by
  induction first with
  | nil =>
      refine List.flatMap_eq_nil_iff.mpr fun event member => ?_
      exact silent event ((List.takeWhile_sublist _).subset member)
  | cons event rest ih =>
      unfold collectUntil at ih ⊢
      by_cases stops : stop event = true
      · simp [stops]
      · simpa [stops] using ih

end CollectUntil

end SwitchLanPlay.Library
