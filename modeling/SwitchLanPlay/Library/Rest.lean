import Mathlib.Data.List.Basic

/-!
# Machines that run to rest

A machine moves as long as it can and then rests, until input is given to it.
If input that is waiting never changes what the machine can do already, it makes
no difference whether the input is there from the start or is given to the
machine at rest: how input is cut into pieces does not matter.
-/

namespace SwitchLanPlay.Library

variable {σ ε ι : Type}

/-- From `s` the machine moves, performing the events, until it rests in `t`. -/
inductive Rests (step : σ → Option (σ × List ε)) : σ → σ → List ε → Prop where
  | stop {s : σ} (blocked : step s = none) : Rests step s s []
  | move {s next t : σ} {events rest : List ε} (moved : step s = some (next, events))
      (rests : Rests step next t rest) : Rests step s t (events ++ rest)

variable {step : σ → Option (σ × List ε)}

theorem Rests.blocked {s t : σ} {events : List ε} (rests : Rests step s t events) : step t = none := by
  induction rests with
  | stop blocked => exact blocked
  | move moved rests ih => exact ih

theorem Rests.unique {s t u : σ} {events others : List ε} (rests : Rests step s t events)
    (rests' : Rests step s u others) : t = u ∧ events = others := by
  induction rests generalizing u others with
  | stop blocked =>
      cases rests' with
      | stop blocked' => exact ⟨rfl, rfl⟩
      | move moved rests =>
          rw [blocked] at moved
          cases moved
  | move moved rests ih =>
      cases rests' with
      | stop blocked =>
          rw [moved] at blocked
          cases blocked
      | move moved' rests' =>
          rw [moved] at moved'
          cases moved'
          obtain ⟨same, sameEvents⟩ := ih rests'
          exact ⟨same, congrArg _ sameEvents⟩

/-- Input given at rest could have been there from the start. -/
theorem Rests.append {give : σ → σ}
    (ahead : ∀ s next events, step s = some (next, events) → step (give s) = some (give next, events))
    {s t u : σ} {events rest : List ε} (rests : Rests step s t events)
    (rests' : Rests step (give t) u rest) : Rests step (give s) u (events ++ rest) := by
  induction rests with
  | stop blocked => exact rests'
  | move moved rests ih =>
      rw [List.append_assoc]
      exact .move (ahead _ _ _ moved) (ih rests')

end SwitchLanPlay.Library
