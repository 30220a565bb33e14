import SwitchLanPlay.Library.Bytes

/-!
# Computations that may throw

`bind_eq_ok` takes a computation that returned apart, `Returns` is the rule set for
computations that do not throw.
-/

namespace SwitchLanPlay.Library

variable {ε α β : Type}

theorem bind_eq_ok {first : Except ε α} {next : α → Except ε β} {result : β} :
    (first >>= next) = .ok result ↔ ∃ value, first = .ok value ∧ next value = .ok result := by
  cases first with
  | error thrown => exact ⟨nofun, nofun⟩
  | ok value => exact ⟨fun done => ⟨value, rfl, done⟩, fun ⟨_, same, done⟩ => Except.ok.inj same ▸ done⟩

/-- The computation returns. -/
def Returns (m : Except ε α) : Prop := ∃ result, m = .ok result

theorem returns_pure (value : α) : Returns (pure value : Except ε α) := ⟨value, rfl⟩

theorem returns_bind {first : Except ε α} {next : α → Except ε β} {value : α} (begins : first = .ok value)
    (ends : Returns (next value)) : Returns (first >>= next) := by
  obtain ⟨result, done⟩ := ends
  exact ⟨result, bind_eq_ok.mpr ⟨value, begins, done⟩⟩

theorem returns_ite {condition : Prop} [Decidable condition] {yes no : Except ε α}
    (whenTrue : condition → Returns yes) (whenFalse : ¬ condition → Returns no) :
    Returns (if condition then yes else no) := by
  split
  case isTrue holds => exact whenTrue holds
  case isFalse fails => exact whenFalse fails

end SwitchLanPlay.Library
