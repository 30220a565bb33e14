import Mathlib.Data.List.FinRange

/-!
# Scans over a table of fixed size

The two loops a table of slots is searched with: the first slot that passes a
test, and the slot with the greatest positive score.  Both visit the slots in
index order.
-/

namespace SwitchLanPlay.Library.SlotTable

variable {n : Nat}

/-- The first index that passes the test. -/
def firstIndex (test : Fin n → Bool) : Option (Fin n) := (List.finRange n).find? test

theorem firstIndex_passes {test : Fin n → Bool} {index : Fin n}
    (found : firstIndex test = some index) : test index = true :=
  List.find?_some found

theorem firstIndex_eq_none_iff {test : Fin n → Bool} :
    firstIndex test = none ↔ ∀ index, test index = false := by
  simp [firstIndex, List.find?_eq_none]

/-- The index found passes the test, and no index before it does. -/
theorem firstIndex_eq_some_iff {test : Fin n → Bool} {index : Fin n} :
    firstIndex test = some index ↔ test index = true ∧ ∀ before < index, test before = false := by
  rw [firstIndex, List.find?_eq_some_iff_getElem]
  simp only [List.getElem_finRange, List.length_finRange]
  constructor
  · rintro ⟨passes, position, bound, rfl, first⟩
    refine ⟨passes, fun before less => ?_⟩
    simpa using first before less
  · rintro ⟨passes, first⟩
    refine ⟨passes, index, index.isLt, rfl, fun before less => ?_⟩
    simpa using first ⟨before, less.trans index.isLt⟩ less

/-- One iteration of the maximum search: a scored slot replaces the best one
so far only when its score is strictly greater. -/
def better (score : Fin n → Option Int) (best : Int × Option (Fin n)) (index : Fin n) :
    Int × Option (Fin n) :=
  match score index with
  | none => best
  | some value => if best.1 < value then (value, some index) else best

/-- The greatest positive score and the first slot that has it. -/
def farthest (score : Fin n → Option Int) : Int × Option (Fin n) :=
  (List.finRange n).foldl (better score) (0, none)

/-- What the search knows after visiting a list of slots. -/
structure Best (score : Fin n → Option Int) (visited : List (Fin n))
    (best : Int × Option (Fin n)) : Prop where
  nonneg : 0 ≤ best.1
  bound : ∀ index ∈ visited, ∀ value, score index = some value → value ≤ best.1
  found : ∀ index, best.2 = some index → index ∈ visited ∧ score index = some best.1
  first : ∀ index, best.2 = some index → ∀ before ∈ visited, before < index →
    ∀ value, score before = some value → value < best.1
  missing : best.2 = none → best.1 = 0

theorem Best.step {score : Fin n → Option Int} {visited : List (Fin n)}
    {best : Int × Option (Fin n)} (known : Best score visited best) {index : Fin n}
    (later : ∀ before ∈ visited, before < index) :
    Best score (visited ++ [index]) (better score best index) := by
  -- a slot visited later than the best one does not come before it
  have notBefore (chosen : Fin n) (same : best.2 = some chosen) : ¬ index < chosen :=
    lt_asymm (later chosen (known.found chosen same).1)
  have keptFound (chosen : Fin n) (same : best.2 = some chosen) :
      chosen ∈ visited ++ [index] ∧ score chosen = some best.1 :=
    ⟨List.mem_append_left _ (known.found chosen same).1, (known.found chosen same).2⟩
  have keptFirst (chosen : Fin n) (same : best.2 = some chosen) (before : Fin n)
      (member : before ∈ visited ++ [index]) (less : before < chosen) (value : Int)
      (scored : score before = some value) : value < best.1 := by
    rcases List.mem_append.mp member with visitedBefore | last
    · exact known.first chosen same before visitedBefore less value scored
    · rw [List.mem_singleton.mp last] at less
      exact absurd less (notBefore chosen same)
  unfold better
  cases scored : score index with
  | none =>
      refine ⟨known.nonneg, ?_, keptFound, keptFirst, known.missing⟩
      intro other member value otherScored
      rcases List.mem_append.mp member with before | last
      · exact known.bound other before value otherScored
      · rw [List.mem_singleton.mp last, scored] at otherScored
        cases otherScored
  | some value =>
      by_cases greater : best.1 < value
      · simp only [greater, if_true]
        refine ⟨le_of_lt (lt_of_le_of_lt known.nonneg greater), ?_, ?_, ?_, ?_⟩
        · intro other member otherValue otherScored
          rcases List.mem_append.mp member with before | last
          · exact le_trans (known.bound other before otherValue otherScored) (le_of_lt greater)
          · rw [List.mem_singleton.mp last, scored] at otherScored
            exact le_of_eq (Option.some.inj otherScored).symm
        · intro other same
          rw [← Option.some.inj same]
          exact ⟨List.mem_append_right _ List.mem_cons_self, scored⟩
        · intro other same before member less otherValue otherScored
          rw [← Option.some.inj same] at less
          rcases List.mem_append.mp member with visitedBefore | last
          · exact lt_of_le_of_lt (known.bound before visitedBefore otherValue otherScored) greater
          · rw [List.mem_singleton.mp last] at less
            exact absurd less (lt_irrefl _)
        · intro impossible
          cases impossible
      · simp only [greater, if_false]
        refine ⟨known.nonneg, ?_, keptFound, keptFirst, known.missing⟩
        intro other member otherValue otherScored
        rcases List.mem_append.mp member with before | last
        · exact known.bound other before otherValue otherScored
        · rw [List.mem_singleton.mp last, scored] at otherScored
          rw [← Option.some.inj otherScored]
          exact le_of_not_gt greater

theorem Best.fold {score : Fin n → Option Int} (rest : List (Fin n)) {visited : List (Fin n)}
    {best : Int × Option (Fin n)} (known : Best score visited best)
    (sorted : (visited ++ rest).Pairwise (· < ·)) :
    Best score (visited ++ rest) (rest.foldl (better score) best) := by
  induction rest generalizing visited best with
  | nil => simpa using known
  | cons index rest ih =>
      have later : ∀ before ∈ visited, before < index := fun before member =>
        (List.pairwise_append.mp sorted).2.2 before member index List.mem_cons_self
      rw [List.append_cons] at sorted ⊢
      exact ih (known.step later) sorted

theorem farthest_best (score : Fin n → Option Int) :
    Best score (List.finRange n) (farthest score) := by
  have start : Best score [] (0, none) := ⟨le_refl 0, nofun, nofun, nofun, fun _ => rfl⟩
  exact start.fold (List.finRange n) (List.pairwise_lt_finRange n)

theorem le_farthest {score : Fin n → Option Int} {index : Fin n} {value : Int}
    (scored : score index = some value) : value ≤ (farthest score).1 :=
  (farthest_best score).bound index (List.mem_finRange index) value scored

/-- A positive maximum is the score of the slot that was found. -/
theorem farthest_of_pos {score : Fin n → Option Int} (positive : 0 < (farthest score).1) :
    ∃ index, (farthest score).2 = some index ∧ score index = some (farthest score).1 := by
  cases chosen : (farthest score).2 with
  | none =>
      have zero := (farthest_best score).missing chosen
      omega
  | some index => exact ⟨index, rfl, ((farthest_best score).found index chosen).2⟩

/-- Slots before the one that was found have smaller scores. -/
theorem lt_farthest {score : Fin n → Option Int} {index before : Fin n}
    (chosen : (farthest score).2 = some index) (less : before < index) {value : Int}
    (scored : score before = some value) : value < (farthest score).1 :=
  (farthest_best score).first index chosen before (List.mem_finRange before) less value scored

end SwitchLanPlay.Library.SlotTable
