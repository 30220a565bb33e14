import Mathlib.Data.List.Basic
import Mathlib.Data.List.DropRight
import Mathlib.Data.List.Infix
import Mathlib.Data.List.Nodup

/-!
# A value that is set by posting

A posted value waits until it is dispatched, and replaces one that is still waiting.
An update reads the value that was dispatched last, so an update that does not wait
for the dispatch of the one before makes that one disappear.  `runTurns_map` is the
rule of refinement between two types of values; `fork` says, for values that are
histories, which updates a history still knows.
-/

namespace SwitchLanPlay.Library

variable {α β ι : Type}

/-! ## Suffixes of a given length -/

theorem rtake_suffix (items : List α) (count : Nat) : items.rtake count <:+ items := List.drop_suffix _ _

theorem length_rtake (items : List α) (count : Nat) : (items.rtake count).length = min count items.length := by
  rw [List.rtake, List.length_drop]
  omega

theorem rtake_of_length_le {items : List α} {count : Nat} (short : items.length ≤ count) :
    items.rtake count = items := by
  rw [List.rtake, Nat.sub_eq_zero_of_le short, List.drop_zero]

/-- A long enough tail has everything that is taken. -/
theorem rtake_append_of_le {front tail : List α} {count : Nat} (long : count ≤ tail.length) :
    (front ++ tail).rtake count = tail.rtake count := by
  rw [List.rtake, List.rtake, List.length_append, Nat.add_sub_assoc long, List.drop_append,
    List.drop_of_length_le (Nat.le_add_right _ _), List.nil_append, Nat.add_sub_cancel_left]

theorem rtake_rtake {items : List α} {few many : Nat} (fewer : few ≤ many) :
    (items.rtake many).rtake few = items.rtake few := by
  rw [List.rtake, List.rtake, List.rtake, List.length_drop, List.drop_drop]
  congr 1
  omega

theorem map_rtake (f : α → β) (items : List α) (count : Nat) :
    (items.rtake count).map f = (items.map f).rtake count := by
  rw [List.rtake, List.rtake, List.map_drop, List.length_map]

theorem suffix_rtake {items tail : List α} {count : Nat} (suffix : tail <:+ items) (short : tail.length ≤ count) :
    tail <:+ items.rtake count := by
  apply List.suffix_of_suffix_length_le suffix (rtake_suffix items count)
  rw [length_rtake]
  exact Nat.le_min.mpr ⟨short, suffix.length_le⟩

/-! ## Posting -/

/-- The value, and the one that was posted and not yet dispatched. -/
structure Posted (α : Type) where
  value : α
  pending : Option α

namespace Posted

def dispatch (cell : Posted α) : Posted α := ⟨cell.pending.getD cell.value, none⟩

def post (cell : Posted α) (value : α) : Posted α := { cell with pending := some value }

def map (f : α → β) (cell : Posted α) : Posted β := ⟨f cell.value, cell.pending.map f⟩

/-- What the value is once everything is dispatched. -/
def latest (cell : Posted α) : α := cell.dispatch.value

theorem latest_map (f : α → β) (cell : Posted α) : (cell.map f).latest = f cell.latest := by
  obtain ⟨value, _ | pending⟩ := cell <;> rfl

theorem dispatch_map (f : α → β) (cell : Posted α) : (cell.map f).dispatch = cell.dispatch.map f := by
  obtain ⟨value, _ | pending⟩ := cell <;> rfl

end Posted

/-- A dispatch, or an update that reads the value and posts another; between the two
there may be a dispatch. -/
inductive Turn (ι : Type) where
  | dispatch
  | update (input : ι) (interrupted : Bool)
  deriving DecidableEq

def takeTurn (change : α → ι → α) (cell : Posted α) : Turn ι → Posted α
  | .dispatch => cell.dispatch
  | .update input interrupted =>
      (if interrupted then cell.dispatch else cell).post (change cell.value input)

def runTurns (change : α → ι → α) (cell : Posted α) (turns : List (Turn ι)) : Posted α :=
  turns.foldl (takeTurn change) cell

/-- The updates of a run. -/
def inputsOf : List (Turn ι) → List ι
  | [] => []
  | .dispatch :: rest => inputsOf rest
  | .update input _ :: rest => input :: inputsOf rest

/-- For each update, whether it read everything that was posted before; `waiting` says
whether something waits at the beginning. -/
def currents (waiting : Bool) : List (Turn ι) → List Bool
  | [] => []
  | .dispatch :: rest => currents false rest
  | .update _ _ :: rest => (!waiting) :: currents true rest

/-- A map that commutes with the updates commutes with runs. -/
theorem runTurns_map {change : α → ι → α} {change' : β → ι → β} {f : α → β}
    (commutes : ∀ value input, change' (f value) input = f (change value input))
    (turns : List (Turn ι)) (cell : Posted α) :
    runTurns change' (cell.map f) turns = (runTurns change cell turns).map f := by
  induction turns generalizing cell with
  | nil => rfl
  | cons turn rest ih =>
      have step : takeTurn change' (cell.map f) turn = (takeTurn change cell turn).map f := by
        cases turn with
        | dispatch => exact cell.dispatch_map f
        | update input interrupted =>
            have read : change' (cell.map f).value input = f (change cell.value input) := commutes _ _
            cases interrupted with
            | true => rw [takeTurn, takeTurn, if_pos rfl, if_pos rfl, read, cell.dispatch_map]; rfl
            | false => rw [takeTurn, takeTurn, if_neg (by decide), if_neg (by decide), read]; rfl
      rw [runTurns, List.foldl_cons, step]
      exact ih _

/-! ## Histories -/

section Histories

variable {item : ι → β} {history recorded : List β} {flags : List Bool}

/-- How a history compares with all that was recorded, where the flags tell which
updates were current. -/
inductive Fork : List β → List β → List Bool → Prop where
  /-- Every update was current, and nothing is missing. -/
  | whole {recorded : List β} {flags : List Bool} (current : ∀ flag ∈ flags, flag = true) :
      Fork recorded recorded flags
  /-- The history was forked before its tail: the item recorded there was not seen. -/
  | forked {seen before tail : List β} {missed : β} {flags : List Bool} (old : seen ⊆ before)
      (last : β) :
      Fork (seen ++ (tail ++ [last])) (before ++ missed :: (tail ++ [last]))
        (flags ++ false :: List.replicate tail.length true)

namespace Fork

theorem subset (fork : Fork history recorded flags) : history ⊆ recorded := by
  cases fork with
  | whole current => exact List.Subset.refl _
  | forked old last =>
      apply List.append_subset.mpr
      constructor
      · exact List.subset_append_of_subset_left _ old
      · apply List.subset_append_of_subset_right
        exact List.subset_cons_self _ _

/-- A current update extends the history and the record. -/
theorem snoc (fork : Fork history recorded flags) (next : β) :
    Fork (history ++ [next]) (recorded ++ [next]) (flags ++ [true]) := by
  cases fork with
  | whole current =>
      apply whole
      intro flag member
      obtain earlier | rfl := List.mem_append.mp member |>.imp_right List.mem_singleton.mp
      · exact current flag earlier
      · rfl
  | @forked seen before tail missed flags old last =>
      have longer : Fork (seen ++ (tail ++ [last] ++ [next])) (before ++ missed :: (tail ++ [last] ++ [next]))
          (flags ++ false :: List.replicate (tail ++ [last]).length true) := forked old next
      simpa [List.replicate_succ'] using longer

/-- The end of the history is the end of the record when every update behind the first
item taken was current. -/
theorem rtake_eq (fork : Fork history recorded flags) {count : Nat}
    (current : ∀ flag ∈ flags.rtake count, flag = true) :
    history.rtake (count + 1) = recorded.rtake (count + 1) := by
  cases fork with
  | whole _ => rfl
  | @forked seen before tail missed flags old last =>
      have within : count ≤ tail.length := by
        by_contra beyond
        have taken : false :: List.replicate tail.length true <:+
            (flags ++ false :: List.replicate tail.length true).rtake count := by
          apply suffix_rtake (List.suffix_append _ _)
          rw [List.length_cons, List.length_replicate]
          omega
        cases current false (taken.subset List.mem_cons_self)
      have long : count + 1 ≤ (tail ++ [last]).length := by
        rw [List.length_append, List.length_singleton]
        omega
      rw [List.append_cons before, rtake_append_of_le long, rtake_append_of_le long]

/-- Where no item is recorded twice, the ends differ otherwise. -/
theorem current_of_rtake_eq (fork : Fork history recorded flags) (distinct : recorded.Nodup) {count : Nat}
    (same : history.rtake (count + 1) = recorded.rtake (count + 1)) :
    ∀ flag ∈ flags.rtake count, flag = true := by
  cases fork with
  | whole current =>
      intro flag member
      exact current flag ((rtake_suffix _ _).subset member)
  | @forked seen before tail missed flags old last =>
      by_cases within : count ≤ tail.length
      · intro flag member
        rw [List.append_cons flags, rtake_append_of_le (by rwa [List.length_replicate])] at member
        exact List.eq_of_mem_replicate ((rtake_suffix _ _).subset member)
      · -- the missed item would be at its place in the history
        have taken : missed :: (tail ++ [last]) <:+ (before ++ missed :: (tail ++ [last])).rtake (count + 1) := by
          apply suffix_rtake (List.suffix_append _ _)
          rw [List.length_cons, List.length_append, List.length_singleton]
          omega
        rw [← same] at taken
        obtain ⟨front, whole⟩ := taken.trans (rtake_suffix _ _)
        rw [List.append_cons front] at whole
        have known : missed ∈ seen := by
          rw [← List.append_cancel_right whole]
          exact List.mem_append_right _ (List.mem_singleton_self _)
        have once := (List.nodup_middle.mp distinct).notMem
        exact absurd (List.mem_append_left _ (old known)) once

end Fork

/-- What holds of a cell with histories after some updates. -/
structure Histories (cell : Posted (List β)) (recorded : List β) (flags : List Bool) : Prop where
  fork : Fork cell.latest recorded flags
  /-- What waits has the last item, which the value does not know yet. -/
  old : cell.pending.isSome → ∃ before last, recorded = before ++ [last] ∧ cell.value ⊆ before

namespace Histories

theorem empty : Histories (⟨[], none⟩ : Posted (List β)) [] [] where
  fork := .whole (List.forall_mem_nil _)
  old := nofun

theorem dispatch {cell : Posted (List β)} (histories : Histories cell recorded flags) :
    Histories cell.dispatch recorded flags where
  fork := histories.fork
  old := nofun

theorem subset {cell : Posted (List β)} (histories : Histories cell recorded flags) :
    cell.value ⊆ recorded := by
  cases pending : cell.pending with
  | none =>
      have current : cell.latest = cell.value := by
        rw [Posted.latest, Posted.dispatch, pending]
        rfl
      rw [← current]
      exact histories.fork.subset
  | some waiting =>
      obtain ⟨before, last, rfl, old⟩ := histories.old (by rw [pending]; rfl)
      exact List.subset_append_of_subset_left _ old

theorem update {cell : Posted (List β)} (histories : Histories cell recorded flags) (next : β)
    (interrupted : Bool) :
    Histories ((if interrupted then cell.dispatch else cell).post (cell.value ++ [next]))
      (recorded ++ [next]) (flags ++ [!cell.pending.isSome]) where
  fork := by
    change Fork (cell.value ++ [next]) _ _
    cases pending : cell.pending with
    | none =>
        have current : cell.latest = cell.value := by
          rw [Posted.latest, Posted.dispatch, pending]
          rfl
        rw [← current]
        exact histories.fork.snoc next
    | some waiting =>
        obtain ⟨before, last, rfl, old⟩ := histories.old (by rw [pending]; rfl)
        rw [List.append_assoc]
        change Fork (cell.value ++ ([] ++ [next])) (before ++ last :: ([] ++ [next]))
          (flags ++ false :: List.replicate ([] : List β).length true)
        exact .forked old next
  old _ := by
    refine ⟨recorded, next, rfl, ?_⟩
    cases interrupted with
    | true => exact histories.fork.subset
    | false => exact histories.subset

end Histories

/-- Every run of updates that append to the value keeps the comparison. -/
theorem histories_runTurns (item : ι → β) (turns : List (Turn ι)) {cell : Posted (List β)}
    (histories : Histories cell recorded flags) :
    Histories (runTurns (fun history input => history ++ [item input]) cell turns)
      (recorded ++ (inputsOf turns).map item) (flags ++ currents cell.pending.isSome turns) := by
  induction turns generalizing cell recorded flags with
  | nil => simpa [runTurns, inputsOf, currents] using histories
  | cons turn rest ih =>
      cases turn with
      | dispatch => exact ih histories.dispatch
      | update input interrupted =>
          have next := ih (histories.update (item input) interrupted)
          rw [List.append_assoc, List.append_assoc] at next
          exact next

end Histories

end SwitchLanPlay.Library
