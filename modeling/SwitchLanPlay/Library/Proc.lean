import Mathlib.Data.List.Basic
import Mathlib.Data.List.Infix

/-!
# Computations that change a state and leave a trace

A `Proc` is a deterministic computation over an explicit state.  Besides its
value and the next state it reports, in order, the events that it performed:
memory accesses, messages sent, callbacks invoked.  Everything the environment
decides is an argument of the computation or a field of its state.

`Emits` is the rule set for "every event satisfies a predicate", `Framed` the one
for what a computation leaves alone, `Ignores` the one for what it does not depend
on; `runAll` and its induction rule carry an invariant along a whole run.
-/

namespace SwitchLanPlay.Library

/-- What one execution of a computation leaves behind. -/
@[ext]
structure Outcome (σ ε α : Type) where
  value : α
  state : σ
  events : List ε

def Proc (σ ε α : Type) : Type := σ → Outcome σ ε α

namespace Proc

variable {σ τ ε α β ι : Type}

instance : Monad (Proc σ ε) where
  pure value := fun s => ⟨value, s, []⟩
  bind first next := fun s =>
    let done := first s
    let rest := next done.value done.state
    ⟨rest.value, rest.state, done.events ++ rest.events⟩

/-- Read the state. -/
def read : Proc σ ε σ := fun s => ⟨s, s, []⟩

/-- Replace the state by a function of it. -/
def update (f : σ → σ) : Proc σ ε Unit := fun s => ⟨(), f s, []⟩

/-- Perform one event. -/
def emit (event : ε) : Proc σ ε Unit := fun s => ⟨(), s, [event]⟩

/-- Perform several events, one after the other. -/
def emitAll (events : List ε) : Proc σ ε Unit := fun s => ⟨(), s, events⟩

/-- Run a computation on one component of a larger state. -/
def zoom (part : τ → σ) (put : σ → τ → τ) (inner : Proc σ ε α) : Proc τ ε α :=
  fun t =>
    let done := inner (part t)
    ⟨done.value, put done.state t, done.events⟩

section Equations

variable (s : σ)

@[simp] theorem pure_value (value : α) : ((pure value : Proc σ ε α) s).value = value := rfl

@[simp] theorem pure_state (value : α) : ((pure value : Proc σ ε α) s).state = s := rfl

@[simp] theorem pure_events (value : α) : ((pure value : Proc σ ε α) s).events = [] := rfl

@[simp] theorem bind_value (first : Proc σ ε α) (next : α → Proc σ ε β) :
    ((first >>= next) s).value = (next (first s).value (first s).state).value := rfl

@[simp] theorem bind_state (first : Proc σ ε α) (next : α → Proc σ ε β) :
    ((first >>= next) s).state = (next (first s).value (first s).state).state := rfl

@[simp] theorem bind_events (first : Proc σ ε α) (next : α → Proc σ ε β) :
    ((first >>= next) s).events =
      (first s).events ++ (next (first s).value (first s).state).events := rfl

@[simp] theorem read_value : ((read : Proc σ ε σ) s).value = s := rfl

@[simp] theorem read_state : ((read : Proc σ ε σ) s).state = s := rfl

@[simp] theorem read_events : ((read : Proc σ ε σ) s).events = [] := rfl

@[simp] theorem update_state (f : σ → σ) : ((update f : Proc σ ε Unit) s).state = f s := rfl

@[simp] theorem update_events (f : σ → σ) : ((update f : Proc σ ε Unit) s).events = [] := rfl

@[simp] theorem emit_state (event : ε) : (emit event s : Outcome σ ε Unit).state = s := rfl

@[simp] theorem emit_events (event : ε) : (emit event s : Outcome σ ε Unit).events = [event] := rfl

@[simp] theorem emitAll_state (events : List ε) :
    (emitAll events s : Outcome σ ε Unit).state = s := rfl

@[simp] theorem emitAll_events (events : List ε) :
    (emitAll events s : Outcome σ ε Unit).events = events := rfl

@[simp] theorem zoom_value (part : τ → σ) (put : σ → τ → τ) (inner : Proc σ ε α) (t : τ) :
    (zoom part put inner t).value = (inner (part t)).value := rfl

@[simp] theorem zoom_state (part : τ → σ) (put : σ → τ → τ) (inner : Proc σ ε α) (t : τ) :
    (zoom part put inner t).state = put (inner (part t)).state t := rfl

@[simp] theorem zoom_events (part : τ → σ) (put : σ → τ → τ) (inner : Proc σ ε α) (t : τ) :
    (zoom part put inner t).events = (inner (part t)).events := rfl

/-- A computation that performs nothing hands its value and state on. -/
theorem bind_of_quiet {first : Proc σ ε α} {value : α} {next : σ} (quiet : first s = ⟨value, next, []⟩)
    (rest : α → Proc σ ε β) : (first >>= rest) s = rest value next := by
  change (⟨_, _, (first s).events ++ _⟩ : Outcome σ ε β) = _
  rw [quiet]
  rfl

theorem read_bind (next : σ → Proc σ ε α) : (read >>= next) s = next s s := rfl

theorem bind_congr_at {first first' : Proc σ ε α} {next next' : α → Proc σ ε β}
    (before : first s = first' s)
    (after : next (first' s).value (first' s).state = next' (first' s).value (first' s).state) :
    (first >>= next) s = (first' >>= next') s := by
  ext1
  · rw [bind_value, bind_value, before, after]
  · rw [bind_state, bind_state, before, after]
  · rw [bind_events, bind_events, before, after]

end Equations

/-! ## Every event satisfies a predicate -/

/-- Started in `s`, the computation performs only events that satisfy `Q`. -/
def Emits (Q : ε → Prop) (m : Proc σ ε α) (s : σ) : Prop :=
  ∀ event ∈ (m s).events, Q event

section Emits

variable {Q : ε → Prop} {s : σ}

@[simp] theorem emits_pure (value : α) : Emits Q (pure value : Proc σ ε α) s := by
  intro event member
  cases member

@[simp] theorem emits_read : Emits Q (read : Proc σ ε σ) s := by
  intro event member
  cases member

@[simp] theorem emits_update (f : σ → σ) : Emits Q (update f : Proc σ ε Unit) s := by
  intro event member
  cases member

@[simp] theorem emits_emit (event : ε) : Emits Q (emit event : Proc σ ε Unit) s ↔ Q event := by
  simp [Emits]

@[simp] theorem emits_bind (first : Proc σ ε α) (next : α → Proc σ ε β) :
    Emits Q (first >>= next) s ↔
      Emits Q first s ∧ Emits Q (next (first s).value) (first s).state := by
  simp only [Emits, bind_events, List.forall_mem_append]

@[simp] theorem emits_zoom (part : τ → σ) (put : σ → τ → τ) (inner : Proc σ ε α) (t : τ) :
    Emits Q (zoom part put inner) t ↔ Emits Q inner (part t) := Iff.rfl

theorem emits_read_bind (next : σ → Proc σ ε α) :
    Emits Q (read >>= next) s ↔ Emits Q (next s) s := by
  rw [emits_bind]
  exact and_iff_right emits_read

theorem emits_update_bind (f : σ → σ) (next : Unit → Proc σ ε α) :
    Emits Q (update f >>= next) s ↔ Emits Q (next ()) (f s) := by
  rw [emits_bind]
  exact and_iff_right (emits_update f)

theorem emits_emit_bind (event : ε) (next : Unit → Proc σ ε α) :
    Emits Q (emit event >>= next) s ↔ Q event ∧ Emits Q (next ()) s := by
  rw [emits_bind, emits_emit]
  exact Iff.rfl

theorem emits_ite (condition : Prop) [Decidable condition] (yes no : Proc σ ε α) :
    Emits Q (if condition then yes else no) s ↔
      (condition → Emits Q yes s) ∧ (¬ condition → Emits Q no s) := by
  by_cases holds : condition <;> simp [holds]

theorem emits_ite_congr {condition : Prop} [Decidable condition] {yes no : Proc σ ε α} {P P' : Prop}
    (whenTrue : condition → (Emits Q yes s ↔ P)) (whenFalse : ¬ condition → (Emits Q no s ↔ P')) :
    Emits Q (if condition then yes else no) s ↔ if condition then P else P' := by
  by_cases holds : condition
  · simpa [holds] using whenTrue holds
  · simpa [holds] using whenFalse holds

end Emits

/-! ## Frames -/

/-- From every state, the computation leaves `view` as it was and performs
only events that satisfy `Q`. -/
def Framed {κ : Type} (view : σ → κ) (Q : ε → Prop) (m : Proc σ ε α) : Prop :=
  ∀ s, view (m s).state = view s ∧ Emits Q m s

section Frames

variable {κ : Type} {view : σ → κ} {Q : ε → Prop}

theorem framed_pure (value : α) : Framed view Q (pure value : Proc σ ε α) :=
  fun _ => ⟨rfl, emits_pure value⟩

theorem framed_read : Framed view Q (read : Proc σ ε σ) :=
  fun _ => ⟨rfl, emits_read⟩

theorem framed_emit {event : ε} (allowed : Q event) : Framed view Q (emit event : Proc σ ε Unit) :=
  fun _ => ⟨rfl, (emits_emit event).mpr allowed⟩

theorem framed_update {f : σ → σ} (kept : ∀ s, view (f s) = view s) :
    Framed view Q (update f : Proc σ ε Unit) :=
  fun s => ⟨kept s, emits_update f⟩

theorem Framed.bind {first : Proc σ ε α} {next : α → Proc σ ε β} (before : Framed view Q first)
    (after : ∀ value, Framed view Q (next value)) : Framed view Q (first >>= next) := by
  intro s
  obtain ⟨keptFirst, emitsFirst⟩ := before s
  obtain ⟨keptNext, emitsNext⟩ := after (first s).value (first s).state
  exact ⟨keptNext.trans keptFirst, (emits_bind first next).mpr ⟨emitsFirst, emitsNext⟩⟩

theorem framed_of_kept {m : Proc σ ε α} (kept : ∀ s, view (m s).state = view s) :
    Framed view (fun _ => True) m :=
  fun s => ⟨kept s, fun _ _ => trivial⟩

theorem framed_zoom {part : σ → τ} {put : τ → σ → σ} {inner : Proc τ ε α}
    (kept : ∀ inside s, view (put inside s) = view s) (allowed : ∀ inside, Emits Q inner inside) :
    Framed view Q (zoom part put inner) :=
  fun s => ⟨kept _ s, allowed (part s)⟩

/-- A computation that leaves a view alone leaves alone what the view determines. -/
theorem Framed.coarsen {κ' : Type} {view' : σ → κ'} {m : Proc σ ε α} (framed : Framed view Q m)
    (determined : ∀ s s', view s = view s' → view' s = view' s') : Framed view' Q m :=
  fun s => ⟨determined _ _ (framed s).1, (framed s).2⟩

/-- The same for computations that may throw. -/
theorem Framed.bindThrowing {χ : Type} {first : ExceptT χ (Proc σ ε) α} {next : α → ExceptT χ (Proc σ ε) β}
    (before : Framed view Q first.run) (after : ∀ value, Framed view Q (next value).run) :
    Framed view Q (first >>= next).run := by
  refine Framed.bind before ?_
  intro outcome
  cases outcome with
  | ok value => exact after value
  | error thrown => exact framed_pure _

theorem framed_ite {condition : Prop} [Decidable condition] {yes no : Proc σ ε α}
    (whenTrue : Framed view Q yes) (whenFalse : Framed view Q no) :
    Framed view Q (if condition then yes else no) := by
  by_cases holds : condition <;> simpa [holds]

end Frames

/-! ## Two executions -/

/-- A change of the state makes no difference to the computation, and is still
there at the end. -/
def Ignores (change : σ → σ) (m : Proc σ ε α) : Prop :=
  ∀ s, m (change s) = ⟨(m s).value, change (m s).state, (m s).events⟩

section Ignores

variable {change : σ → σ}

theorem ignores_pure (value : α) : Ignores change (pure value : Proc σ ε α) := fun _ => rfl

theorem ignores_emit (event : ε) : Ignores change (emit event : Proc σ ε Unit) := fun _ => rfl

theorem ignores_update {f : σ → σ} (commutes : ∀ s, f (change s) = change (f s)) :
    Ignores change (update f : Proc σ ε Unit) := by
  intro s
  change (⟨(), f (change s), []⟩ : Outcome σ ε Unit) = _
  rw [commutes]
  rfl

theorem Ignores.bind {first : Proc σ ε α} {next : α → Proc σ ε β} (before : Ignores change first)
    (after : ∀ value, Ignores change (next value)) : Ignores change (first >>= next) := by
  intro s
  ext1
  · rw [bind_value, before s, after]
    rfl
  · rw [bind_state, before s, after]
    rfl
  · rw [bind_events, before s, after]
    rfl

/-- What is read may be used as far as the change leaves it alone. -/
theorem ignores_read_bind {next : σ → Proc σ ε α} (same : ∀ s, next (change s) = next s)
    (each : ∀ s, Ignores change (next s)) : Ignores change (read >>= next) := by
  intro s
  change next (change s) (change s) = _
  rw [same, each]
  rfl

theorem ignores_ite {condition : Prop} [Decidable condition] {yes no : Proc σ ε α}
    (whenTrue : Ignores change yes) (whenFalse : Ignores change no) :
    Ignores change (if condition then yes else no) := by
  by_cases holds : condition <;> simpa [holds]

theorem ignores_zoom {part : σ → τ} {put : τ → σ → σ} {inner : Proc τ ε α}
    (unseen : ∀ s, part (change s) = part s)
    (commutes : ∀ inside s, put inside (change s) = change (put inside s)) :
    Ignores change (zoom part put inner) := by
  intro s
  ext1
  · rw [zoom_value, unseen]
    rfl
  · rw [zoom_state, unseen, commutes]
    rfl
  · rw [zoom_events, unseen]
    rfl

end Ignores

/-! ## Runs -/

/-- Feed a list of inputs to a step, one after the other. -/
def runAll (step : ι → Proc σ ε Unit) : List ι → Proc σ ε Unit
  | [] => pure ()
  | input :: rest => do
      step input
      runAll step rest

section Runs

variable (step : ι → Proc σ ε Unit) (s : σ)

@[simp] theorem runAll_nil_state : (runAll step [] s).state = s := rfl

@[simp] theorem runAll_nil_events : (runAll step [] s).events = [] := rfl

theorem runAll_cons_state (input : ι) (rest : List ι) :
    (runAll step (input :: rest) s).state = (runAll step rest (step input s).state).state := rfl

theorem runAll_cons_events (input : ι) (rest : List ι) :
    (runAll step (input :: rest) s).events =
      (step input s).events ++ (runAll step rest (step input s).state).events := rfl

theorem runAll_append_state (first second : List ι) :
    (runAll step (first ++ second) s).state =
      (runAll step second (runAll step first s).state).state := by
  induction first generalizing s with
  | nil => rfl
  | cons input rest ih => exact ih (step input s).state

theorem runAll_append_events (first second : List ι) :
    (runAll step (first ++ second) s).events =
      (runAll step first s).events ++ (runAll step second (runAll step first s).state).events := by
  induction first generalizing s with
  | nil => rfl
  | cons input rest ih =>
      simp only [List.cons_append, runAll_cons_events, runAll_cons_state, ih, List.append_assoc]

theorem runAll_snoc_state (first : List ι) (last : ι) :
    (runAll step (first ++ [last]) s).state = (step last (runAll step first s).state).state :=
  runAll_append_state step s first [last]

theorem runAll_snoc_events (first : List ι) (last : ι) :
    (runAll step (first ++ [last]) s).events =
      (runAll step first s).events ++ (step last (runAll step first s).state).events := by
  rw [runAll_append_events, runAll_cons_events, runAll_nil_events, List.append_nil]

/-- A relation between the inputs consumed so far, the state reached and the
trace so far holds at the end of a run when every step extends it. -/
theorem runAll_induction (Inv : List ι → σ → List ε → Prop) (inputs : List ι)
    (start : Inv [] s [])
    (extend : ∀ (done : List ι) (input : ι) (state : σ) (events : List ε),
      done ++ [input] <+: inputs → Inv done state events →
        Inv (done ++ [input]) (step input state).state (events ++ (step input state).events)) :
    Inv inputs (runAll step inputs s).state (runAll step inputs s).events := by
  induction inputs using List.reverseRecOn with
  | nil => exact start
  | append_singleton first last ih =>
      rw [runAll_snoc_state, runAll_snoc_events]
      refine extend first last _ _ (List.prefix_refl _) (ih ?_)
      intro done input state events within
      exact extend done input state events (within.trans (List.prefix_append first [last]))

/-- A state predicate that every step preserves holds at the end of every run. -/
theorem runAll_preserves (Inv : σ → Prop) (inputs : List ι) (start : Inv s)
    (preserved : ∀ input ∈ inputs, ∀ state, Inv state → Inv (step input state).state) :
    Inv (runAll step inputs s).state := by
  refine runAll_induction step s (fun _ state _ => Inv state) inputs start ?_
  intro done input state events within holds
  exact preserved input (within.subset (by simp)) state holds

end Runs

/-- Every step of the run meets `P`, a condition on the state before the step
and the input it consumes. -/
def Along (step : ι → Proc σ ε Unit) (P : σ → ι → Prop) : σ → List ι → Prop
  | _, [] => True
  | s, input :: rest => P s input ∧ Along step P (step input s).state rest

instance decidableAlong (step : ι → Proc σ ε Unit) (P : σ → ι → Prop) [∀ s input, Decidable (P s input)] :
    (s : σ) → (inputs : List ι) → Decidable (Along step P s inputs)
  | _, [] => inferInstanceAs (Decidable True)
  | s, input :: rest =>
      have := decidableAlong step P (step input s).state rest
      inferInstanceAs (Decidable (P s input ∧ Along step P (step input s).state rest))

theorem along_snoc {step : ι → Proc σ ε Unit} {P : σ → ι → Prop} (first : List ι) (last : ι) (s : σ) :
    Along step P s (first ++ [last]) ↔
      Along step P s first ∧ P (runAll step first s).state last := by
  induction first generalizing s with
  | nil => exact and_comm
  | cons input rest ih =>
      rw [List.cons_append, Along, Along, ih, and_assoc]
      rfl

theorem along_of_forall {step : ι → Proc σ ε Unit} {P : σ → ι → Prop} {inputs : List ι}
    (always : ∀ s, ∀ input ∈ inputs, P s input) (s : σ) : Along step P s inputs := by
  induction inputs generalizing s with
  | nil => trivial
  | cons input rest ih =>
      exact ⟨always s input List.mem_cons_self, ih (fun s i member => always s i (.tail _ member)) _⟩

/-- A run performs only allowed events when each of its steps does. -/
theorem emits_runAll (step : ι → Proc σ ε Unit) (Q : ε → Prop) (inputs : List ι) (s : σ) :
    Emits Q (runAll step inputs) s ↔
      Along step (fun state input => Emits Q (step input) state) s inputs := by
  induction inputs generalizing s with
  | nil => exact iff_of_true (emits_pure ()) trivial
  | cons input rest ih =>
      rw [runAll, emits_bind, Along, ih]

/-- What is noted beside a run: each input changes the note, in the state it
meets. -/
def noting {κ : Type} (step : ι → Proc σ ε Unit) (note : σ → ι → κ → κ) : σ → κ → List ι → κ
  | _, noted, [] => noted
  | s, noted, input :: rest => noting step note (step input s).state (note s input noted) rest

section Noting

variable {κ : Type} (step : ι → Proc σ ε Unit) (note : σ → ι → κ → κ)

theorem noting_snoc (first : List ι) (last : ι) (s : σ) (noted : κ) :
    noting step note s noted (first ++ [last]) =
      note (runAll step first s).state last (noting step note s noted first) := by
  induction first generalizing s noted with
  | nil => rfl
  | cons input rest ih => exact ih (step input s).state (note s input noted)

/-- A relation between the state and the note that every step preserves which meets a
condition holds at the end of every run along which the condition is met. -/
theorem noting_preserves {P : σ → ι → Prop} (Inv : σ → κ → Prop)
    (preserved : ∀ input state noted, P state input → Inv state noted →
      Inv (step input state).state (note state input noted))
    (inputs : List ι) {s : σ} {noted : κ} (met : Along step P s inputs) (start : Inv s noted) :
    Inv (runAll step inputs s).state (noting step note s noted inputs) := by
  induction inputs generalizing s noted with
  | nil => exact start
  | cons input rest ih => exact ih met.2 (preserved input s noted met.1 start)

end Noting

/-- Two conditions that agree in every state satisfying an invariant agree
along every run on which the first of them keeps the invariant. -/
theorem along_congr {step : ι → Proc σ ε Unit} {P P' : σ → ι → Prop} (Inv : σ → Prop)
    (agree : ∀ s input, Inv s → (P s input ↔ P' s input))
    (preserved : ∀ s input, Inv s → P s input → Inv (step input s).state)
    (inputs : List ι) (s : σ) (start : Inv s) :
    Along step P s inputs ↔ Along step P' s inputs := by
  induction inputs generalizing s with
  | nil => exact Iff.rfl
  | cons input rest ih =>
      simp only [Along]
      rw [← agree s input start]
      exact and_congr_right fun holds => ih _ (preserved s input start holds)

/-- Some step of the run meets `P`, and every later one meets `Q`. -/
def Since (step : ι → Proc σ ε Unit) (P Q : σ → ι → Prop) (s : σ) (inputs : List ι) : Prop :=
  ∃ before input after, inputs = before ++ input :: after ∧ P (runAll step before s).state input ∧
    Along step Q (runAll step (before ++ [input]) s).state after

section Since

variable {step : ι → Proc σ ε Unit} {P Q : σ → ι → Prop}

theorem not_since_nil (s : σ) : ¬ Since step P Q s [] := by
  rintro ⟨before, input, after, split, -⟩
  exact List.append_ne_nil_of_right_ne_nil before (List.cons_ne_nil input after) split.symm

theorem since_snoc (first : List ι) (last : ι) (s : σ) :
    Since step P Q s (first ++ [last]) ↔
      P (runAll step first s).state last ∨
        Since step P Q s first ∧ Q (runAll step first s).state last := by
  constructor
  · rintro ⟨before, input, after, split, holds, later⟩
    rcases List.eq_nil_or_concat after with rfl | ⟨middle, final, rfl⟩
    · obtain ⟨rfl, last⟩ := List.append_inj' split rfl
      cases last
      exact .inl holds
    · rw [List.concat_eq_append] at later split
      rw [← List.cons_append, ← List.append_assoc] at split
      obtain ⟨rfl, last⟩ := List.append_inj' split rfl
      cases last
      rw [along_snoc, ← runAll_append_state, List.append_assoc] at later
      exact .inr ⟨⟨before, input, middle, rfl, holds, later.1⟩, later.2⟩
  · rintro (holds | ⟨⟨before, input, middle, rfl, holds, later⟩, stays⟩)
    · exact ⟨first, last, [], rfl, holds, trivial⟩
    · refine ⟨before, input, middle ++ [last], by simp, holds, ?_⟩
      rw [along_snoc, ← runAll_append_state, List.append_assoc]
      exact ⟨later, stays⟩

end Since

end Proc

end SwitchLanPlay.Library
