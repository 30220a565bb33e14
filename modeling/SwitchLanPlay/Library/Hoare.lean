import SwitchLanPlay.Library.Proc
import SwitchLanPlay.Library.Traces

/-!
# Pre- and postconditions over state and trace

A condition speaks about the state and about everything that happened so far.
`Triple before m after` says that `m`, started where `before` holds of the state
and of the trace, ends where `after` holds of its value, the next state and the
trace extended by its events.
-/

namespace SwitchLanPlay.Library

namespace Proc

variable {σ ε α β ι : Type}

def Triple (before : σ → List ε → Prop) (m : Proc σ ε α) (after : α → σ → List ε → Prop) : Prop :=
  ∀ s past, before s past → after (m s).value (m s).state (past ++ (m s).events)

section Rules

variable {before : σ → List ε → Prop} {after : α → σ → List ε → Prop}

theorem triple_pure {value : α} (holds : ∀ s past, before s past → after value s past) :
    Triple before (pure value) after := by
  intro s past pre
  simpa using holds s past pre

theorem triple_update {f : σ → σ} {after : Unit → σ → List ε → Prop}
    (holds : ∀ s past, before s past → after () (f s) past) : Triple before (update f) after := by
  intro s past pre
  simpa using holds s past pre

theorem triple_emit {event : ε} {after : Unit → σ → List ε → Prop}
    (holds : ∀ s past, before s past → after () s (past ++ [event])) :
    Triple before (emit event) after :=
  holds

theorem Triple.bind {first : Proc σ ε β} {next : β → Proc σ ε α}
    (middle : β → σ → List ε → Prop) (begins : Triple before first middle)
    (ends : ∀ value, Triple (middle value) (next value) after) :
    Triple before (first >>= next) after := by
  intro s past pre
  have done := ends _ _ _ (begins s past pre)
  rwa [List.append_assoc] at done

/-- The state that is read is the state the rest starts in. -/
theorem triple_read_bind {next : σ → Proc σ ε α}
    (ends : ∀ s, Triple (fun s' past => s' = s ∧ before s' past) (next s) after) :
    Triple before (read >>= next) after := by
  intro s past pre
  exact ends s s past ⟨rfl, pre⟩

theorem triple_ite {condition : Prop} [Decidable condition] {yes no : Proc σ ε α}
    (whenTrue : condition → Triple before yes after)
    (whenFalse : ¬ condition → Triple before no after) :
    Triple before (if condition then yes else no) after := by
  by_cases holds : condition
  · simpa [holds] using whenTrue holds
  · simpa [holds] using whenFalse holds

theorem Triple.strengthen {before' : σ → List ε → Prop} {m : Proc σ ε α} (triple : Triple before m after)
    (stronger : ∀ s past, before' s past → before s past) : Triple before' m after :=
  fun s past pre => triple s past (stronger s past pre)

theorem Triple.weaken {after' : α → σ → List ε → Prop} {m : Proc σ ε α} (triple : Triple before m after)
    (weaker : ∀ value s past, after value s past → after' value s past) : Triple before m after' :=
  fun s past pre => weaker _ _ _ (triple s past pre)

/-- What is read decides how to go on, and nothing else about it matters. -/
theorem triple_read_bind_of_forall {next : σ → Proc σ ε α}
    (ends : ∀ s, Triple before (next s) after) : Triple before (read >>= next) after :=
  triple_read_bind fun s => (ends s).strengthen fun _ _ pre => pre.2

/-- A consequence of the precondition that does not mention the state. -/
theorem Triple.of_fact {m : Proc σ ε α} {fact : Prop} (implied : ∀ s past, before s past → fact)
    (holds : fact → Triple before m after) : Triple before m after :=
  fun s past pre => holds (implied s past pre) s past pre

end Rules

/-! ## Invariants of the state -/

/-- Where `Inv` holds, `m` keeps it, and all its events satisfy `Q`. -/
def Keeps (Inv : σ → Prop) (Q : ε → Prop) (m : Proc σ ε α) : Prop :=
  ∀ s, Inv s → Inv (m s).state ∧ m.Emits Q s

section Keeps

variable {Inv : σ → Prop} {Q : ε → Prop}

theorem keeps_pure (value : α) : Keeps Inv Q (pure value : Proc σ ε α) :=
  fun _ holds => ⟨holds, emits_pure value⟩

theorem keeps_emit {event : ε} (allowed : Q event) : Keeps Inv Q (emit event : Proc σ ε Unit) :=
  fun _ holds => ⟨holds, (emits_emit event).mpr allowed⟩

theorem keeps_update {f : σ → σ} (kept : ∀ s, Inv s → Inv (f s)) :
    Keeps Inv Q (update f : Proc σ ε Unit) :=
  fun s holds => ⟨kept s holds, emits_update f⟩

theorem Keeps.bind {first : Proc σ ε α} {next : α → Proc σ ε β} (begins : Keeps Inv Q first)
    (ends : ∀ value, Keeps Inv Q (next value)) : Keeps Inv Q (first >>= next) := by
  intro s holds
  obtain ⟨middle, emitted⟩ := begins s holds
  obtain ⟨last, rest⟩ := ends (first s).value (first s).state middle
  exact ⟨last, (emits_bind first next).mpr ⟨emitted, rest⟩⟩

/-- The branches on what is read need only be considered where the invariant
holds. -/
theorem keeps_read_bind {next : σ → Proc σ ε α} (ends : ∀ s, Inv s → Keeps Inv Q (next s)) :
    Keeps Inv Q (read >>= next) := by
  intro s holds
  rw [emits_read_bind]
  exact ends s holds s holds

theorem keeps_ite {condition : Prop} [Decidable condition] {yes no : Proc σ ε α}
    (whenTrue : condition → Keeps Inv Q yes) (whenFalse : ¬ condition → Keeps Inv Q no) :
    Keeps Inv Q (if condition then yes else no) := by
  by_cases holds : condition
  · simpa [holds] using whenTrue holds
  · simpa [holds] using whenFalse holds

theorem keeps_runAll {step : ι → Proc σ ε Unit} (each : ∀ input, Keeps Inv Q (step input))
    (inputs : List ι) : Keeps Inv Q (runAll step inputs) := by
  induction inputs with
  | nil => exact keeps_pure ()
  | cons input rest ih => exact (each input).bind fun _ => ih

/-- The state satisfies `P`, and all events so far satisfy `Q`. -/
def Clean (P : σ → Prop) (Q : ε → Prop) (s : σ) (past : List ε) : Prop :=
  P s ∧ ∀ event ∈ past, Q event

theorem keeps_iff_triple {m : Proc σ ε α} :
    Keeps Inv Q m ↔ Triple (Clean Inv Q) m fun _ => Clean Inv Q := by
  constructor
  · rintro keeps s past ⟨holds, clean⟩
    obtain ⟨after, emitted⟩ := keeps s holds
    exact ⟨after, List.forall_mem_append.mpr ⟨clean, emitted⟩⟩
  · intro triple s holds
    exact triple s [] ⟨holds, nofun⟩

end Keeps

/-! ## Relations between state and trace -/

/-- A relation between the state and everything that happened so far, which
`m` leaves true. -/
def Stable (J : σ → List ε → Prop) (m : Proc σ ε α) : Prop := Triple J m fun _ => J

section Stable

variable {J : σ → List ε → Prop}

theorem stable_pure (value : α) : Stable J (pure value : Proc σ ε α) :=
  triple_pure fun _ _ holds => holds

theorem stable_read : Stable J (read : Proc σ ε σ) := by
  intro s past holds
  simpa using holds

theorem Stable.bind {first : Proc σ ε α} {next : α → Proc σ ε β} (begins : Stable J first)
    (ends : ∀ value, Stable J (next value)) : Stable J (first >>= next) :=
  Triple.bind (fun _ => J) begins ends

theorem stable_ite {condition : Prop} [Decidable condition] {yes no : Proc σ ε α}
    (whenTrue : Stable J yes) (whenFalse : Stable J no) : Stable J (if condition then yes else no) :=
  triple_ite (fun _ => whenTrue) fun _ => whenFalse

/-- A computation on a component keeps what it keeps around every whole. -/
theorem stable_zoom {τ : Type} {part : τ → σ} {put : σ → τ → τ} {inner : Proc σ ε α} {J : τ → List ε → Prop}
    (get : ∀ whole, put (part whole) whole = whole)
    (inside : ∀ whole, Stable (fun s past => J (put s whole) past) inner) : Stable J (zoom part put inner) := by
  intro whole past holds
  have start : J (put (part whole) whole) past := (get whole).symm ▸ holds
  exact inside whole (part whole) past start

end Stable

end Proc

/-! ## Every event, given what happened before it -/

/-- Each event of the trace satisfies `P` with the events in front of it. -/
def Throughout {ε : Type} (P : List ε → ε → Prop) (events : List ε) : Prop :=
  ∀ before event after, events = before ++ event :: after → P before event

theorem throughout_nil {ε : Type} (P : List ε → ε → Prop) : Throughout P [] := by
  intro before event after empty
  simp at empty

theorem Throughout.snoc {ε : Type} {P : List ε → ε → Prop} {events : List ε}
    (holds : Throughout P events) {event : ε} (last : P events event) :
    Throughout P (events ++ [event]) := by
  intro before found after split
  rcases List.eq_nil_or_concat after with rfl | ⟨front, final, rfl⟩
  · obtain ⟨same, here⟩ := List.append_inj' split rfl
    cases here
    exact same ▸ last
  · refine holds before found front ?_
    have inner : events ++ [event] = (before ++ found :: front) ++ [final] := by
      simpa using split
    exact (List.append_inj' inner rfl).1

end SwitchLanPlay.Library
