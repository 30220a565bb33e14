import SwitchLanPlay.Library.Proc

/-!
# Two computations side by side

When two models embed the same code over different states, `Paired` says that
they do the same: started in related situations, the two computations end in
related situations.  A situation is a state together with the trace up to it.
There is a rule for each way to build a computation, and one for a step that only
one of the two sides takes.
-/

namespace SwitchLanPlay.Library.Proc

variable {σ τ ε δ α α' β β' ι κ : Type}

/-- Side by side, the computations lead from `before` to `after`. -/
def Paired (before : σ → List ε → τ → List δ → Prop) (m : Proc σ ε α) (m' : Proc τ δ β)
    (after : α → β → σ → List ε → τ → List δ → Prop) : Prop :=
  ∀ s past t past', before s past t past' →
    after (m s).value (m' t).value (m s).state (past ++ (m s).events) (m' t).state (past' ++ (m' t).events)

/-- The situations are related, and the values are the same. -/
def Same (R : σ → List ε → τ → List δ → Prop) (value value' : α) (s : σ) (past : List ε) (t : τ) (past' : List δ) :
    Prop := value = value' ∧ R s past t past'

section Rules

variable {before between : σ → List ε → τ → List δ → Prop} {after : α → β → σ → List ε → τ → List δ → Prop}
  {m : Proc σ ε α} {m' : Proc τ δ β}

theorem paired_pure {value : α} {value' : β}
    (holds : ∀ s past t past', before s past t past' → after value value' s past t past') :
    Paired before (pure value) (pure value') after := by
  intro s past t past' pre
  simpa using holds s past t past' pre

theorem Paired.bind {first : Proc σ ε α'} {first' : Proc τ δ β'} {next : α' → Proc σ ε α}
    {next' : β' → Proc τ δ β} (middle : α' → β' → σ → List ε → τ → List δ → Prop)
    (begins : Paired before first first' middle)
    (ends : ∀ value value', Paired (middle value value') (next value) (next' value') after) :
    Paired before (first >>= next) (first' >>= next') after := by
  intro s past t past' pre
  have done := ends _ _ _ _ _ _ (begins s past t past' pre)
  simpa only [bind_value, bind_state, bind_events, List.append_assoc] using done

theorem paired_done : Paired before (pure () : Proc σ ε Unit) (pure () : Proc τ δ Unit) fun _ _ => before :=
  paired_pure fun _ _ _ _ related => related

theorem paired_return (value : α) : Paired before (pure value : Proc σ ε α) (pure value : Proc τ δ α) (Same before) :=
  paired_pure fun _ _ _ _ related => ⟨rfl, related⟩

/-- A first step with the same value on both sides. -/
theorem Paired.bind_same {first : Proc σ ε α'} {first' : Proc τ δ α'} {next : α' → Proc σ ε α}
    {next' : α' → Proc τ δ β} (begins : Paired before first first' (Same between))
    (ends : ∀ value, Paired between (next value) (next' value) after) :
    Paired before (first >>= next) (first' >>= next') after := by
  refine begins.bind _ fun value value' => ?_
  rintro s past t past' ⟨rfl, related⟩
  exact ends value s past t past' related

theorem Paired.strengthen (paired : Paired between m m' after)
    (implies : ∀ s past t past', before s past t past' → between s past t past') : Paired before m m' after :=
  fun s past t past' pre => paired s past t past' (implies s past t past' pre)

/-- A fact that follows from the precondition may be used. -/
theorem Paired.of_fact {fact : Prop} (implied : ∀ s past t past', before s past t past' → fact)
    (holds : fact → Paired before m m' after) : Paired before m m' after :=
  fun s past t past' pre => holds (implied s past t past' pre) s past t past' pre

theorem paired_ite {condition condition' : Prop} [Decidable condition] [Decidable condition']
    {yes no : Proc σ ε α} {yes' no' : Proc τ δ β} (same : condition ↔ condition')
    (whenTrue : condition → Paired before yes yes' after) (whenFalse : ¬ condition → Paired before no no' after) :
    Paired before (if condition then yes else no) (if condition' then yes' else no') after := by
  by_cases holds : condition
  · rw [if_pos holds, if_pos (same.mp holds)]
    exact whenTrue holds
  · rw [if_neg holds, if_neg fun holds' => holds (same.mpr holds')]
    exact whenFalse holds

end Rules

/-! ## Steps of both sides, and of one side -/

section Steps

variable {before between : σ → List ε → τ → List δ → Prop} {after : α → β → σ → List ε → τ → List δ → Prop}
  {m : Proc σ ε α} {m' : Proc τ δ β}

theorem paired_update {f : σ → σ} {g : τ → τ} {after : Unit → Unit → σ → List ε → τ → List δ → Prop}
    (holds : ∀ s past t past', before s past t past' → after () () (f s) past (g t) past') :
    Paired before (update f) (update g) after := by
  intro s past t past' pre
  simpa using holds s past t past' pre

theorem Paired.emit_left {event : ε} (paired : Paired between m m' after)
    (holds : ∀ s past t past', before s past t past' → between s (past ++ [event]) t past') :
    Paired before (emit event >>= fun _ => m) m' after := by
  intro s past t past' pre
  have done := paired s (past ++ [event]) t past' (holds s past t past' pre)
  simpa using done

theorem Paired.emit_right {event : δ} (paired : Paired between m m' after)
    (holds : ∀ s past t past', before s past t past' → between s past t (past' ++ [event])) :
    Paired before m (emit event >>= fun _ => m') after := by
  intro s past t past' pre
  have done := paired s past t (past' ++ [event]) (holds s past t past' pre)
  simpa using done

theorem paired_read_right {next' : τ → Proc τ δ β}
    (each : ∀ t, Paired (fun s past t' past' => t' = t ∧ before s past t' past') m (next' t) after) :
    Paired before m (read >>= next') after := by
  intro s past t past' pre
  have done := each t s past t past' ⟨rfl, pre⟩
  simpa using done

end Steps

/-- A first step without events only changes where the next one starts. -/
theorem bind_of_silent {first : Proc σ ε α'} {next : α' → Proc σ ε α} {s s' : σ} {value : α'}
    (silent : first s = ⟨value, s', []⟩) : (first >>= next) s = next value s' := by
  ext1 <;> simp [silent]

/-- What the steps preserve side by side, whole runs preserve.  Some inputs of the one
side are none of the other. -/
theorem paired_runAll {R : σ → List ε → τ → List δ → Prop} {step : ι → Proc σ ε Unit} {step' : κ → Proc τ δ Unit}
    (P : σ → ι → Prop) (map : ι → Option κ)
    (each : ∀ input, Paired (fun s past t past' => P s input ∧ R s past t past') (step input)
      ((map input).elim (pure ()) step') fun _ _ => R) (inputs : List ι) :
    Paired (fun s past t past' => Along step P s inputs ∧ R s past t past') (runAll step inputs)
      (runAll step' (inputs.filterMap map)) fun _ _ => R := by
  induction inputs with
  | nil => exact paired_pure fun _ _ _ _ pre => pre.2
  | cons input rest ih =>
      rintro s past t past' ⟨⟨first, others⟩, related⟩
      have now := each input s past t past' ⟨first, related⟩
      have done := ih _ _ _ _ ⟨others, now⟩
      cases mapped : map input with
      | none =>
          rw [List.filterMap_cons_none mapped]
          simpa [mapped, runAll] using done
      | some input' =>
          rw [List.filterMap_cons_some mapped]
          simpa [mapped, runAll] using done

end SwitchLanPlay.Library.Proc
