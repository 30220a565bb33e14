import Mathlib.Data.List.Basic

/-!
# Texts with separators

A text that is put together from pieces and separators determines its pieces, as
long as no piece contains a separator.
-/

namespace SwitchLanPlay.Library

variable {α : Type} {separator : α}

/-- The piece in front of the first separator is determined. -/
theorem append_separator_inj {first second rest rest' : List α} (firstFree : separator ∉ first)
    (secondFree : separator ∉ second) (same : first ++ separator :: rest = second ++ separator :: rest') :
    first = second ∧ rest = rest' := by
  induction first generalizing second with
  | nil =>
      cases second with
      | nil => exact ⟨rfl, (List.cons.inj same).2⟩
      | cons head tail => exact absurd (List.cons.inj same).1 fun equal => secondFree (equal ▸ List.mem_cons_self)
  | cons head tail ih =>
      cases second with
      | nil => exact absurd (List.cons.inj same).1 fun equal => firstFree (equal ▸ List.mem_cons_self)
      | cons head' tail' =>
          obtain ⟨heads, tails⟩ := List.cons.inj same
          obtain ⟨tailSame, restSame⟩ := ih (fun member => firstFree (List.mem_cons_of_mem _ member))
            (fun member => secondFree (List.mem_cons_of_mem _ member)) tails
          exact ⟨by rw [heads, tailSame], restSame⟩

/-! ## The first separator -/

section First

variable [DecidableEq α] {text : List α}

theorem findIdx?_of_free (free : separator ∉ text) : text.findIdx? (· = separator) = none := by
  rw [List.findIdx?_eq_none_iff]
  intro item member
  exact decide_eq_false (ne_of_mem_of_not_mem member free)

theorem findIdx?_separator {front : List α} (free : separator ∉ front) (rest : List α) :
    (front ++ separator :: rest).findIdx? (· = separator) = some front.length := by
  simp [List.findIdx?_append, findIdx?_of_free free, List.findIdx?_cons]

/-- Where the first separator is, there is the end of the first piece. -/
theorem findIdx?_eq_some_iff_cut {index : Nat} :
    text.findIdx? (· = separator) = some index ↔
      ∃ front rest, text = front ++ separator :: rest ∧ separator ∉ front ∧ index = front.length := by
  constructor
  · intro found
    obtain ⟨inside, here, before⟩ := List.findIdx?_eq_some_iff_getElem.mp found
    have mark : text[index] = separator := of_decide_eq_true here
    refine ⟨text.take index, text.drop (index + 1), ?_, fun member => ?_, ?_⟩
    · rw [← mark, ← List.drop_eq_getElem_cons inside, List.take_append_drop]
    · obtain ⟨earlier, bound, same⟩ := List.mem_take_iff_getElem.mp member
      exact before earlier (by omega) (decide_eq_true same)
    · rw [List.length_take_of_le (Nat.le_of_lt inside)]
  · rintro ⟨front, rest, rfl, free, rfl⟩
    exact findIdx?_separator free rest

end First

/-! ## Terminated lines -/

/-- The lines one after the other, each followed by the separator. -/
def terminated (separator : α) (lines : List (List α)) : List α := lines.flatMap (· ++ [separator])

@[simp] theorem terminated_nil : terminated separator [] = [] := rfl

theorem terminated_cons (line : List α) (rest : List (List α)) :
    terminated separator (line :: rest) = line ++ separator :: terminated separator rest := by
  rw [terminated, List.flatMap_cons, List.append_assoc]
  rfl

theorem terminated_concat (lines : List (List α)) (line : List α) :
    terminated separator (lines ++ [line]) = terminated separator lines ++ line ++ [separator] := by
  rw [terminated, List.flatMap_append, List.flatMap_singleton, ← List.append_assoc]
  rfl

/-- The separator stands between lines; an empty one at the end terminates the last. -/
theorem intercalate_concat_nil (lines : List (List α)) :
    [separator].intercalate (lines ++ [[]]) = terminated separator lines := by
  induction lines with
  | nil => rfl
  | cons line rest ih =>
      rw [terminated_cons, ← ih]
      cases rest with
      | nil => rfl
      | cons next others => rfl

theorem terminated_inj {first second : List (List α)} (firstFree : ∀ line ∈ first, separator ∉ line)
    (secondFree : ∀ line ∈ second, separator ∉ line)
    (same : terminated separator first = terminated separator second) : first = second := by
  induction first generalizing second with
  | nil =>
      cases second with
      | nil => rfl
      | cons line rest =>
          rw [terminated_nil, terminated_cons] at same
          cases List.append_ne_nil_of_right_ne_nil _ (List.cons_ne_nil _ _) same.symm
  | cons line rest ih =>
      cases second with
      | nil =>
          rw [terminated_nil, terminated_cons] at same
          cases List.append_ne_nil_of_right_ne_nil _ (List.cons_ne_nil _ _) same
      | cons line' rest' =>
          rw [terminated_cons, terminated_cons] at same
          obtain ⟨sameLine, sameRest⟩ := append_separator_inj (firstFree line List.mem_cons_self)
            (secondFree line' List.mem_cons_self) same
          rw [sameLine, ih (fun other member => firstFree other (List.mem_cons_of_mem _ member))
            (fun other member => secondFree other (List.mem_cons_of_mem _ member)) sameRest]

section Count

variable [DecidableEq α]

theorem count_terminated_cons (line : List α) (rest : List (List α)) :
    (terminated separator (line :: rest)).count separator =
      line.count separator + ((terminated separator rest).count separator + 1) := by
  rw [terminated_cons, List.count_append, List.count_cons_self]

theorem length_le_count_terminated (lines : List (List α)) :
    lines.length ≤ (terminated separator lines).count separator := by
  induction lines with
  | nil => exact Nat.zero_le _
  | cons line rest ih =>
      rw [count_terminated_cons, List.length_cons]
      omega

/-- There is a separator for each line, and no other if the lines are free of them. -/
theorem count_terminated_iff (lines : List (List α)) :
    (terminated separator lines).count separator = lines.length ↔ ∀ line ∈ lines, separator ∉ line := by
  induction lines with
  | nil => exact iff_of_true rfl (List.forall_mem_nil _)
  | cons line rest ih =>
      have least : rest.length ≤ (terminated separator rest).count separator := length_le_count_terminated rest
      rw [count_terminated_cons, List.length_cons, List.forall_mem_cons, ← ih, ← List.count_eq_zero]
      omega

/-- A text that can be read as lines without separators is made of them, if it is made of
equally many lines. -/
theorem terminated_inj_of_length {first second : List (List α)} (length : first.length = second.length)
    (secondFree : ∀ line ∈ second, separator ∉ line)
    (same : terminated separator first = terminated separator second) : first = second := by
  have firstFree : ∀ line ∈ first, separator ∉ line := by
    rw [← count_terminated_iff, same, length]
    exact (count_terminated_iff second).mpr secondFree
  exact terminated_inj firstFree secondFree same

end Count

/-! ## Texts cut into lines -/

/-- The terminated lines of a text, and what comes behind the last separator. -/
structure CutInto (separator : α) (text : List α) (lines : List (List α)) (tail : List α) : Prop where
  text_eq : text = terminated separator lines ++ tail
  lines_free : ∀ line ∈ lines, separator ∉ line
  tail_free : separator ∉ tail

namespace CutInto

variable {text more tail tail' : List α} {lines lines' : List (List α)}

theorem of_free (free : separator ∉ text) : CutInto separator text [] text :=
  ⟨rfl, List.forall_mem_nil _, free⟩

theorem cons {line : List α} (free : separator ∉ line) (cut : CutInto separator text lines tail) :
    CutInto separator (line ++ separator :: text) (line :: lines) tail := by
  refine ⟨?_, List.forall_mem_cons.mpr ⟨free, cut.lines_free⟩, cut.tail_free⟩
  rw [terminated_cons, List.append_assoc, List.cons_append, ← cut.text_eq]

/-- More text continues the tail. -/
theorem append (cut : CutInto separator text lines tail) (later : CutInto separator (tail ++ more) lines' tail') :
    CutInto separator (text ++ more) (lines ++ lines') tail' := by
  refine ⟨?_, List.forall_mem_append.mpr ⟨cut.lines_free, later.lines_free⟩, later.tail_free⟩
  rw [cut.text_eq, List.append_assoc, later.text_eq, terminated, terminated, terminated, List.flatMap_append,
    List.append_assoc]

/-- Every text can be cut. -/
theorem total [DecidableEq α] (separator : α) (text : List α) :
    ∃ lines tail, CutInto separator text lines tail := by
  induction text with
  | nil => exact ⟨[], [], of_free List.not_mem_nil⟩
  | cons head rest ih =>
      obtain ⟨lines, tail, cut⟩ := ih
      by_cases here : head = separator
      · subst here
        exact ⟨[] :: lines, tail, cut.cons List.not_mem_nil⟩
      · have apart : separator ≠ head := fun same => here same.symm
        cases lines with
        | nil =>
            refine ⟨[], head :: tail, ?_⟩
            rw [cut.text_eq, terminated_nil, List.nil_append]
            exact of_free (List.not_mem_cons_of_ne_of_not_mem apart cut.tail_free)
        | cons line others =>
            refine ⟨(head :: line) :: others, tail, ?_⟩
            have longer : separator ∉ head :: line :=
              List.not_mem_cons_of_ne_of_not_mem apart (cut.lines_free line List.mem_cons_self)
            rw [cut.text_eq, terminated_cons, List.append_assoc, List.cons_append]
            refine cons longer ⟨rfl, ?_, cut.tail_free⟩
            exact fun other member => cut.lines_free other (List.mem_cons_of_mem _ member)

/-- A text can be cut in one way only. -/
theorem unique (cut : CutInto separator text lines tail) (cut' : CutInto separator text lines' tail') :
    lines = lines' ∧ tail = tail' := by
  obtain ⟨rfl, free, tailFree⟩ := cut
  obtain ⟨same, free', tailFree'⟩ := cut'
  induction lines generalizing lines' with
  | nil =>
      cases lines' with
      | nil => exact ⟨rfl, same⟩
      | cons line' rest' =>
          rw [terminated_nil, List.nil_append, terminated_cons, List.append_assoc] at same
          exact absurd (same ▸ tailFree) (fun absent => absent (List.mem_append_right _ List.mem_cons_self))
  | cons line rest ih =>
      cases lines' with
      | nil =>
          rw [terminated_nil, List.nil_append, terminated_cons, List.append_assoc] at same
          exact absurd (same ▸ tailFree') (fun absent => absent (List.mem_append_right _ List.mem_cons_self))
      | cons line' rest' =>
          rw [terminated_cons, terminated_cons, List.append_assoc, List.append_assoc, List.cons_append,
            List.cons_append] at same
          obtain ⟨rfl, sameRest⟩ := append_separator_inj (free line List.mem_cons_self)
            (free' line' List.mem_cons_self) same
          obtain ⟨rfl, sameTail⟩ := ih (fun other member => free other (List.mem_cons_of_mem _ member)) sameRest
            (fun other member => free' other (List.mem_cons_of_mem _ member))
          exact ⟨rfl, sameTail⟩

end CutInto

end SwitchLanPlay.Library
