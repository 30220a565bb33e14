import SwitchLanPlay.Library.Bytes

/-!
# Streams cut into blocks

A state that is advanced by whole blocks of a fixed size, and the elements that
wait behind the last whole block.  `chained_append` and `tailBlock_append` are the
rule for a stream that arrives in pieces: what is left over of the first piece is
put in front of the second.
-/

namespace SwitchLanPlay.Library

section Blocks

variable {α σ : Type} (size : Nat) (step : σ → List α → σ)

/-- The state behind the last whole block. -/
def chained (start : σ) (elements : List α) : σ :=
  (List.range (elements.length / size)).foldl
    (fun state index => step state ((elements.drop (size * index)).take size)) start

/-- The elements behind the last whole block. -/
def tailBlock (elements : List α) : List α := elements.drop (size * (elements.length / size))

theorem length_tailBlock (elements : List α) : (tailBlock size elements).length = elements.length % size := by
  rw [tailBlock, List.length_drop]
  have parts := Nat.mod_add_div elements.length size
  omega

variable {size} {elements : List α}

theorem chained_short (short : elements.length < size) (start : σ) :
    chained size step start elements = start := by
  rw [chained, Nat.div_eq_of_lt short]
  rfl

theorem tailBlock_short (short : elements.length < size) : tailBlock size elements = elements := by
  rw [tailBlock, Nat.div_eq_of_lt short, Nat.mul_zero, List.drop_zero]

theorem div_drop (positive : 0 < size) (long : size ≤ elements.length) :
    elements.length / size = (elements.drop size).length / size + 1 := by
  rw [List.length_drop, ← Nat.div_eq_sub_div positive long]

/-- One whole block. -/
theorem chained_block (positive : 0 < size) (long : size ≤ elements.length) (start : σ) :
    chained size step start elements =
      chained size step (step start (elements.take size)) (elements.drop size) := by
  rw [chained, div_drop positive long, List.range_succ_eq_map, List.foldl_cons, List.foldl_map, chained]
  have blocks : ∀ index, (elements.drop (size * index.succ)).take size =
      ((elements.drop size).drop (size * index)).take size := by
    intro index
    rw [List.drop_drop, Nat.mul_succ, Nat.add_comm]
  simp only [blocks, Nat.mul_zero, List.drop_zero]

theorem tailBlock_block (positive : 0 < size) (long : size ≤ elements.length) :
    tailBlock size elements = tailBlock size (elements.drop size) := by
  rw [tailBlock, tailBlock, div_drop positive long, List.drop_drop, Nat.mul_succ, Nat.add_comm]

/-- The induction rule: short streams, and one block more. -/
theorem blocks_induction {motive : List α → Prop} (positive : 0 < size)
    (short : ∀ elements, elements.length < size → motive elements)
    (block : ∀ elements, size ≤ elements.length → motive (elements.drop size) → motive elements)
    (elements : List α) : motive elements := by
  induction length : elements.length using Nat.strongRecOn generalizing elements with
  | ind count ih =>
    by_cases long : size ≤ elements.length
    · apply block elements long
      apply ih ((elements.drop size).length) _ _ rfl
      rw [List.length_drop]
      omega
    · exact short elements (by omega)

/-- A stream in two pieces. -/
theorem chained_append (positive : 0 < size) (first second : List α) (start : σ) :
    chained size step start (first ++ second) =
      chained size step (chained size step start first) (tailBlock size first ++ second) := by
  induction first using blocks_induction positive generalizing start with
  | short first short => rw [chained_short step short, tailBlock_short short]
  | block first long ih =>
    have longer : size ≤ (first ++ second).length := by
      rw [List.length_append]
      omega
    rw [chained_block step positive longer, List.take_append_of_le_length long,
      List.drop_append_of_le_length long, ih, chained_block step positive long, tailBlock_block positive long]

theorem tailBlock_append (positive : 0 < size) (first second : List α) :
    tailBlock size (first ++ second) = tailBlock size (tailBlock size first ++ second) := by
  induction first using blocks_induction positive with
  | short first short => rw [tailBlock_short short]
  | block first long ih =>
    have longer : size ≤ (first ++ second).length := by
      rw [List.length_append]
      omega
    rw [tailBlock_block positive longer, List.drop_append_of_le_length long, ih, tailBlock_block positive long]

end Blocks

end SwitchLanPlay.Library
