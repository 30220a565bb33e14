import Mathlib.Algebra.Ring.Int.Defs
import Mathlib.Algebra.Ring.Nat
import Mathlib.Data.List.Basic
import Mathlib.Data.List.GetD
import Mathlib.Data.Fintype.Basic

/-!
# Byte memory

A memory region is the list of its bytes.  Reading past the end of a region
yields zero and writing past it has no effect on the region: whether an access
stays inside is a separate question, asked of the trace.  Multi-byte fields
are in network order.
-/

namespace SwitchLanPlay.Library

abbrev Bytes := List UInt8

/-- A fixed number of bytes, such as an address. -/
abbrev Octets (n : Nat) := Fin n → UInt8

def byteAt (memory : Bytes) (offset : Nat) : UInt8 := memory.getD offset 0

/-- The `size` bytes that start at `offset`. -/
def slice (memory : Bytes) (offset size : Nat) : Bytes :=
  (List.range size).map fun index => byteAt memory (offset + index)

def octetsAt (n : Nat) (memory : Bytes) (offset : Nat) : Octets n :=
  fun index => byteAt memory (offset + index)

/-- A 16-bit field in network order; wider values keep their low 16 bits. -/
def net16 (value : Nat) : Bytes := [UInt8.ofNat (value / 256), UInt8.ofNat value]

def net16At (memory : Bytes) (offset : Nat) : Nat :=
  256 * (byteAt memory offset).toNat + (byteAt memory (offset + 1)).toNat

/-- `memcpy` of `bytes` to `offset`. -/
def overwrite (memory : Bytes) (offset : Nat) (bytes : Bytes) : Bytes :=
  memory.mapIdx fun index old =>
    if offset ≤ index ∧ index < offset + bytes.length then byteAt bytes (index - offset) else old

@[simp] theorem byteAt_nil (offset : Nat) : byteAt [] offset = 0 := rfl

@[simp] theorem byteAt_cons_zero (first : UInt8) (rest : Bytes) :
    byteAt (first :: rest) 0 = first := rfl

@[simp] theorem byteAt_cons_succ (first : UInt8) (rest : Bytes) (offset : Nat) :
    byteAt (first :: rest) (offset + 1) = byteAt rest offset := rfl

theorem byteAt_eq_getElem (memory : Bytes) (offset : Nat) (inside : offset < memory.length) :
    byteAt memory offset = memory[offset] :=
  List.getD_eq_getElem _ _ inside

theorem byteAt_append_left (first second : Bytes) (offset : Nat) (inside : offset < first.length) :
    byteAt (first ++ second) offset = byteAt first offset :=
  List.getD_append _ _ _ _ inside

theorem byteAt_append_right (first second : Bytes) (offset : Nat) :
    byteAt (first ++ second) (first.length + offset) = byteAt second offset := by
  have found := List.getD_append_right first second (0 : UInt8) (first.length + offset)
    (Nat.le_add_right _ _)
  simpa [byteAt] using found

/-- Two texts of one length that agree from an offset on. -/
theorem drop_eq_of_byteAt {first second : Bytes} {offset : Nat} (length : first.length = second.length)
    (agree : ∀ index, offset ≤ index → index < first.length → byteAt first index = byteAt second index) :
    first.drop offset = second.drop offset := by
  apply List.ext_getElem
  · rw [List.length_drop, List.length_drop, length]
  · intro index inFirst inSecond
    rw [List.length_drop] at inFirst inSecond
    have same := agree (offset + index) (Nat.le_add_right _ _) (by omega)
    rwa [byteAt_eq_getElem _ _ (by omega), byteAt_eq_getElem _ _ (by omega), ← List.getElem_drop,
      ← List.getElem_drop] at same

theorem byteAt_replicate (count : Nat) (byte : UInt8) (offset : Nat) (inside : offset < count) :
    byteAt (List.replicate count byte) offset = byte := by
  rw [byteAt_eq_getElem _ _ (by simpa using inside), List.getElem_replicate]

@[simp] theorem length_slice (memory : Bytes) (offset size : Nat) :
    (slice memory offset size).length = size := by
  simp [slice]

theorem byteAt_slice (memory : Bytes) (offset size index : Nat) (inside : index < size) :
    byteAt (slice memory offset size) index = byteAt memory (offset + index) := by
  rw [byteAt_eq_getElem _ _ (by simpa using inside)]
  simp [slice]

/-- Two slices agree when they agree byte by byte. -/
theorem slice_congr {memory other : Bytes} {offset otherOffset size : Nat}
    (agree : ∀ index < size, byteAt memory (offset + index) = byteAt other (otherOffset + index)) :
    slice memory offset size = slice other otherOffset size := by
  refine List.map_congr_left ?_
  intro index member
  exact agree index (List.mem_range.mp member)

/-- A slice taken from the start over the full length is the region itself. -/
theorem slice_full (memory : Bytes) : slice memory 0 memory.length = memory := by
  refine List.ext_getElem (by simp) ?_
  intro index inSlice inside
  simp only [slice, List.getElem_map, List.getElem_range, Nat.zero_add]
  exact byteAt_eq_getElem memory index inside

theorem slice_add (memory : Bytes) (offset first second : Nat) :
    slice memory offset (first + second) =
      slice memory offset first ++ slice memory (offset + first) second := by
  simp only [slice, List.range_add, List.map_append, List.map_map, Function.comp_def, Nat.add_assoc]

theorem slice_append_right (first second : Bytes) (size : Nat) :
    slice (first ++ second) first.length size = slice second 0 size := by
  refine slice_congr ?_
  intro index _
  rw [byteAt_append_right, Nat.zero_add]

theorem slice_append_left (first second : Bytes) : slice (first ++ second) 0 first.length = first := by
  have inside : slice (first ++ second) 0 first.length = slice first 0 first.length := by
    apply slice_congr
    intro index below
    rw [Nat.zero_add, byteAt_append_left _ _ _ below]
  rw [inside, slice_full]

/-- The two bytes of a 16-bit field give it back modulo its width. -/
theorem net16_toNat (value : Nat) :
    256 * (UInt8.ofNat (value / 256)).toNat + (UInt8.ofNat value).toNat = value % 65536 := by
  simp only [UInt8.toNat_ofNat']
  omega

theorem net16At_lt (memory : Bytes) (offset : Nat) : net16At memory offset < 2 ^ 16 := by
  have high := (byteAt memory offset).toNat_lt
  have low := (byteAt memory (offset + 1)).toNat_lt
  unfold net16At
  omega

@[simp] theorem length_overwrite (memory : Bytes) (offset : Nat) (bytes : Bytes) :
    (overwrite memory offset bytes).length = memory.length := by
  simp [overwrite]

theorem byteAt_overwrite (memory : Bytes) (offset : Nat) (bytes : Bytes) (index : Nat)
    (inside : index < memory.length) :
    byteAt (overwrite memory offset bytes) index =
      if offset ≤ index ∧ index < offset + bytes.length then byteAt bytes (index - offset)
      else byteAt memory index := by
  rw [byteAt_eq_getElem _ _ (by simpa using inside), byteAt_eq_getElem memory index inside]
  simp [overwrite]

/-- What was written last is there. -/
theorem slice_overwrite {memory bytes : Bytes} {offset : Nat} (inside : offset + bytes.length ≤ memory.length) :
    slice (overwrite memory offset bytes) offset bytes.length = bytes := by
  have same : slice (overwrite memory offset bytes) offset bytes.length = slice bytes 0 bytes.length := by
    apply slice_congr
    intro index below
    rw [byteAt_overwrite _ _ _ _ (by omega), if_pos (by omega), Nat.zero_add, Nat.add_sub_cancel_left]
  rw [same, slice_full]

theorem slice_overwrite_before {memory bytes : Bytes} {offset size position : Nat}
    (before : offset + size ≤ position) (inside : offset + size ≤ memory.length) :
    slice (overwrite memory position bytes) offset size = slice memory offset size := by
  apply slice_congr
  intro index below
  rw [byteAt_overwrite _ _ _ _ (by omega), if_neg (by omega)]

theorem overwrite_zero {memory bytes : Bytes} (inside : bytes.length ≤ memory.length) :
    overwrite memory 0 bytes = bytes ++ memory.drop bytes.length := by
  apply List.ext_getElem
  · rw [length_overwrite, List.length_append, List.length_drop]
    omega
  intro index below below'
  rw [← byteAt_eq_getElem, ← byteAt_eq_getElem, byteAt_overwrite _ _ _ _ (by rwa [length_overwrite] at below)]
  split
  case isTrue written => rw [byteAt_append_left _ _ _ (by omega), Nat.sub_zero]
  case isFalse kept =>
    have behind := byteAt_append_right bytes (memory.drop bytes.length) (index - bytes.length)
    rw [Nat.add_sub_cancel' (by omega)] at behind
    rw [behind, byteAt, byteAt, List.getD_eq_getElem?_getD, List.getD_eq_getElem?_getD, List.getElem?_drop,
      Nat.add_sub_cancel' (by omega)]

end SwitchLanPlay.Library
