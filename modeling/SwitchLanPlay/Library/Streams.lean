import Mathlib.Algebra.BigOperators.Intervals
import SwitchLanPlay.Library.Bytes

/-!
# A stream cut into buffers, and buffers grouped into requests

A cursor in a list of buffers is the number of whole buffers in front of it and
an offset into the next one.  Requests are numbered; each of them contributes a
beginning of its bytes to a common stream.
-/

namespace SwitchLanPlay.Library

open Finset

variable {α : Type}

/-! ## A cursor in a list of buffers -/

theorem slice_eq_take_drop (memory : Bytes) (offset size : Nat) (inside : offset + size ≤ memory.length) :
    slice memory offset size = (memory.drop offset).take size := by
  refine List.ext_getElem (by simp; omega) fun index inSlice inTake => ?_
  rw [length_slice] at inSlice
  simp only [slice, List.getElem_map, List.getElem_range, List.getElem_take, List.getElem_drop]
  exact byteAt_eq_getElem memory _ (by omega)

/-- The buffers around the one at position `k`. -/
theorem flatten_take_cursor {bufs : List (List α)} {k n : Nat} {buf : List α}
    (found : bufs[k]? = some buf) (before : k < n) :
    (bufs.take n).flatten =
      (bufs.take k).flatten ++ (buf ++ ((bufs.take n).drop (k + 1)).flatten) := by
  obtain ⟨inside, here⟩ := List.getElem?_eq_some_iff.mp found
  have short : k < (bufs.take n).length := by
    rw [List.length_take]
    omega
  have front : (bufs.take n).take k = bufs.take k := by
    rw [List.take_take, Nat.min_eq_left (Nat.le_of_lt before)]
  conv_lhs => rw [← List.take_append_drop k (bufs.take n), List.drop_eq_getElem_cons short]
  rw [List.flatten_append, List.flatten_cons, front, List.getElem_take, here]

/-- The bytes up to the cursor, and the `size` bytes behind it. -/
theorem take_flatten_extend {bufs : List Bytes} {k n offset size : Nat} {buf : Bytes}
    (found : bufs[k]? = some buf) (before : k < n) (inside : offset + size ≤ buf.length) :
    (bufs.take n).flatten.take ((bufs.take k).flatten.length + offset + size) =
      (bufs.take n).flatten.take ((bufs.take k).flatten.length + offset) ++ slice buf offset size := by
  have part : ∀ count ≤ buf.length,
      (bufs.take n).flatten.take ((bufs.take k).flatten.length + count) =
        (bufs.take k).flatten ++ buf.take count := by
    intro count short
    rw [flatten_take_cursor found before, List.take_length_add_append,
      List.take_append_of_le_length short]
  rw [Nat.add_assoc, part _ inside, part _ (by omega), List.append_assoc, List.take_add,
    slice_eq_take_drop _ _ _ inside]

theorem length_flatten_take_lt {bufs : List (List α)} {k n : Nat} {buf : List α}
    (found : bufs[k]? = some buf) (before : k < n) :
    (bufs.take k).flatten.length + buf.length ≤ (bufs.take n).flatten.length := by
  rw [flatten_take_cursor found before, List.length_append, List.length_append]
  omega

/-! ## Numbered requests -/

/-- A change of one request that keeps a field keeps it everywhere. -/
theorem field_update {ρ β : Type} {reqs : Nat → ρ} {j : Nat} {req : ρ} (field : ρ → β)
    (same : field req = field (reqs j)) (i : Nat) :
    field (Function.update reqs j req i) = field (reqs i) := by
  rcases eq_or_ne i j with rfl | away
  · rw [Function.update_self, same]
  · rw [Function.update_of_ne away]

section Requests

variable {w w' full : Nat → List α} {n f : Nat}

theorem length_flatMap_range (w : Nat → List α) (n : Nat) :
    ((List.range n).flatMap w).length = ∑ i ∈ range n, (w i).length := by
  induction n with
  | zero => rfl
  | succ n ih =>
      rw [List.range_succ, List.flatMap_append, List.length_append, ih, sum_range_succ]
      simp

theorem flatMap_range_congr (same : ∀ i < n, w i = w' i) :
    (List.range n).flatMap w = (List.range n).flatMap w' := by
  refine List.flatMap_congr fun i member => same i (List.mem_range.mp member)

/-- More bytes of one request, when the ones behind it have none yet. -/
theorem flatMap_range_extend {chunk : List α} (inside : f < n) (before : ∀ i < f, w' i = w i)
    (here : w' f = w f ++ chunk) (later : ∀ i, f < i → i < n → w i = [] ∧ w' i = []) :
    (List.range n).flatMap w' = (List.range n).flatMap w ++ chunk := by
  induction n with
  | zero => omega
  | succ n ih =>
      rw [List.range_succ, List.flatMap_append, List.flatMap_append]
      rcases Nat.lt_or_eq_of_le (Nat.le_of_lt_succ inside) with earlier | rfl
      · obtain ⟨empty, empty'⟩ := later n earlier (Nat.lt_succ_self n)
        rw [ih earlier fun i above below => later i above (Nat.lt_succ_of_lt below)]
        simp [empty, empty']
      · rw [flatMap_range_congr before]
        simp [here]

/-- Whole requests, then a beginning of one, then nothing. -/
theorem flatMap_range_prefix (before : ∀ i < f, i < n → w i = full i) (here : f < n → w f <+: full f)
    (later : ∀ i, f < i → i < n → w i = []) :
    (List.range n).flatMap w <+: (List.range n).flatMap full := by
  induction n with
  | zero => exact List.prefix_refl _
  | succ n ih =>
      rw [List.range_succ, List.flatMap_append, List.flatMap_append]
      rcases Nat.lt_trichotomy f n with earlier | rfl | beyond
      · have front := ih (fun i low below => before i low (Nat.lt_succ_of_lt below))
          (fun _ => here (Nat.lt_succ_of_lt earlier))
          fun i above below => later i above (Nat.lt_succ_of_lt below)
        simpa [later n earlier (Nat.lt_succ_self n)] using front.trans (List.prefix_append _ _)
      · rw [flatMap_range_congr fun i below => before i below (Nat.lt_succ_of_lt below)]
        exact (List.prefix_append_right_inj _).mpr (by simpa using here (Nat.lt_succ_self f))
      · rw [flatMap_range_congr fun i below =>
          before i (Nat.lt_trans below beyond) (Nat.lt_succ_of_lt below)]
        simp [before n beyond (Nat.lt_succ_self n)]

/-- Skipping a beginning of consecutive numbers. -/
theorem dropWhile_range' {p : Nat → Bool} {k : Nat} (low : k ≤ f) (high : f ≤ n)
    (skipped : ∀ i, k ≤ i → i < f → p i = true) (stops : f < n → p f = false) :
    (List.range' k (n - k)).dropWhile p = List.range' f (n - f) := by
  induction low using Nat.decreasingInduction with
  | self =>
      rcases Nat.lt_or_eq_of_le high with inside | rfl
      · obtain ⟨more, rest⟩ : ∃ more, n - f = more + 1 := ⟨n - f - 1, by omega⟩
        rw [rest, List.range'_succ, List.dropWhile_cons_of_neg (by simp [stops inside])]
      · simp
  | of_succ k below ih =>
      obtain ⟨more, rest⟩ : ∃ more, n - k = more + 1 := ⟨n - k - 1, by omega⟩
      rw [rest, List.range'_succ, List.dropWhile_cons_of_pos (skipped k le_rfl below),
        show more = n - (k + 1) by omega]
      exact ih fun i above => skipped i (Nat.le_of_succ_le above)

/-- A sum after one of its terms changed. -/
theorem sum_range_change {a b : Nat → Nat} (inside : f < n) (same : ∀ i, i ≠ f → b i = a i) :
    ∑ i ∈ range n, b i + a f = ∑ i ∈ range n, a i + b f := by
  have member : f ∈ range n := mem_range.mpr inside
  have others : ∑ i ∈ (range n).erase f, b i = ∑ i ∈ (range n).erase f, a i :=
    sum_congr rfl fun i away => same i (ne_of_mem_erase away)
  rw [← add_sum_erase _ b member, ← add_sum_erase _ a member, others]
  omega

theorem sum_map_range' (a : Nat → Nat) (first count : Nat) :
    ((List.range' first count).map a).sum = ∑ i ∈ Ico first (first + count), a i := by
  induction count generalizing first with
  | zero => simp
  | succ count ih =>
      rw [List.range'_succ, List.map_cons, List.sum_cons, ih,
        sum_eq_sum_Ico_succ_bot (Nat.lt_add_of_pos_right (Nat.succ_pos count)),
        show first + 1 + count = first + (count + 1) by omega]

theorem flatMap_range_getD (contents : List (List α)) (count : Nat) :
    (List.range count).flatMap (fun i => contents.getD i []) = (contents.take count).flatten := by
  induction count with
  | zero => rfl
  | succ count ih =>
      rw [List.range_succ, List.flatMap_append, ih, List.take_add_one, List.flatten_append,
        List.flatMap_singleton, List.getD_eq_getElem?_getD]
      cases contents[count]? <;> simp

end Requests

end SwitchLanPlay.Library
