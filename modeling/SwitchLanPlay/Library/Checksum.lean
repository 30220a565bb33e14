import SwitchLanPlay.Library.Bytes

/-!
# The Internet checksum

The checksum of RFC 1071 over a text: its 16-bit words in network order are added
in one's complement, where a carry out of the high end is added at the low end,
and the sum is complemented.

An ordinary sum of the words determines the one's complement sum: `onesRep` is the
word that a number stands for.  Two numbers stand for the same word if they agree
modulo `0xffff` and both are zero or both are not.
-/

namespace SwitchLanPlay.Library

/-! ## Words -/

/-- The words of a text.  A last byte alone is padded on the right. -/
def wordsOf : Bytes → List Nat
  | [] => []
  | [high] => [256 * high.toNat]
  | high :: low :: rest => (256 * high.toNat + low.toNat) :: wordsOf rest

/-- One's complement addition of two words. -/
def onesAdd (first second : Nat) : Nat :=
  if first + second ≤ 0xffff then first + second else first + second - 0xffff

def onesSum (words : List Nat) : Nat := words.foldl onesAdd 0

/-- RFC 1071 -/
def internetChecksum (bytes : Bytes) : Nat := 0xffff - onesSum (wordsOf bytes)

/-- The word that a number stands for. -/
def onesRep (sum : Nat) : Nat := if sum = 0 then 0 else (sum - 1) % 0xffff + 1

@[simp] theorem onesRep_zero : onesRep 0 = 0 := rfl

theorem onesRep_le (sum : Nat) : onesRep sum ≤ 0xffff := by
  unfold onesRep
  split <;> omega

theorem onesRep_of_le {sum : Nat} (small : sum ≤ 0xffff) : onesRep sum = sum := by
  unfold onesRep
  split <;> omega

/-- A number that is too large stands for the same word as the one with a carry
moved from the high end to the low end. -/
theorem onesRep_sub {sum : Nat} (large : 0xffff < sum) : onesRep (sum - 0xffff) = onesRep sum := by
  unfold onesRep
  split <;> split <;> omega

theorem onesRep_eq_iff {first second : Nat} :
    onesRep first = onesRep second ↔ first % 0xffff = second % 0xffff ∧ (first = 0 ↔ second = 0) := by
  unfold onesRep
  split <;> split <;> omega

/-- The word of all ones stands for the multiples of `0xffff` other than zero. -/
theorem onesRep_eq_max_iff {sum : Nat} : onesRep sum = 0xffff ↔ 0 < sum ∧ sum % 0xffff = 0 := by
  unfold onesRep
  split <;> omega

/-- With the complement of the word that it stands for, a number stands for the
word of all ones. -/
theorem onesRep_add_complement (sum : Nat) : onesRep (sum + (0xffff - onesRep sum)) = 0xffff := by
  rw [onesRep_eq_max_iff]
  unfold onesRep
  split <;> omega

theorem onesAdd_onesRep (sum : Nat) {word : Nat} (small : word ≤ 0xffff) :
    onesAdd (onesRep sum) word = onesRep (sum + word) := by
  unfold onesAdd onesRep
  split <;> split <;> split <;> omega

theorem foldl_onesAdd (words : List Nat) (small : ∀ word ∈ words, word ≤ 0xffff) (sum : Nat) :
    words.foldl onesAdd (onesRep sum) = onesRep (sum + words.sum) := by
  induction words generalizing sum with
  | nil => rfl
  | cons word rest ih =>
      obtain ⟨first, others⟩ := List.forall_mem_cons.mp small
      rw [List.foldl_cons, onesAdd_onesRep sum first, ih others, List.sum_cons, Nat.add_assoc]

/-- The one's complement sum is the word that the ordinary sum stands for. -/
theorem onesSum_eq_onesRep {words : List Nat} (small : ∀ word ∈ words, word ≤ 0xffff) :
    onesSum words = onesRep words.sum := by
  have folded := foldl_onesAdd words small 0
  rwa [Nat.zero_add] at folded

/-! ## Sums of words -/

theorem wordsOf_le (bytes : Bytes) : ∀ word ∈ wordsOf bytes, word ≤ 0xffff := by
  induction bytes using wordsOf.induct with
  | case1 => nofun
  | case2 high =>
      have bound := high.toNat_lt
      simp only [wordsOf, List.forall_mem_singleton]
      omega
  | case3 high low rest ih =>
      have highBound := high.toNat_lt
      have lowBound := low.toNat_lt
      exact List.forall_mem_cons.mpr ⟨by omega, ih⟩

theorem onesSum_wordsOf (bytes : Bytes) : onesSum (wordsOf bytes) = onesRep (wordsOf bytes).sum :=
  onesSum_eq_onesRep (wordsOf_le bytes)

theorem internetChecksum_eq (bytes : Bytes) :
    internetChecksum bytes = 0xffff - onesRep (wordsOf bytes).sum := by
  rw [internetChecksum, onesSum_wordsOf]

/-- Behind an even number of bytes the words start anew. -/
theorem wordsOf_append (first second : Bytes) (even : first.length % 2 = 0) :
    wordsOf (first ++ second) = wordsOf first ++ wordsOf second := by
  induction first using wordsOf.induct with
  | case1 => rfl
  | case2 high => cases even
  | case3 high low rest ih =>
      have evenRest : rest.length % 2 = 0 := by
        simp only [List.length_cons] at even
        omega
      simp only [List.cons_append, wordsOf, ih evenRest]

theorem wordsOf_snoc {bytes : Bytes} (odd : bytes.length % 2 = 1) (low : UInt8) :
    (wordsOf (bytes ++ [low])).sum = (wordsOf bytes).sum + low.toNat := by
  induction bytes using wordsOf.induct with
  | case1 => cases odd
  | case2 high => simp [wordsOf]
  | case3 high middle rest ih =>
      have oddRest : rest.length % 2 = 1 := by
        simp only [List.length_cons] at odd
        omega
      simp only [List.cons_append, wordsOf, List.sum_cons, ih oddRest, Nat.add_assoc]

/-- The first word of a text, and the others. -/
theorem sum_wordsOf_succ (memory : Bytes) (offset count : Nat) :
    (wordsOf (slice memory offset (2 * (count + 1)))).sum =
      net16At memory offset + (wordsOf (slice memory (offset + 2) (2 * count))).sum := by
  have split : 2 * (count + 1) = 2 + 2 * count := by omega
  rw [split, slice_add, wordsOf_append _ _ (by rw [length_slice]), List.sum_append]
  rfl

/-- The words of a text are those of its pairs of bytes, and a last byte alone. -/
theorem sum_wordsOf_slice (memory : Bytes) (offset len : Nat) :
    (wordsOf (slice memory offset len)).sum =
      (wordsOf (slice memory offset (2 * (len / 2)))).sum +
        if len % 2 = 1 then 256 * (byteAt memory (offset + 2 * (len / 2))).toNat else 0 := by
  have even : (slice memory offset (2 * (len / 2))).length % 2 = 0 := by
    rw [length_slice, Nat.mul_mod_right]
  by_cases odd : len % 2 = 1
  · have split : len = 2 * (len / 2) + 1 := by omega
    rw [if_pos odd]
    conv_lhs => rw [split, slice_add, wordsOf_append _ _ even, List.sum_append]
    rfl
  · have split : len = 2 * (len / 2) := by omega
    rw [if_neg odd, ← split, Nat.add_zero]

/-- A 16-bit field that starts a word adds its value. -/
theorem sum_wordsOf_field (front back : Bytes) (even : front.length % 2 = 0) (value : Nat) :
    (wordsOf (front ++ net16 value ++ back)).sum =
      (wordsOf (front ++ net16 0 ++ back)).sum + value % 65536 := by
  have field (value : Nat) : (wordsOf (front ++ net16 value ++ back)).sum =
      (wordsOf front).sum + (value % 65536 + (wordsOf back).sum) := by
    rw [List.append_assoc, wordsOf_append _ _ even, List.sum_append]
    simp only [net16, List.cons_append, List.nil_append, wordsOf, List.sum_cons, net16_toNat]
  rw [field value, field 0]
  omega

/-- A text passes the test of its receiver when it carries the checksum that was
taken with a zero in its place. -/
theorem onesSum_wordsOf_checksum (front back : Bytes) (even : front.length % 2 = 0) :
    onesSum (wordsOf (front ++ net16 (internetChecksum (front ++ net16 0 ++ back)) ++ back)) = 0xffff := by
  have small : internetChecksum (front ++ net16 0 ++ back) % 65536 =
      internetChecksum (front ++ net16 0 ++ back) := by
    apply Nat.mod_eq_of_lt
    unfold internetChecksum
    omega
  rw [onesSum_wordsOf, sum_wordsOf_field _ _ even, small, internetChecksum_eq]
  exact onesRep_add_complement _

theorem wordsOf_replicate_zero (count : Nat) : (wordsOf (List.replicate count 0)).sum = 0 := by
  induction count using Nat.twoStepInduction with
  | zero => rfl
  | one => rfl
  | more count ih _ => simpa [List.replicate_succ, wordsOf] using ih

theorem sum_wordsOf_le (bytes : Bytes) : (wordsOf bytes).sum ≤ (bytes.length + 1) / 2 * 0xffff := by
  induction bytes using wordsOf.induct with
  | case1 => exact Nat.le_refl 0
  | case2 high =>
      have bound := high.toNat_lt
      simp only [wordsOf, List.sum_singleton, List.length_singleton]
      omega
  | case3 high low rest ih =>
      have highBound := high.toNat_lt
      have lowBound := low.toNat_lt
      simp only [wordsOf, List.sum_cons, List.length_cons]
      omega

end SwitchLanPlay.Library
