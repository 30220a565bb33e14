import SwitchLanPlay.Lan.Sending
import SwitchLanPlay.Library.Checksum

/-!
# The two checksum loops

`calc_checksum` and `calc_payload_checksum` (`ipv4.c`) against the checksum of
RFC 1071.  The first one adds a last byte of an odd length at the wrong end of its
word.  The second one steps by two bytes where it should step by one when a word
straddles two parts, so that it reads behind the part, unless the part is a single
byte.
-/

namespace SwitchLanPlay

open Library

variable {σ : Type}

/-! ## Sums -/

theorem foldSum_eq_onesRep (sum : Nat) : foldSum sum = onesRep sum := by
  fun_induction foldSum sum with
  | case1 sum large ih => rw [ih, onesRep_sub large]
  | case2 sum small => exact (onesRep_of_le (Nat.le_of_not_lt small)).symm

/-- Sums of this size fit the `uint32_t` they are kept in. -/
theorem sum_wordsOf_lt {bytes : Bytes} (short : bytes.length ≤ 65535) :
    (wordsOf bytes).sum < 2 ^ 31 := by
  have bound := sum_wordsOf_le bytes
  omega

theorem sumWords_value (s : σ) (count : Nat) (buf : Ptr) :
    (sumWords buf count s).value = (wordsOf (slice buf.memory buf.offset (2 * count))).sum := by
  induction count generalizing buf with
  | zero => rfl
  | succ count ih =>
      rw [sum_wordsOf_succ]
      simp only [sumWords, Proc.bind_value, readNet16_value, readNet16_state, Proc.pure_value, ih]
      rfl

/-! ## calc_checksum -/

theorem leftOver_value (buffer : Ptr) (len : Nat) (s : σ) :
    (leftOver buffer len s).value =
      if len % 2 = 1 then (byteAt buffer.memory (buffer.offset + 2 * (len / 2))).toNat else 0 := by
  have count : ((len : Int) / 2).toNat = len / 2 := by omega
  unfold leftOver
  rw [count]
  by_cases odd : len % 2 = 1
  · rw [if_pos (by omega), if_pos odd]
    rfl
  · rw [if_neg (by omega), if_neg odd]
    rfl

theorem calcChecksum_value (buffer : Ptr) (len : Nat) (s : σ) :
    (calcChecksum buffer len s).value =
      0xffff - onesRep (((wordsOf (slice buffer.memory buffer.offset (2 * (len / 2)))).sum +
        if len % 2 = 1 then (byteAt buffer.memory (buffer.offset + 2 * (len / 2))).toNat else 0) %
          2 ^ 32) := by
  have count : ((len : Int) / 2).toNat = len / 2 := by omega
  simp only [calcChecksum, Proc.bind_value, Proc.pure_value, sumWords_value, sumWords_state,
    leftOver_value, foldSum_eq_onesRep, count]

theorem sub_onesRep_inj {first second : Nat} :
    0xffff - onesRep first = 0xffff - onesRep second ↔ onesRep first = onesRep second := by
  have firstBound := onesRep_le first
  have secondBound := onesRep_le second
  omega

/-- A byte counts the same at both ends of a word only if it is zero. -/
theorem onesRep_low_eq_high_iff (sum : Nat) {byte : Nat} (small : byte < 256) :
    onesRep (sum + byte) = onesRep (sum + 256 * byte) ↔ byte = 0 := by
  rw [onesRep_eq_iff]
  omega

/-- The sum of `calc_checksum` stays below its type's bound, so nothing is lost. -/
theorem calcChecksum_eq_iff (buffer : Ptr) {len : Nat} (short : len ≤ 65535) (s : σ) :
    (calcChecksum buffer len s).value = internetChecksum (slice buffer.memory buffer.offset len) ↔
      len % 2 = 0 ∨ byteAt buffer.memory (buffer.offset + (len - 1)) = 0 := by
  have bound : (wordsOf (slice buffer.memory buffer.offset (2 * (len / 2)))).sum < 2 ^ 31 :=
    sum_wordsOf_lt (by rw [length_slice]; omega)
  have byteBound := (byteAt buffer.memory (buffer.offset + 2 * (len / 2))).toNat_lt
  rw [calcChecksum_value, internetChecksum_eq, sub_onesRep_inj, sum_wordsOf_slice _ _ len]
  by_cases odd : len % 2 = 1
  · have last : len - 1 = 2 * (len / 2) := by omega
    rw [if_pos odd, if_pos odd, Nat.mod_eq_of_lt (by omega), onesRep_low_eq_high_iff _ byteBound, last,
      ← UInt8.toNat_inj]
    exact ⟨Or.inr, fun either => either.resolve_left (by omega)⟩
  · rw [if_neg odd, if_neg odd, Nat.mod_eq_of_lt (by omega)]
    exact iff_of_true rfl (.inl (by omega))

/-! ## calc_payload_checksum -/

/-- The byte that is read ahead for a word that straddles two parts. -/
def lookAhead : List Payload → Nat
  | [] => 0
  | next :: _ => (byteAt next.ptr.memory next.ptr.offset).toNat

/-- One part, of which `offset` bytes were added already. -/
theorem payloadSum_cons_value (offset : Nat) (part : Payload) (rest : List Payload) (s : σ) :
    (payloadSum offset (part :: rest) s).value =
      (wordsOf (slice part.ptr.memory (part.ptr.offset + 2 * offset)
        (2 * (((part.len : Int) - offset) / 2).toNat))).sum +
      if (part.len : Int) - offset ≠ 2 * (((part.len : Int) - offset) / 2).toNat then
        256 * (byteAt part.ptr.memory (part.ptr.offset + 2 * offset +
          2 * (((part.len : Int) - offset) / 2).toNat)).toNat + lookAhead rest +
            (payloadSum 1 rest s).value
      else (payloadSum 0 rest s).value := by
  rw [payloadSum]
  simp only [Proc.bind_value, sumWords_state, sumWords_value]
  split
  · cases rest with
    | nil => simp [lookAhead, Ptr.plus, payloadSum, Nat.add_assoc]
    | cons next more => simp [lookAhead, Ptr.plus, Nat.add_assoc]
  · rfl

/-- A part of even length that starts a word. -/
theorem payloadSum_even {part : Payload} (even : part.len % 2 = 0) (rest : List Payload) (s : σ) :
    (payloadSum 0 (part :: rest) s).value =
      (wordsOf part.bytes).sum + (payloadSum 0 rest s).value := by
  have count : 2 * (((part.len : Int) - (0 : Nat)) / 2).toNat = part.len := by omega
  rw [payloadSum_cons_value, count, if_neg (by omega)]
  rfl

/-- A part of odd length that starts a word. -/
theorem payloadSum_odd {part : Payload} (odd : part.len % 2 = 1) (rest : List Payload) (s : σ) :
    (payloadSum 0 (part :: rest) s).value =
      (wordsOf part.bytes).sum + lookAhead rest + (payloadSum 1 rest s).value := by
  have count : (((part.len : Int) - (0 : Nat)) / 2).toNat = part.len / 2 := by omega
  have whole := sum_wordsOf_slice part.ptr.memory part.ptr.offset part.len
  rw [if_pos odd] at whole
  rw [payloadSum_cons_value, count, if_pos (by omega), Payload.bytes, whole]
  simp only [Nat.mul_zero, Nat.add_zero]
  omega

/-- A single byte that completes a word. -/
theorem payloadSum_completed {part : Payload} (single : part.len = 1) (rest : List Payload) (s : σ) :
    (payloadSum 1 (part :: rest) s).value = (payloadSum 0 rest s).value := by
  rw [payloadSum_cons_value, single]
  exact Nat.zero_add _

/-- Lengths of parts such that a word that straddles two parts consists of the last
byte of the one and all of the other. -/
def WholeWords : List Nat → Prop
  | [] => True
  | [_] => True
  | len :: next :: rest =>
      if len % 2 = 0 then WholeWords (next :: rest) else next = 1 ∧ WholeWords rest

/-- The bytes of a chain. -/
def chainBytes (chain : List Payload) : Bytes := (chain.map Payload.bytes).flatten

theorem Payload.length_bytes (part : Payload) : part.bytes.length = part.len := length_slice _ _ _

theorem chainBytes_cons (part : Payload) (rest : List Payload) :
    chainBytes (part :: rest) = part.bytes ++ chainBytes rest := rfl

/-- The words of two parts where the second one completes a word. -/
theorem sum_wordsOf_joined {part next : Payload} (odd : part.len % 2 = 1) (single : next.len = 1)
    (rest : List Payload) :
    (wordsOf (chainBytes (part :: next :: rest))).sum =
      (wordsOf part.bytes).sum + lookAhead (next :: rest) + (wordsOf (chainBytes rest)).sum := by
  have one : next.bytes = [byteAt next.ptr.memory next.ptr.offset] := by
    rw [Payload.bytes, single]
    rfl
  have oddBytes : part.bytes.length % 2 = 1 := by rw [Payload.length_bytes, odd]
  have even : (part.bytes ++ next.bytes).length % 2 = 0 := by
    rw [List.length_append, Payload.length_bytes, Payload.length_bytes]
    omega
  rw [chainBytes_cons, chainBytes_cons, ← List.append_assoc, wordsOf_append _ _ even, List.sum_append,
    one, wordsOf_snoc oddBytes]
  rfl

theorem payloadSum_value {lens : List Nat} (whole : WholeWords lens) (chain : List Payload)
    (shape : chain.map Payload.len = lens) (s : σ) :
    (payloadSum 0 chain s).value = (wordsOf (chainBytes chain)).sum := by
  induction lens using WholeWords.induct generalizing chain with
  | case1 =>
      obtain rfl := List.map_eq_nil_iff.mp shape
      rfl
  | case2 len =>
      obtain ⟨part, rfl, rfl⟩ := List.map_eq_singleton_iff.mp shape
      have alone : chainBytes [part] = part.bytes := List.append_nil _
      rcases Nat.mod_two_eq_zero_or_one part.len with even | odd
      · rw [payloadSum_even even, alone]
        rfl
      · rw [payloadSum_odd odd, alone]
        rfl
  | case3 len next rest even ih =>
      obtain ⟨part, others, rfl, rfl, shape'⟩ := List.map_eq_cons_iff.mp shape
      rw [WholeWords, if_pos even] at whole
      have evenBytes : part.bytes.length % 2 = 0 := by rw [Payload.length_bytes, even]
      rw [payloadSum_even even, ih whole others shape', chainBytes_cons, wordsOf_append _ _ evenBytes,
        List.sum_append]
  | case4 len next rest odd ih =>
      obtain ⟨part, others, rfl, rfl, shape'⟩ := List.map_eq_cons_iff.mp shape
      obtain ⟨follower, more, rfl, single, shape''⟩ := List.map_eq_cons_iff.mp shape'
      rw [WholeWords, if_neg odd] at whole
      obtain ⟨rfl, wholeRest⟩ := whole
      have oddLen : part.len % 2 = 1 := by omega
      rw [payloadSum_odd oddLen, payloadSum_completed single, ih wholeRest more shape'',
        sum_wordsOf_joined oddLen single]

/-! ## Reads -/

/-- The access stays within the bytes of the part. -/
def Payload.Contains (part : Payload) : Event → Prop
  | .load region offset size =>
      region = part.ptr.region ∧ part.ptr.offset ≤ offset ∧ offset + size ≤ part.ptr.offset + part.len
  | _ => False

/-- The access stays within the bytes of one of the parts. -/
def ReadsParts (chain : List Payload) (event : Event) : Prop := ∃ part ∈ chain, part.Contains event

section Reads

variable {Q : Event → Prop} {s : σ}

theorem emits_sumWords_within (count : Nat) (buf : Ptr)
    (within : ∀ i < count, Q (.load buf.region (buf.offset + 2 * i) 2)) :
    (sumWords buf count).Emits Q s := by
  induction count generalizing buf with
  | zero => exact Proc.emits_pure _
  | succ count ih =>
      simp only [sumWords, Proc.emits_bind, emits_readNet16, Proc.emits_pure, and_true, readNet16_state]
      refine ⟨within 0 (Nat.succ_pos count), ih _ fun i inside => ?_⟩
      have next := within (i + 1) (Nat.succ_lt_succ inside)
      have moved : buf.offset + 2 * (i + 1) = (buf.plus 2).offset + 2 * i := by
        simp only [Ptr.plus]
        omega
      rwa [moved] at next

theorem emits_payloadSum_even {part : Payload} (even : part.len % 2 = 0) {rest : List Payload}
    (own : ∀ event, part.Contains event → Q event) (others : (payloadSum 0 rest).Emits Q s) :
    (payloadSum 0 (part :: rest)).Emits Q s := by
  have count : (((part.len : Int) - (0 : Nat)) / 2).toNat = part.len / 2 := by omega
  rw [payloadSum]
  dsimp only
  rw [Proc.emits_bind, sumWords_state, count, if_neg (by omega), Proc.emits_bind]
  refine ⟨emits_sumWords_within _ _ fun i inside => own _ ⟨rfl, ?_, ?_⟩, others, Proc.emits_pure _⟩
  · exact Nat.le_add_right_of_le (Nat.le_add_right _ _)
  · simp only [Ptr.plus]
    omega

theorem emits_payloadSum_odd {part : Payload} (odd : part.len % 2 = 1) {rest : List Payload}
    (own : ∀ event, part.Contains event → Q event)
    (ahead : ∀ next ∈ rest.head?, Q (.load next.ptr.region next.ptr.offset 1))
    (others : (payloadSum 1 rest).Emits Q s) : (payloadSum 0 (part :: rest)).Emits Q s := by
  have count : (((part.len : Int) - (0 : Nat)) / 2).toNat = part.len / 2 := by omega
  rw [payloadSum]
  dsimp only
  rw [Proc.emits_bind, sumWords_state, count, if_pos (by omega), Proc.emits_bind, emits_readNet8]
  refine ⟨emits_sumWords_within _ _ fun i inside => own _ ⟨rfl, ?_, ?_⟩, own _ ⟨rfl, ?_, ?_⟩, ?_⟩
  · exact Nat.le_add_right_of_le (Nat.le_add_right _ _)
  · simp only [Ptr.plus]
    omega
  · simp only [Ptr.plus]
    omega
  · simp only [Ptr.plus]
    omega
  · cases rest with
    | nil => simpa using others
    | cons next more => simpa using ⟨ahead next rfl, others⟩

theorem emits_payloadSum_completed {part : Payload} (single : part.len = 1) {rest : List Payload}
    (others : (payloadSum 0 rest).Emits Q s) : (payloadSum 1 (part :: rest)).Emits Q s := by
  rw [payloadSum, single]
  exact Proc.emits_bind _ _ |>.mpr ⟨Proc.emits_pure _, (Proc.emits_bind _ _).mpr ⟨others, Proc.emits_pure _⟩⟩

theorem emits_payloadSum_whole {lens : List Nat} (whole : WholeWords lens) (chain : List Payload)
    (shape : chain.map Payload.len = lens)
    (own : ∀ part ∈ chain, ∀ event, part.Contains event → Q event) :
    (payloadSum 0 chain).Emits Q s := by
  induction lens using WholeWords.induct generalizing chain with
  | case1 =>
      obtain rfl := List.map_eq_nil_iff.mp shape
      exact Proc.emits_pure _
  | case2 len =>
      obtain ⟨part, rfl, rfl⟩ := List.map_eq_singleton_iff.mp shape
      have here := own part List.mem_cons_self
      rcases Nat.mod_two_eq_zero_or_one part.len with even | odd
      · exact emits_payloadSum_even even here (Proc.emits_pure _)
      · exact emits_payloadSum_odd odd here nofun (Proc.emits_pure _)
  | case3 len next rest even ih =>
      obtain ⟨part, others, rfl, rfl, shape'⟩ := List.map_eq_cons_iff.mp shape
      rw [WholeWords, if_pos even] at whole
      obtain ⟨here, later⟩ := List.forall_mem_cons.mp own
      exact emits_payloadSum_even even here (ih whole others shape' later)
  | case4 len next rest odd ih =>
      obtain ⟨part, others, rfl, rfl, shape'⟩ := List.map_eq_cons_iff.mp shape
      obtain ⟨follower, more, rfl, single, shape''⟩ := List.map_eq_cons_iff.mp shape'
      rw [WholeWords, if_neg odd] at whole
      obtain ⟨rfl, wholeRest⟩ := whole
      obtain ⟨here, later⟩ := List.forall_mem_cons.mp own
      obtain ⟨there, latest⟩ := List.forall_mem_cons.mp later
      refine emits_payloadSum_odd (by omega) here ?_
        (emits_payloadSum_completed single (ih wholeRest more shape'' latest))
      rintro _ ⟨⟩
      exact there _ ⟨rfl, Nat.le_refl _, by rw [single]⟩

end Reads

/-! ## Other chains -/

/-- A part of zeros. -/
def zeroPart (len : Nat) : Payload := .ofBytes (List.replicate len 0)

/-- A part of zeros with a one behind it in memory. -/
def spilledPart (len : Nat) : Payload := ⟨⟨.header, List.replicate len 0 ++ [1], 0⟩, len⟩

theorem byteAt_zeros (len index : Nat) : byteAt (List.replicate len 0) index = 0 := by
  unfold byteAt
  rw [List.getD_eq_getElem?_getD, List.getElem?_replicate]
  split <;> rfl

theorem slice_zeros (len offset size : Nat) :
    slice (List.replicate len 0) offset size = List.replicate size 0 := by
  refine List.eq_replicate_iff.mpr ⟨length_slice _ _ _, fun byte member => ?_⟩
  obtain ⟨index, -, rfl⟩ := List.mem_map.mp member
  exact byteAt_zeros _ _

theorem zeroPart_bytes (len : Nat) : (zeroPart len).bytes = List.replicate len 0 :=
  Payload.bytes_ofBytes _

theorem byteAt_spilled (len : Nat) : byteAt (List.replicate len 0 ++ [1]) len = 1 := by
  have found := byteAt_append_right (List.replicate len 0) [1] 0
  rwa [List.length_replicate] at found

theorem slice_spilled {len offset size : Nat} (inside : offset + size ≤ len) :
    slice (List.replicate len 0 ++ [1]) offset size = List.replicate size 0 := by
  refine List.eq_replicate_iff.mpr ⟨length_slice _ _ _, fun byte member => ?_⟩
  obtain ⟨index, below, rfl⟩ := List.mem_map.mp member
  have short := List.mem_range.mp below
  rw [byteAt_append_left _ _ _ (by rw [List.length_replicate]; omega)]
  exact byteAt_zeros _ _

theorem spilledPart_bytes (len : Nat) : (spilledPart len).bytes = List.replicate len 0 :=
  slice_spilled (Nat.le_of_eq (Nat.zero_add len))

theorem lookAhead_zeros (lens : List Nat) : lookAhead (lens.map zeroPart) = 0 := by
  cases lens with
  | nil => rfl
  | cons len rest => exact congrArg UInt8.toNat (byteAt_zeros len 0)

theorem payloadSum_zeros (lens : List Nat) (offset : Nat) (s : σ) :
    (payloadSum offset (lens.map zeroPart) s).value = 0 := by
  induction lens generalizing offset with
  | nil => rfl
  | cons len rest ih =>
      rw [List.map_cons, payloadSum_cons_value, ih, ih, lookAhead_zeros]
      simp only [zeroPart, Payload.ofBytes, slice_zeros, byteAt_zeros, wordsOf_replicate_zero]
      split <;> rfl

theorem lookAhead_spilled {next : Nat} (positive : 0 < next) (rest : List Payload) :
    lookAhead (spilledPart next :: rest) = 0 := by
  have inside : byteAt (List.replicate next 0 ++ [1]) 0 = 0 := by
    rw [byteAt_append_left _ _ _ (by rwa [List.length_replicate])]
    exact byteAt_zeros _ _
  exact congrArg UInt8.toNat inside

theorem payloadSum_spilled_value (next : Nat) (rest : List Nat) (s : σ) :
    (payloadSum 1 (spilledPart next :: rest.map zeroPart) s).value =
      (wordsOf (slice (List.replicate next 0 ++ [1]) 2
        (2 * (((next : Int) - (1 : Nat)) / 2).toNat))).sum +
      if (next : Int) - (1 : Nat) ≠ 2 * (((next : Int) - (1 : Nat)) / 2).toNat then
        256 * (byteAt (List.replicate next 0 ++ [1])
          (2 + 2 * (((next : Int) - (1 : Nat)) / 2).toNat)).toNat
      else 0 := by
  rw [payloadSum_cons_value, payloadSum_zeros, payloadSum_zeros, lookAhead_zeros]
  rfl

/-- Behind an odd part, a part that is not a single byte contributes the byte
behind it. -/
theorem payloadSum_spilled {next : Nat} (several : next ≠ 1) (rest : List Nat) (s : σ) :
    lookAhead (spilledPart next :: rest.map zeroPart) +
        (payloadSum 1 (spilledPart next :: rest.map zeroPart) s).value ∈ Set.Icc 1 256 := by
  rw [payloadSum_spilled_value]
  rcases Nat.eq_zero_or_pos next with rfl | positive
  · have first : lookAhead (spilledPart 0 :: rest.map zeroPart) = 1 := rfl
    rw [first]
    exact ⟨by decide, by decide⟩
  · rw [lookAhead_spilled positive]
    have behind : 2 + (next - 2) = next := by omega
    rcases Nat.mod_two_eq_zero_or_one next with even | odd
    · -- the last word is cut, and its high byte is the one behind the part
      have count : 2 * (((next : Int) - (1 : Nat)) / 2).toNat = next - 2 := by omega
      rw [if_pos (by omega), count, slice_spilled (by omega), wordsOf_replicate_zero, behind,
        byteAt_spilled]
      exact ⟨by decide, by decide⟩
    · -- the words end one byte behind the part
      have count : 2 * (((next : Int) - (1 : Nat)) / 2).toNat = next - 2 + 1 := by omega
      have last : slice (List.replicate next 0 ++ [1]) next 1 = [1] :=
        congrArg ([·]) (byteAt_spilled next)
      rw [if_neg (by omega), count, slice_add, slice_spilled (by omega), behind, last,
        wordsOf_snoc (by rw [List.length_replicate]; omega), wordsOf_replicate_zero]
      exact ⟨by decide, by decide⟩

theorem chainBytes_zeros (lens : List Nat) : ∀ byte ∈ chainBytes (lens.map zeroPart), byte = 0 := by
  induction lens with
  | nil => exact List.forall_mem_nil _
  | cons len rest ih =>
      rw [List.map_cons, chainBytes_cons, zeroPart_bytes, List.forall_mem_append]
      exact ⟨fun _ => List.eq_of_mem_replicate, ih⟩

/-- In every other shape some chain of zeros gets a sum that is not zero. -/
theorem exists_payloadSum_ne {lens : List Nat} (straddling : ¬ WholeWords lens) (s : σ) :
    ∃ chain : List Payload, chain.map Payload.len = lens ∧ (∀ byte ∈ chainBytes chain, byte = 0) ∧
      (payloadSum 0 chain s).value ∈ Set.Icc 1 256 := by
  have zeroSum (len : Nat) : (wordsOf (zeroPart len).bytes).sum = 0 := by
    rw [zeroPart_bytes, wordsOf_replicate_zero]
  have zeroLen (len : Nat) : (zeroPart len).len = len := List.length_replicate
  have zeroBytes (len : Nat) : ∀ byte ∈ (zeroPart len).bytes, byte = 0 := by
    rw [zeroPart_bytes]
    exact fun _ => List.eq_of_mem_replicate
  induction lens using WholeWords.induct with
  | case1 => exact absurd trivial straddling
  | case2 len => exact absurd trivial straddling
  | case3 len next rest even ih =>
      rw [WholeWords, if_pos even] at straddling
      obtain ⟨chain, shape, zeros, wrong⟩ := ih straddling
      refine ⟨zeroPart len :: chain, ?_, ?_, ?_⟩
      · rw [List.map_cons, zeroLen, shape]
      · rw [chainBytes_cons, List.forall_mem_append]
        exact ⟨zeroBytes len, zeros⟩
      · rwa [payloadSum_even ((zeroLen len).symm ▸ even), zeroSum, Nat.zero_add]
  | case4 len next rest odd ih =>
      rw [WholeWords, if_neg odd] at straddling
      have oddLen : (zeroPart len).len % 2 = 1 := by rw [zeroLen]; omega
      by_cases single : next = 1
      · -- the straddling word is complete, the fault lies further on
        obtain ⟨chain, shape, zeros, wrong⟩ := ih (fun whole => straddling ⟨single, whole⟩)
        refine ⟨zeroPart len :: zeroPart next :: chain, ?_, ?_, ?_⟩
        · rw [List.map_cons, List.map_cons, zeroLen, zeroLen, shape]
        · rw [chainBytes_cons, chainBytes_cons, List.forall_mem_append, List.forall_mem_append]
          exact ⟨zeroBytes len, zeroBytes next, zeros⟩
        · have ahead : lookAhead (zeroPart next :: chain) = 0 :=
            congrArg UInt8.toNat (byteAt_zeros next 0)
          rwa [payloadSum_odd oddLen, payloadSum_completed ((zeroLen next).trans single), zeroSum,
            ahead, Nat.zero_add]
      · refine ⟨zeroPart len :: spilledPart next :: rest.map zeroPart, ?_, ?_, ?_⟩
        · have lens : (rest.map zeroPart).map Payload.len = rest := by
            rw [List.map_map]
            exact List.map_id'' zeroLen rest
          rw [List.map_cons, List.map_cons, zeroLen, lens]
          rfl
        · rw [chainBytes_cons, chainBytes_cons, List.forall_mem_append, List.forall_mem_append,
            spilledPart_bytes]
          exact ⟨zeroBytes len, fun _ => List.eq_of_mem_replicate, chainBytes_zeros rest⟩
        · rw [payloadSum_odd oddLen, zeroSum, Nat.zero_add]
          exact payloadSum_spilled single rest s

/-! ## The two sums -/

theorem length_chainBytes (chain : List Payload) :
    (chainBytes chain).length = (chain.map Payload.len).sum := by
  induction chain with
  | nil => rfl
  | cons part rest ih =>
      rw [chainBytes_cons, List.length_append, Payload.length_bytes, ih, List.map_cons, List.sum_cons]

theorem calcPayloadChecksum_value {lens : List Nat} (whole : WholeWords lens) (short : lens.sum ≤ 65535)
    {chain : List Payload} (shape : chain.map Payload.len = lens) (s : σ) :
    (calcPayloadChecksum chain s).value = internetChecksum (chainBytes chain) := by
  have bound : (wordsOf (chainBytes chain)).sum < 2 ^ 31 :=
    sum_wordsOf_lt (by rwa [length_chainBytes, shape])
  have value : (calcPayloadChecksum chain s).value =
      0xffff - foldSum ((payloadSum 0 chain s).value % 2 ^ 32) := rfl
  rw [value, payloadSum_value whole chain shape, Nat.mod_eq_of_lt (by omega), foldSum_eq_onesRep,
    internetChecksum_eq]

/-- `calc_payload_checksum` gives the checksum of the joined parts and reads nothing
else for the shapes whose straddling words are completed by a part of one byte, and
for no others. -/
theorem calcPayloadChecksum_refines_iff (lens : List Nat) (short : lens.sum ≤ 65535) (s : σ) :
    (∀ chain : List Payload, chain.map Payload.len = lens →
      (calcPayloadChecksum chain s).value = internetChecksum (chainBytes chain) ∧
        ∀ event ∈ (calcPayloadChecksum chain s).events, ReadsParts chain event) ↔
      WholeWords lens := by
  constructor
  · intro refines
    by_contra straddling
    obtain ⟨chain, shape, zeros, least, most⟩ := exists_payloadSum_ne straddling s
    have equal := (refines chain shape).1
    have value : (calcPayloadChecksum chain s).value =
        0xffff - foldSum ((payloadSum 0 chain s).value % 2 ^ 32) := rfl
    have allZero := List.eq_replicate_iff.mpr ⟨rfl, zeros⟩
    rw [value, Nat.mod_eq_of_lt (by omega), foldSum_eq_onesRep, onesRep_of_le (by omega), allZero,
      internetChecksum_eq, wordsOf_replicate_zero, onesRep_zero] at equal
    omega
  · intro whole chain shape
    constructor
    · exact calcPayloadChecksum_value whole short shape s
    · have sum := emits_payloadSum_whole (Q := ReadsParts chain) (s := s) whole chain shape
        (fun part member event inside => ⟨part, member, inside⟩)
      exact (Proc.emits_bind _ _).mpr ⟨sum, Proc.emits_pure _⟩

theorem calcPayloadChecksum_refines_three :
    let chain : List Payload := [.ofBytes [1, 2, 3], .ofBytes [4], .ofBytes [5, 6]]
    (calcPayloadChecksum chain ()).value = internetChecksum (chainBytes chain) ∧
      ∀ event ∈ (calcPayloadChecksum chain ()).events, ReadsParts chain event :=
  (calcPayloadChecksum_refines_iff [3, 1, 2] (by decide) ()).mpr ⟨rfl, trivial⟩ _ rfl

/-- One byte, then two: the last one is summed from two bytes further on. -/
theorem calcPayloadChecksum_straddling :
    (calcPayloadChecksum [.ofBytes [1], .ofBytes [2, 3]] ()).value = 0xfefd ∧
      internetChecksum (chainBytes [.ofBytes [1], .ofBytes [2, 3]]) = 0xfbfd := by
  constructor
  · have value : (calcPayloadChecksum [.ofBytes [1], .ofBytes [2, 3]] ()).value =
        0xffff - foldSum 0x0102 := rfl
    rw [value, foldSum_eq_onesRep]
    rfl
  · decide

/-- `calc_checksum` gives the checksum for even lengths, and for odd ones when the last
byte is zero; `calc_payload_checksum` of the one part gives it always. -/
theorem calcChecksum_refines_iff (buffer : Ptr) (len : Nat) (short : len ≤ 65535) (s : σ) :
    ((calcChecksum buffer len s).value = internetChecksum (slice buffer.memory buffer.offset len) ↔
      len % 2 = 0 ∨ byteAt buffer.memory (buffer.offset + (len - 1)) = 0) ∧
    (calcPayloadChecksum [⟨buffer, len⟩] s).value =
      internetChecksum (slice buffer.memory buffer.offset len) := by
  constructor
  · exact calcChecksum_eq_iff buffer short s
  · have alone : chainBytes [⟨buffer, len⟩] = slice buffer.memory buffer.offset len :=
      List.append_nil _
    have whole : WholeWords [len] := trivial
    have total : [len].sum ≤ 65535 := by rwa [List.sum_singleton]
    rw [← alone]
    exact calcPayloadChecksum_value whole total rfl s

theorem calcChecksum_refines_three :
    (calcChecksum ⟨.header, [1, 2, 0], 0⟩ 3 ()).value = internetChecksum [1, 2, 0] ∧
      (calcPayloadChecksum [.ofBytes [1, 2, 3]] ()).value = internetChecksum [1, 2, 3] :=
  ⟨(calcChecksum_refines_iff ⟨.header, [1, 2, 0], 0⟩ 3 (by decide) ()).1.mpr (.inr rfl),
    (calcChecksum_refines_iff ⟨.header, [1, 2, 3], 0⟩ 3 (by decide) ()).2⟩

/-- The last byte of an odd length is added as a low byte. -/
theorem calcChecksum_odd :
    (calcChecksum ⟨.header, [1], 0⟩ 1 ()).value = 0xfffe ∧ internetChecksum [1] = 0xfeff := by
  constructor
  · have value : (calcChecksum ⟨.header, [1], 0⟩ 1 ()).value = 0xffff - foldSum 1 := rfl
    rw [value, foldSum_eq_onesRep]
    rfl
  · decide

end SwitchLanPlay
