import Mathlib.Tactic.IntervalCases
import SwitchLanPlay.Digest.Transform
import SwitchLanPlay.Library.Streams

/-!
# Messages in pieces

`SHA1Init`, `SHA1Update` and `SHA1Final` of `sha1.c`.  A context keeps the bytes
behind the last whole block in `buffer` and the length in bits in two words; the
length of one piece is a `uint32_t`.  However a message is cut into pieces, the
digest is the one of the standard.

A loop that does not end within its bound has no result; the bounds are never
reached.
-/

namespace SwitchLanPlay.Digest

open Library

/-! ## Model -/

/-- `SHA1_CTX` -/
structure Sha1Ctx where
  state : Chain
  count0 : Word
  count1 : Word
  buffer : Bytes
  sized : buffer.length = 64

/-- `SHA1Init`; the buffer keeps what was there. -/
def sha1Init (buffer : Bytes) (sized : buffer.length = 64) : Sha1Ctx :=
  ⟨⟨0x67452301, 0xEFCDAB89, 0x98BADCFE, 0x10325476, 0xC3D2E1F0⟩, 0, 0, buffer, sized⟩

/-- `memcpy(&context->buffer[position], ...)` -/
def Sha1Ctx.copy (ctx : Sha1Ctx) (position : Nat) (bytes : Bytes) : Sha1Ctx :=
  { ctx with
    buffer := overwrite ctx.buffer position bytes
    sized := (length_overwrite _ _ _).trans ctx.sized }

/-- `(count[0] >> 3) & 63`: how much of the buffer is in use. -/
def Sha1Ctx.position (ctx : Sha1Ctx) : Word := (ctx.count0 >>> 3) &&& 63

/-- The first lines of `SHA1Update`: the length in bits. -/
def Sha1Ctx.counted (ctx : Sha1Ctx) (len : Word) : Sha1Ctx :=
  let carried := if ctx.count0 + (len <<< 3) < ctx.count0 then ctx.count1 + 1 else ctx.count1
  { ctx with count0 := ctx.count0 + (len <<< 3), count1 := carried + (len >>> 29) }

/-- `for ( ; i + 63 < len; i += 64)` -/
def transformLoop (order : ByteOrder) (data : Bytes) (len : Word) :
    Nat → Word → Chain → Option (Word × Chain)
  | 0, _, _ => none
  | bound + 1, i, state =>
      if i + 63 < len then
        transformLoop order data len bound (i + 64) (sha1Transform order state (slice data i.toNat 64))
      else
        some (i, state)

/-- `SHA1Update` -/
def sha1Update (order : ByteOrder) (ctx : Sha1Ctx) (data : Bytes) (len : Word) : Option Sha1Ctx :=
  let j := ctx.position
  let ctx := ctx.counted len
  if (63 : Word) < j + len then do
    let ctx := ctx.copy j.toNat (slice data 0 (64 - j).toNat)
    let (i, state) ←
      transformLoop order data len (len.toNat + 1) (64 - j) (sha1Transform order ctx.state ctx.buffer)
    some ({ ctx with state }.copy 0 (slice data i.toNat (len - i).toNat))
  else
    some (ctx.copy j.toNat (slice data 0 len.toNat))

/-- `while ((context->count[0] & 504) != 448)` -/
def padLoop (order : ByteOrder) : Nat → Sha1Ctx → Option Sha1Ctx
  | 0, _ => none
  | bound + 1, ctx =>
      if ctx.count0 &&& 504 ≠ 448 then do
        let ctx ← sha1Update order ctx [0] 1
        padLoop order bound ctx
      else
        some ctx

/-- `(unsigned char)((word >> ((3-(i & 3)) * 8)) & 255)` -/
def byteOf (word : Word) (i : Nat) : UInt8 := UInt8.ofNat ((word >>> ((3 - i % 4) * 8)) &&& 255).toNat

def Sha1Ctx.finalcount (ctx : Sha1Ctx) : Bytes :=
  (List.range 8).map fun i => byteOf (if i ≥ 4 then ctx.count0 else ctx.count1) i

/-- `context->state[index]` -/
def Chain.at (state : Chain) (index : Nat) : Word :=
  [state.a, state.b, state.c, state.d, state.e].getD index 0

/-- `SHA1Final` -/
def sha1Final (order : ByteOrder) (ctx : Sha1Ctx) : Option Bytes := do
  let finalcount := ctx.finalcount
  let ctx ← sha1Update order ctx [0x80] 1
  let ctx ← padLoop order 65 ctx
  let ctx ← sha1Update order ctx finalcount 8
  some ((List.range 20).map fun i => byteOf (ctx.state.at (i / 4)) i)

/-- One call of `SHA1Update` for each piece. -/
def updateAll (order : ByteOrder) : Sha1Ctx → List Bytes → Option Sha1Ctx
  | ctx, [] => some ctx
  | ctx, data :: rest => do
      let ctx ← sha1Update order ctx data (BitVec.ofNat 32 data.length)
      updateAll order ctx rest

/-- `SHA1Init`, the updates, and `SHA1Final`. -/
def digest (order : ByteOrder) (buffer : Bytes) (sized : buffer.length = 64) (pieces : List Bytes) :
    Option Bytes := do
  let ctx ← updateAll order (sha1Init buffer sized) pieces
  sha1Final order ctx

/-! ## Lengths and positions -/

theorem take_overwrite {memory bytes : Bytes} {position : Nat}
    (inside : position + bytes.length ≤ memory.length) :
    (overwrite memory position bytes).take (position + bytes.length) = memory.take position ++ bytes := by
  have whole : ∀ region : Bytes, ∀ size ≤ region.length, region.take size = slice region 0 size := by
    intro region size short
    rw [slice_eq_take_drop _ _ _ (by omega), List.drop_zero]
  rw [whole _ _ (by rwa [length_overwrite]), whole memory position (by omega), slice_add, Nat.zero_add,
    slice_overwrite inside, slice_overwrite_before (by omega) (by omega)]

section Counting

variable (len : Word)

theorem toNat_shl3 : (len <<< 3).toNat = 8 * len.toNat % 4294967296 := by
  rw [BitVec.toNat_shiftLeft, Nat.shiftLeft_eq, Nat.mul_comm]
theorem toNat_shr29 : (len >>> 29).toNat = len.toNat / 536870912 := by
  rw [BitVec.toNat_ushiftRight, Nat.shiftRight_eq_div_pow]

theorem toNat_position : ((len >>> 3) &&& 63).toNat = len.toNat / 8 % 64 := by
  rw [BitVec.toNat_and, BitVec.toNat_ushiftRight, Nat.shiftRight_eq_div_pow]
  exact Nat.and_two_pow_sub_one_eq_mod _ 6

theorem and_504 : len &&& (504 : Word) = ((len >>> 3) &&& (63 : Word)) <<< 3 := by
  apply BitVec.eq_of_getLsbD_eq
  intro i below
  simp only [BitVec.getLsbD_and, BitVec.getLsbD_shiftLeft, BitVec.getLsbD_ushiftRight]
  interval_cases i <;> simp

/-- The mask of the padding loop asks for the place in the block. -/
theorem and_504_eq_iff : len &&& 504 = 448 ↔ len.toNat / 8 % 64 = 56 := by
  have moved : ((len >>> 3 &&& 63) <<< 3).toNat = 8 * (len.toNat / 8 % 64) := by
    rw [toNat_shl3, toNat_position]
    omega
  rw [and_504, ← BitVec.toNat_inj, moved]
  change _ = 448 ↔ _
  omega
end Counting

structure Counts (ctx : Sha1Ctx) (length : Nat) : Prop where
  low : ctx.count0.toNat = 8 * length % 4294967296
  high : ctx.count1.toNat = 8 * length / 4294967296 % 4294967296

theorem Counts.counted {ctx : Sha1Ctx} {length : Nat} (counts : Counts ctx length) (len : Word) :
    Counts (ctx.counted len) (length + len.toNat) := by
  have bound := len.isLt
  have low : (ctx.count0 + (len <<< 3)).toNat = 8 * (length + len.toNat) % 4294967296 := by
    rw [BitVec.toNat_add, toNat_shl3, counts.low]
    omega
  refine ⟨low, ?_⟩
  have high := counts.high
  have before := counts.low
  simp only [Sha1Ctx.counted]
  rw [BitVec.toNat_add, toNat_shr29]
  split
  case isTrue carry =>
    rw [BitVec.lt_def, low] at carry
    have one : (1 : Word).toNat = 1 := rfl
    rw [BitVec.toNat_add, one]
    omega
  case isFalse carry =>
    rw [BitVec.lt_def, low] at carry
    omega

section Pieces

variable (order : ByteOrder) {data : Bytes} (fits : data.length + 64 ≤ 4294967296)

theorem toNat_word {value : Nat} (below : value < 4294967296) : (BitVec.ofNat 32 value).toNat = value := by
  rw [BitVec.toNat_ofNat, Nat.mod_eq_of_lt below]

include fits

theorem loop_goes_on_iff {i : Nat} (inside : i ≤ data.length) :
    BitVec.ofNat 32 i + 63 < BitVec.ofNat 32 data.length ↔ 64 ≤ (data.drop i).length := by
  have sum : (BitVec.ofNat 32 i + 63).toNat = i + 63 := by
    have summand : (63 : Word).toNat = 63 := rfl
    rw [BitVec.toNat_add, toNat_word (by omega), summand]
    omega
  rw [BitVec.lt_def, sum, toNat_word (by omega), List.length_drop]
  omega

/-- The loop over the whole blocks of a piece. -/
theorem transformLoop_eq (bound : Nat) {i : Nat} (inside : i ≤ data.length)
    (enough : (data.drop i).length / 64 < bound) (state : Chain) :
    transformLoop order data (BitVec.ofNat 32 data.length) bound (BitVec.ofNat 32 i) state =
      some (BitVec.ofNat 32 (i + 64 * ((data.drop i).length / 64)),
        chained 64 Standard.compress state (data.drop i)) := by
  induction bound generalizing i state with
  | zero => exact absurd enough (Nat.not_lt_zero _)
  | succ bound ih =>
    rw [transformLoop]
    by_cases whole : 64 ≤ (data.drop i).length
    · have next : BitVec.ofNat 32 i + 64 = BitVec.ofNat 32 (i + 64) := by
        rw [BitVec.ofNat_add]
        rfl
      have parts := div_drop (by decide) whole
      rw [List.drop_drop] at parts
      rw [if_pos ((loop_goes_on_iff fits inside).mpr whole), next, toNat_word (by omega),
        slice_eq_take_drop _ _ _ (by rw [List.length_drop] at whole; omega), sha1Transform_eq_compress,
        ih (by rw [List.length_drop] at whole; omega) (by omega), chained_block _ (by decide) whole,
        List.drop_drop, parts]
      congr 3
      omega
    · rw [if_neg (mt (loop_goes_on_iff fits inside).mp whole), Nat.div_eq_of_lt (by omega),
        chained_short _ (by omega), Nat.mul_zero, Nat.add_zero]

end Pieces

/-- A context has seen the bytes of a message. -/
structure Represents (ctx : Sha1Ctx) (message : Bytes) : Prop extends Counts ctx message.length where
  state : ctx.state = chained 64 Standard.compress Standard.initial message
  buffered : ctx.buffer.take (message.length % 64) = tailBlock 64 message

theorem represents_init (buffer : Bytes) (sized : buffer.length = 64) : Represents (sha1Init buffer sized) [] :=
  ⟨⟨rfl, rfl⟩, rfl, rfl⟩

section Update

variable (order : ByteOrder) {ctx : Sha1Ctx} {message : Bytes} (seen : Represents ctx message)
  {data : Bytes} (fits : data.length + 64 ≤ 4294967296)

include seen

theorem Represents.position : ctx.position.toNat = message.length % 64 := by
  rw [Sha1Ctx.position, toNat_position, seen.low]
  omega

/-- The bytes in the buffer and those behind them. -/
theorem Represents.copied {bytes : Bytes} (room : message.length % 64 + bytes.length ≤ 64) :
    (overwrite ctx.buffer (message.length % 64) bytes).take (message.length % 64 + bytes.length) =
      tailBlock 64 message ++ bytes := by
  rw [take_overwrite (by rw [ctx.sized]; exact room), seen.buffered]

/-- The buffer once it is filled up. -/
theorem Represents.filled {used : Nat} (whole : message.length % 64 + used = 64) (inside : used ≤ data.length) :
    overwrite ctx.buffer (message.length % 64) (data.take used) = (tailBlock 64 message ++ data).take 64 := by
  have gap : 64 - message.length % 64 = used := by omega
  have taken : (data.take used).length = used := by
    rw [List.length_take]
    omega
  have copied : (overwrite ctx.buffer (message.length % 64) (data.take used)).take
      (message.length % 64 + (data.take used).length) = tailBlock 64 message ++ data.take used :=
    seen.copied (by omega)
  have front : (tailBlock 64 message ++ data).take 64 = tailBlock 64 message ++ data.take used := by
    rw [List.take_append, length_tailBlock, List.take_of_length_le (by rw [length_tailBlock]; omega), gap]
  rw [List.take_of_length_le (by rw [length_overwrite, ctx.sized, taken, whole])] at copied
  rw [front, copied]

include fits

theorem Represents.counted : Counts (ctx.counted (BitVec.ofNat 32 data.length)) (message ++ data).length := by
  have counts := seen.toCounts.counted (BitVec.ofNat 32 data.length)
  rwa [toNat_word (by omega), ← List.length_append] at counts

theorem Represents.fills_iff : (63 : Word) < ctx.position + BitVec.ofNat 32 data.length ↔
    64 ≤ message.length % 64 + data.length := by
  have below := Nat.mod_lt message.length (show 0 < 64 by decide)
  have bound : (63 : Word).toNat = 63 := rfl
  rw [BitVec.lt_def, BitVec.toNat_add, seen.position, toNat_word (by omega), bound]
  omega

/-- A piece that does not fill the buffer. -/
theorem Represents.update_short (short : message.length % 64 + data.length < 64) :
    ∃ next, sha1Update order ctx data (BitVec.ofNat 32 data.length) = some next ∧
      Represents next (message ++ data) := by
  rw [sha1Update]
  simp only
  rw [if_neg (mt (seen.fills_iff fits).mp (by omega)), seen.position, toNat_word (by omega), slice_full]
  have length : (tailBlock 64 message ++ data).length < 64 := by
    rw [List.length_append, length_tailBlock]
    exact short
  refine ⟨_, rfl, ⟨⟨(seen.counted fits).low, (seen.counted fits).high⟩, ?_, ?_⟩⟩
  · rw [chained_append _ (by decide), chained_short _ length]
    exact seen.state
  · have total : (message ++ data).length % 64 = message.length % 64 + data.length := by
      rw [List.length_append]
      omega
    rw [tailBlock_append (by decide), tailBlock_short length, total]
    exact seen.copied (by omega)

/-- A piece that fills the buffer. -/
theorem Represents.update_long (long : 64 ≤ message.length % 64 + data.length) :
    ∃ next, sha1Update order ctx data (BitVec.ofNat 32 data.length) = some next ∧
      Represents next (message ++ data) := by
  have below := Nat.mod_lt message.length (show 0 < 64 by decide)
  obtain ⟨used, filled⟩ : ∃ used, message.length % 64 + used = 64 := ⟨64 - message.length % 64, by omega⟩
  obtain ⟨blocks, blocksEq⟩ : ∃ blocks, blocks = (data.drop used).length / 64 := ⟨_, rfl⟩
  have parts : used + 64 * blocks + (message ++ data).length % 64 = data.length := by
    rw [blocksEq, List.length_append, List.length_drop]
    omega
  have usedWord : (BitVec.ofNat 32 used).toNat = used := toNat_word (by omega)
  have lengthWord : (BitVec.ofNat 32 data.length).toNat = data.length := toNat_word (by omega)
  have doneWord : (BitVec.ofNat 32 (used + 64 * blocks)).toNat = used + 64 * blocks := toNat_word (by omega)
  have free : (64 - ctx.position : Word) = BitVec.ofNat 32 used := by
    have size : (64 : Word).toNat = 64 := rfl
    rw [← BitVec.toNat_inj, BitVec.toNat_sub, seen.position, usedWord, size]
    omega
  have left : (BitVec.ofNat 32 data.length - BitVec.ofNat 32 (used + 64 * blocks)).toNat =
      (message ++ data).length % 64 := by
    rw [BitVec.toNat_sub, doneWord, lengthWord]
    omega
  have whole : 64 ≤ (tailBlock 64 message ++ data).length := by
    rw [List.length_append, length_tailBlock]
    exact long
  have behind : (tailBlock 64 message ++ data).drop 64 = data.drop used := by
    have gap : 64 - message.length % 64 = used := by omega
    rw [List.drop_append, length_tailBlock, List.drop_eq_nil_of_le (by rw [length_tailBlock]; omega),
      List.nil_append, gap]
  rw [sha1Update]
  simp only
  rw [if_pos ((seen.fills_iff fits).mpr long), seen.position, free, usedWord, lengthWord,
    slice_eq_take_drop data 0 used (by omega), List.drop_zero,
    transformLoop_eq order fits _ (by omega) (by rw [List.length_drop]; omega), ← blocksEq]
  refine ⟨_, rfl, ⟨⟨(seen.counted fits).low, (seen.counted fits).high⟩, ?_, ?_⟩⟩
  · change chained 64 Standard.compress (sha1Transform order ctx.state
      (overwrite ctx.buffer (message.length % 64) (data.take used))) (data.drop used) = _
    rw [seen.filled filled (by omega), sha1Transform_eq_compress, seen.state,
      chained_append _ (by decide) message, chained_block _ (by decide) whole, behind]
  · have tail : tailBlock 64 (message ++ data) =
        slice data (used + 64 * blocks) ((message ++ data).length % 64) := by
      rw [slice_eq_take_drop _ _ _ parts.le, tailBlock_append (by decide), tailBlock_block (by decide) whole, behind,
        tailBlock, ← blocksEq, List.drop_drop, List.take_of_length_le]
      rw [List.length_drop]
      omega
    change (overwrite (ctx.copy (message.length % 64) (data.take used)).buffer 0
      (slice data (BitVec.ofNat 32 (used + 64 * blocks)).toNat _)).take _ = _
    have short := Nat.mod_lt (message ++ data).length (show 0 < 64 by decide)
    rw [doneWord, left, ← tail, overwrite_zero (by rw [Sha1Ctx.sized, length_tailBlock]; omega),
      ← length_tailBlock, List.take_left]

theorem Represents.update : ∃ next, sha1Update order ctx data (BitVec.ofNat 32 data.length) = some next ∧
    Represents next (message ++ data) := by
  by_cases long : 64 ≤ message.length % 64 + data.length
  · exact seen.update_long order fits long
  · exact seen.update_short order fits (by omega)

end Update

/-! ## The end of a message -/

theorem Represents.padded_iff {ctx : Sha1Ctx} {message : Bytes} (seen : Represents ctx message) :
    ctx.count0 &&& 504 = 448 ↔ message.length % 64 = 56 := by
  rw [and_504_eq_iff, seen.low]
  omega

/-- The loop writes zeros up to the place of the length. -/
theorem padLoop_eq (order : ByteOrder) (bound : Nat) {count : Nat} (enough : count < bound)
    {ctx : Sha1Ctx} {message : Bytes} (seen : Represents ctx message)
    (zeros : count = (120 - message.length % 64) % 64) :
    ∃ next, padLoop order bound ctx = some next ∧ Represents next (message ++ List.replicate count 0) := by
  induction bound generalizing count ctx message with
  | zero => exact absurd enough (Nat.not_lt_zero _)
  | succ bound ih =>
    rw [padLoop]
    by_cases done : message.length % 64 = 56
    · obtain rfl : count = 0 := by omega
      rw [if_neg (not_not_intro (seen.padded_iff.mpr done)), List.replicate_zero, List.append_nil]
      exact ⟨ctx, rfl, seen⟩
    · obtain ⟨less, rfl⟩ : ∃ less, count = less + 1 := ⟨count - 1, by omega⟩
      obtain ⟨longer, updated, seenLonger⟩ := seen.update order (show [(0 : UInt8)].length + 64 ≤ 4294967296 by decide)
      rw [if_pos (mt seen.padded_iff.mp done)]
      obtain ⟨next, looped, seenNext⟩ := ih (show less < bound by omega) seenLonger (by
        rw [List.length_append, List.length_singleton]
        omega)
      refine ⟨next, ?_, ?_⟩
      · rw [show (1 : Word) = BitVec.ofNat 32 [(0 : UInt8)].length from rfl, updated]
        exact looped
      · rwa [List.append_assoc, List.singleton_append, ← List.replicate_succ] at seenNext

theorem byteOf_eq (word : Word) (i : Nat) : byteOf word i = UInt8.ofNat (word.toNat / 256 ^ (3 - i % 4)) := by
  have power : 2 ^ ((3 - i % 4) * 8) = 256 ^ (3 - i % 4) := by
    rw [Nat.mul_comm, Nat.pow_mul]
  have low : (((word >>> ((3 - i % 4) * 8)) &&& 255).toNat : Nat) = word.toNat / 256 ^ (3 - i % 4) % 2 ^ 8 := by
    rw [BitVec.toNat_and, BitVec.toNat_ushiftRight, Nat.shiftRight_eq_div_pow, power]
    exact Nat.and_two_pow_sub_one_eq_mod _ 8
  rw [byteOf, low, UInt8.ofNat_mod_size]

theorem Represents.finalcount {ctx : Sha1Ctx} {message : Bytes} (seen : Represents ctx message) :
    ctx.finalcount = Standard.lengthBytes message.length := by
  apply List.map_congr_left
  intro i member
  have below := List.mem_range.mp member
  rw [byteOf_eq]
  have low := seen.low
  have high := seen.high
  apply UInt8.toNat_inj.mp
  rw [UInt8.toNat_ofNat', UInt8.toNat_ofNat']
  interval_cases i <;> simp <;> omega

theorem digestBytes_eq (state : Chain) :
    ((List.range 20).map fun i => byteOf (state.at (i / 4)) i) = Standard.digestBytes state := by
  simp only [byteOf_eq]
  rfl

/-- `SHA1Final` pads the message as the standard does. -/
theorem Represents.final (order : ByteOrder) {ctx : Sha1Ctx} {message : Bytes} (seen : Represents ctx message) :
    sha1Final order ctx = some (Standard.sha1 message) := by
  obtain ⟨marked, updated, seenMarked⟩ := seen.update order (show [(0x80 : UInt8)].length + 64 ≤ 4294967296 by decide)
  have zeros : Standard.zeroCount message.length = (120 - (message ++ [0x80]).length % 64) % 64 := by
    rw [Standard.zeroCount, List.length_append, List.length_singleton]
    omega
  have few : Standard.zeroCount message.length < 65 := by
    rw [Standard.zeroCount]
    omega
  have lengthFits : (Standard.lengthBytes message.length).length + 64 ≤ 4294967296 := by
    rw [Standard.lengthBytes, List.length_map]
    decide
  obtain ⟨filled, looped, seenFilled⟩ := padLoop_eq order 65 few seenMarked zeros
  obtain ⟨ended, ends, seenEnded⟩ := seenFilled.update order lengthFits
  have steps : sha1Final order ctx =
      some ((List.range 20).map fun i => byteOf (ended.state.at (i / 4)) i) := by
    rw [sha1Final, seen.finalcount, show (1 : Word) = BitVec.ofNat 32 [(0x80 : UInt8)].length from rfl, updated]
    change (padLoop order 65 marked >>= _) = _
    rw [looped]
    change (sha1Update order filled _ (BitVec.ofNat 32 (Standard.lengthBytes message.length).length) >>= _) = _
    rw [ends]
    rfl
  rw [steps, digestBytes_eq, seenEnded.state, Standard.sha1, Standard.padding, List.append_assoc, List.append_assoc,
    List.singleton_append]

theorem updateAll_eq (order : ByteOrder) {pieces : List Bytes} (fits : ∀ data ∈ pieces, data.length + 64 ≤ 4294967296)
    {ctx : Sha1Ctx} {message : Bytes} (seen : Represents ctx message) :
    ∃ next, updateAll order ctx pieces = some next ∧ Represents next (message ++ pieces.flatten) := by
  induction pieces generalizing ctx message with
  | nil =>
    rw [List.flatten_nil, List.append_nil]
    exact ⟨ctx, rfl, seen⟩
  | cons data rest ih =>
    obtain ⟨fitsFirst, fitsRest⟩ := List.forall_mem_cons.mp fits
    obtain ⟨after, updated, seenAfter⟩ := seen.update order fitsFirst
    obtain ⟨next, rested, seenNext⟩ := ih fitsRest seenAfter
    refine ⟨next, ?_, ?_⟩
    · rw [updateAll, updated]
      exact rested
    · rwa [List.flatten_cons, ← List.append_assoc]

theorem digest_pieces (order : ByteOrder) (buffer : Bytes) (sized : buffer.length = 64) {pieces : List Bytes}
    (fits : ∀ data ∈ pieces, data.length + 64 ≤ 4294967296) :
    digest order buffer sized pieces = some (Standard.sha1 pieces.flatten) := by
  obtain ⟨ctx, updated, seen⟩ := updateAll_eq order fits (represents_init buffer sized)
  rw [digest, updated]
  exact seen.final order

/-- However a message is handed to `SHA1Update`, in pieces of up to 4294967232 bytes, and
whatever was in the buffer before, `SHA1Final` writes its SHA-1 digest. -/
theorem digest_eq_sha1 (order : ByteOrder) (buffer : Bytes) (sized : buffer.length = 64) (pieces : List Bytes)
    (fits : ∀ data ∈ pieces, data.length + 64 ≤ 4294967296) :
    digest order buffer sized pieces = some (Standard.sha1 pieces.flatten) :=
  digest_pieces order buffer sized fits

/-- The first test vector of `sha1.c`, in three pieces. -/
theorem digest_abc : digest .little (List.replicate 64 0xff) List.length_replicate [[97], [], [98, 99]] =
    some [0xA9, 0x99, 0x3E, 0x36, 0x47, 0x06, 0x81, 0x6A, 0xBA, 0x3E, 0x25, 0x71, 0x78, 0x50, 0xC2, 0x6C,
      0x9C, 0xD0, 0xD8, 0x9D] := by
  rw [digest_eq_sha1 _ _ _ _ (by simp)]
  decide +kernel

end SwitchLanPlay.Digest
