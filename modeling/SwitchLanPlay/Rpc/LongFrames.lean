import SwitchLanPlay.Library.Bytes
import SwitchLanPlay.Rpc.WebSocket

/-!
# Long frames

The length of a WebSocket frame above 65535 bytes comes in eight bytes, the most
significant one first.  `onData` shifts each of them as an `int`: the amounts 56, 48,
40 and 32 are too wide for that type, and the amount 24 moves a byte above 127 into its
sign.  What the wide shifts give is `RpcEnv.wideShift`, and nothing is known about it.
-/

namespace SwitchLanPlay.Rpc

open Library

/-- The value of the eight length bytes. -/
def sentLength (get : Nat → UInt8) : Nat :=
  (List.range 8).foldl (fun length i => length * 256 + (get i).toNat) 0

/-- The last four of the length bytes. -/
def lowLength (get : Nat → UInt8) : Nat :=
  (get 4).toNat * 2 ^ 24 + ((get 5).toNat * 2 ^ 16 + ((get 6).toNat * 2 ^ 8 + (get 7).toNat))

/-- The first four. -/
def highLength (get : Nat → UInt8) : Nat :=
  (get 0).toNat * 2 ^ 24 + ((get 1).toNat * 2 ^ 16 + ((get 2).toNat * 2 ^ 8 + (get 3).toNat))

section Values

variable (get : Nat → UInt8)

theorem sentLength_eq : sentLength get = highLength get * 2 ^ 32 + lowLength get := by
  simp only [sentLength, highLength, lowLength, List.range, List.range.loop, List.foldl]
  omega

theorem lastThree_lt : (get 5).toNat * 2 ^ 16 + ((get 6).toNat * 2 ^ 8 + (get 7).toNat) < 2 ^ 24 := by
  have fifth := (get 5).toNat_lt
  have sixth := (get 6).toNat_lt
  have seventh := (get 7).toNat_lt
  omega

/-- The fifth byte bounds the last four. -/
theorem lowLength_lt_mul {bound : Nat} (below : (get 4).toNat < bound) : lowLength get < bound * 2 ^ 24 := by
  calc lowLength get < (get 4).toNat * 2 ^ 24 + 2 ^ 24 := Nat.add_lt_add_left (lastThree_lt get) _
    _ = ((get 4).toNat + 1) * 2 ^ 24 := (Nat.succ_mul _ _).symm
    _ ≤ bound * 2 ^ 24 := Nat.mul_le_mul_right _ below

theorem lowLength_lt : lowLength get < 2 ^ 32 :=
  Nat.lt_of_lt_of_eq (lowLength_lt_mul get (get 4).toNat_lt) (by decide)

theorem sentLength_mod : sentLength get % 2 ^ 32 = lowLength get := by
  rw [sentLength_eq, Nat.mul_add_mod_self_right, Nat.mod_eq_of_lt (lowLength_lt get)]

theorem sentLength_lt (clear : (get 0).toNat < 128) : sentLength get < 2 ^ 63 := by
  have first := (get 1).toNat_lt
  have second := (get 2).toNat_lt
  have third := (get 3).toNat_lt
  have low := lowLength_lt get
  rw [sentLength_eq, highLength]
  omega

/-! ## The shifts -/

/-- A shift that stays within an `int` and below its sign. -/
def PlainShift (byte : UInt8) (amount : Nat) : Prop := amount < 32 ∧ byte.toNat * 2 ^ amount < 2 ^ 31

/-- The turns of the loop whose shift is plain. -/
theorem plainShift_iff {i : Nat} (turn : i < 8) :
    PlainShift (get i) (64 - 8 * i - 8) ↔ 4 < i ∨ i = 4 ∧ (get 4).toNat < 128 := by
  have byte := (get i).toNat_lt
  rcases Nat.lt_trichotomy i 4 with wide | rfl | narrow
  · have amount : ¬ 64 - 8 * i - 8 < 32 := by omega
    simp only [PlainShift, amount, false_and, false_iff]
    omega
  · have amount : 64 - 8 * 4 - 8 = 24 := rfl
    rw [PlainShift, amount]
    omega
  · have small : 2 ^ (64 - 8 * i - 8) ≤ 2 ^ 16 := Nat.pow_le_pow_right (by decide) (by omega)
    have below := Nat.mul_le_mul byte.le small
    exact iff_of_true ⟨by omega, by omega⟩ (.inl narrow)

end Values

section Loop

variable {σ : Type} (env : RpcEnv σ) (get : Nat → UInt8)

/-- What the turns with a wide shift leave in `length`. -/
def wideShifts : Nat :=
  shifted env (get 0) 56 ||| shifted env (get 1) 48 ||| shifted env (get 2) 40 ||| shifted env (get 3) 32

theorem length64_eq :
    length64 env get = wideShifts env get |||
      (shifted env (get 4) 24 ||| ((get 5).toNat * 2 ^ 16 + ((get 6).toNat * 2 ^ 8 + (get 7).toNat))) := by
  have sixth := (get 6).toNat_lt
  have seventh := (get 7).toNat_lt
  have last := Nat.two_pow_add_eq_or_of_lt seventh (get 6).toNat
  have lastTwo : (get 6).toNat * 2 ^ 8 + (get 7).toNat < 2 ^ 16 := by omega
  have lastThree := Nat.two_pow_add_eq_or_of_lt lastTwo (get 5).toNat
  rw [Nat.mul_comm (get 5).toNat, lastThree, Nat.mul_comm (get 6).toNat, last]
  simp only [length64, wideShifts, List.range, List.range.loop, List.foldl, Nat.zero_or, Nat.or_assoc]
  simp [shifted, Nat.mul_comm]

/-- The byte that is shifted by 24 stays below the sign. -/
theorem length64_plain (plain : (get 4).toNat < 128) :
    length64 env get = wideShifts env get ||| lowLength get := by
  have low := Nat.two_pow_add_eq_or_of_lt (lastThree_lt get) (get 4).toNat
  rw [length64_eq, lowLength, Nat.mul_comm (get 4).toNat, low]
  simp [shifted, plain, Nat.mul_comm]

/-- It reaches the sign, which fills the upper half of `length`. -/
theorem le_length64_signed (signed : 128 ≤ (get 4).toNat) : 2 ^ 64 - 2 ^ 32 ≤ length64 env get := by
  have filled : 2 ^ 64 - 2 ^ 32 ≤ shifted env (get 4) 24 := by
    simp [shifted, signed.not_gt]
  rw [length64_eq]
  exact (filled.trans Nat.left_le_or).trans Nat.right_le_or

theorem length64_exact_iff (clear : (get 0).toNat < 128) :
    length64 env get = sentLength get ↔
      (get 4).toNat < 128 ∧ wideShifts env get ||| sentLength get % 2 ^ 32 = sentLength get := by
  rw [sentLength_mod]
  constructor
  · intro same
    have plain : (get 4).toNat < 128 := by
      by_contra signed
      -- the sign fills the upper half, and no length with a clear top bit is that large
      have large := le_length64_signed env get (le_of_not_gt signed)
      have small := sentLength_lt get clear
      omega
    exact ⟨plain, by rw [← length64_plain env get plain, same]⟩
  · rintro ⟨plain, upper⟩
    rw [length64_plain env get plain, upper]

/-! ## Shifts that give some `int` -/

/-- The values of an `int` as a `uint64_t`. -/
def IsInt (value : Nat) : Prop := value < 2 ^ 31 ∨ 2 ^ 64 - 2 ^ 31 ≤ value

theorem IsInt.or {first second : Nat} (left : IsInt first) (right : IsInt second) : IsInt (first ||| second) := by
  rcases left with small | large
  · rcases right with small' | large'
    · exact .inl (Nat.or_lt_two_pow small small')
    · exact .inr (large'.trans Nat.right_le_or)
  · exact .inr (large.trans Nat.left_le_or)

/-- A processor on which a wide shift gives some `int`, and zero for zero. -/
structure IntShifts : Prop where
  int : ∀ byte amount, IsInt (env.wideShift byte amount % 2 ^ 64)
  zero : ∀ amount, env.wideShift 0 amount % 2 ^ 64 = 0

variable {env}

theorem IntShifts.wide (ints : IntShifts env) : IsInt (wideShifts env get) :=
  (((ints.int _ _).or (ints.int _ _)).or (ints.int _ _)).or (ints.int _ _)

theorem IntShifts.exact_iff (ints : IntShifts env) (clear : (get 0).toNat < 128) :
    length64 env get = sentLength get ↔ sentLength get < 2 ^ 31 := by
  rw [length64_exact_iff env get clear, sentLength_mod]
  constructor
  · rintro ⟨plain, upper⟩
    have low : lowLength get < 2 ^ 31 := Nat.lt_of_lt_of_eq (lowLength_lt_mul get plain) (by decide)
    rcases ints.wide get with small | large
    · rw [← upper]
      exact Nat.or_lt_two_pow small low
    · have below := sentLength_lt get clear
      have above : wideShifts env get ≤ sentLength get := upper ▸ Nat.left_le_or
      omega
  · intro small
    rw [sentLength_eq, highLength, lowLength] at small
    have nothing {byte : UInt8} (zero : byte.toNat = 0) (amount : Nat) (wide : 24 < amount) :
        shifted env byte amount = 0 := by
      obtain rfl : byte = 0 := UInt8.toNat_inj.mp zero
      rw [shifted, if_neg (by omega), if_neg (by omega), ints.zero]
    have first : highLength get = 0 := by
      rw [highLength]
      omega
    refine ⟨by omega, ?_⟩
    rw [wideShifts, nothing (by omega) 56 (by decide), nothing (by omega) 48 (by decide),
      nothing (by omega) 40 (by decide), nothing (by omega) 32 (by decide), sentLength_eq, first]
    simp

end Loop

/-! ## The length of a frame -/

section Frames

variable {β σ : Type} (env : RpcEnv σ) (queue : ByteQueue β) {conn : WSConnection β σ}

/-- The length of the frame is the one that was sent, and every shift on the way is plain. -/
structure ExactLength (conn : WSConnection β σ) : Prop where
  value : (decode64BitLength env queue conn).state.frame.length = sentLength (queue.get conn.bl)
  plain : ∀ i < 8, PlainShift (queue.get conn.bl i) (64 - 8 * i - 8)

theorem decode64BitLength_length (here : conn.wsState = .waitingFor64BitLength) (enough : 8 ≤ queue.size conn.bl) :
    (decode64BitLength env queue conn).state.frame.length = length64 env (queue.get conn.bl) := by
  simp [decode64BitLength, here, enough]

/-- No length is decoded without a wide shift.  Its value is right if the fifth byte is below
128 and the wide shifts happen to leave what the first four bytes stand for; where they
leave some `int`, this is so for the lengths below 2 GiB. -/
theorem decode64BitLength_exact_iff (here : conn.wsState = .waitingFor64BitLength)
    (enough : 8 ≤ queue.size conn.bl) (clear : (queue.get conn.bl 0).toNat < 128) :
    let bytes := queue.get conn.bl
    let length := (decode64BitLength env queue conn).state.frame.length
    ¬ ExactLength env queue conn ∧
      (∀ i < 8, PlainShift (bytes i) (64 - 8 * i - 8) ↔ 4 < i ∨ i = 4 ∧ (bytes 4).toNat < 128) ∧
      (length = sentLength bytes ↔
        (bytes 4).toNat < 128 ∧ wideShifts env bytes ||| sentLength bytes % 2 ^ 32 = sentLength bytes) ∧
      (IntShifts env → (length = sentLength bytes ↔ sentLength bytes < 2 ^ 31)) := by
  intro bytes length
  have loop : length = length64 env bytes := decode64BitLength_length env queue here enough
  rw [loop]
  refine ⟨fun exactLength => ?_, fun i turn => plainShift_iff bytes turn, length64_exact_iff env bytes clear,
    fun ints => ints.exact_iff bytes clear⟩
  rcases (plainShift_iff bytes (by decide)).mp (exactLength.plain 0 (by decide)) with late | ⟨fifth, -⟩
  · cases late
  · cases fifth

end Frames

/-- A shift by an amount modulo 32, as a `uint64_t`. -/
def maskedShift (byte : UInt8) (amount : Nat) : Nat :=
  let value := byte.toNat * 2 ^ (amount % 32) % 2 ^ 32
  if value < 2 ^ 31 then value else value + (2 ^ 64 - 2 ^ 32)

def maskingEnv : RpcEnv Unit where
  token := []
  onMessage := fun _ server => ([], server)
  sha1 := id
  base64Encode := id
  wideShift := maskedShift

theorem maskingEnv_intShifts : IntShifts maskingEnv := by
  refine ⟨fun byte amount => ?_, fun amount => by simp [maskingEnv, maskedShift]⟩
  change IsInt (maskedShift byte amount % 2 ^ 64)
  have bound : byte.toNat * 2 ^ (amount % 32) % 2 ^ 32 < 2 ^ 32 := Nat.mod_lt _ (by decide)
  rw [maskedShift]
  split
  · exact .inl (by omega)
  · exact .inr (by omega)

/-- A connection that has received the bytes of a length. -/
def announced (length : Bytes) : WSConnection Bytes Unit :=
  { WSConnection.start listQueue () with wsState := .waitingFor64BitLength, bl := length }

theorem decode64BitLength_exact_65536 :
    (decode64BitLength maskingEnv listQueue (announced [0, 0, 0, 0, 0, 1, 0, 0])).state.frame.length =
      sentLength (byteAt [0, 0, 0, 0, 0, 1, 0, 0]) :=
  ((@decode64BitLength_exact_iff _ _ maskingEnv listQueue (announced [0, 0, 0, 0, 0, 1, 0, 0]) rfl
    (by decide) (by decide)).2.2.2 maskingEnv_intShifts).mpr (by decide)

/-- A frame of 2 GiB, whose length becomes 0xffffffff80000000. -/
theorem decode64BitLength_signExtended :
    sentLength (byteAt [0, 0, 0, 0, 0x80, 0, 0, 0]) = 0x80000000 ∧
      (decode64BitLength maskingEnv listQueue (announced [0, 0, 0, 0, 0x80, 0, 0, 0])).state.frame.length =
        0xffffffff80000000 ∧
      ¬ ExactLength maskingEnv listQueue (announced [0, 0, 0, 0, 0x80, 0, 0, 0]) := by
  have decoded : (decode64BitLength maskingEnv listQueue
      (announced [0, 0, 0, 0, 0x80, 0, 0, 0])).state.frame.length = 0xffffffff80000000 := by decide
  have sent : sentLength (byteAt [0, 0, 0, 0, 0x80, 0, 0, 0]) = 0x80000000 := by decide
  refine ⟨sent, decoded, fun exactLength => ?_⟩
  have same := exactLength.value
  rw [decoded] at same
  exact absurd (same.trans sent) (by decide)

end SwitchLanPlay.Rpc
