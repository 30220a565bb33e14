import SwitchLanPlay.Library.Blocks

/-!
# SHA-1

The digest as FIPS PUB 180-1 describes it: the message is padded to whole blocks
of 64 bytes, each block gives a schedule of eighty words, and eighty rounds with
these words are added to the chaining value.
-/

namespace SwitchLanPlay.Digest

open Library

abbrev Word := BitVec 32

/-- Five words: a chaining value, or the variables of a round. -/
structure Chain where
  a : Word
  b : Word
  c : Word
  d : Word
  e : Word
  deriving DecidableEq

def Chain.add (first second : Chain) : Chain :=
  ⟨first.a + second.a, first.b + second.b, first.c + second.c, first.d + second.d, first.e + second.e⟩

/-- Four bytes, the most significant first. -/
def wordOf (first second third fourth : UInt8) : Word :=
  first.toBitVec ++ second.toBitVec ++ third.toBitVec ++ fourth.toBitVec

def bigEndian32 (memory : Bytes) (offset : Nat) : Word :=
  wordOf (byteAt memory offset) (byteAt memory (offset + 1)) (byteAt memory (offset + 2))
    (byteAt memory (offset + 3))

namespace Standard

def choose (b c d : Word) : Word := (b &&& c) ||| (~~~b &&& d)

def parity (b c d : Word) : Word := b ^^^ c ^^^ d

def majority (b c d : Word) : Word := (b &&& c) ||| (b &&& d) ||| (c &&& d)

def function (t : Nat) : Word → Word → Word → Word :=
  if t < 20 then choose else if t < 40 then parity else if t < 60 then majority else parity

def constant (t : Nat) : Word :=
  if t < 20 then 0x5A827999 else if t < 40 then 0x6ED9EBA1 else if t < 60 then 0x8F1BBCDC else 0xCA62C1D6

/-- The words `W(0)`, ..., `W(15 + count)`. -/
def schedule (words : List Word) : Nat → List Word
  | 0 => words
  | count + 1 =>
      let w := schedule words count
      w ++ [(w.getD (count + 13) 0 ^^^ w.getD (count + 8) 0 ^^^ w.getD (count + 2) 0 ^^^
        w.getD count 0).rotateLeft 1]

/-- `W(t)` for a block. -/
def scheduled (block : Bytes) (t : Nat) : Word :=
  (schedule ((List.range 16).map fun index => bigEndian32 block (4 * index)) 64).getD t 0

def round (w : Nat → Word) (v : Chain) (t : Nat) : Chain where
  a := v.a.rotateLeft 5 + function t v.b v.c v.d + v.e + w t + constant t
  b := v.a
  c := v.b.rotateLeft 30
  d := v.c
  e := v.d

/-- The variables after so many rounds. -/
def rounds (block : Bytes) (start : Chain) (count : Nat) : Chain :=
  (List.range count).foldl (round (scheduled block)) start

def compress (start : Chain) (block : Bytes) : Chain := start.add (rounds block start 80)

def initial : Chain := ⟨0x67452301, 0xEFCDAB89, 0x98BADCFE, 0x10325476, 0xC3D2E1F0⟩

/-- The length of the message in bits, in eight bytes. -/
def lengthBytes (length : Nat) : Bytes :=
  (List.range 8).map fun index => UInt8.ofNat (8 * length / 256 ^ (7 - index))

/-- So many zeros that the length ends a block. -/
def zeroCount (length : Nat) : Nat := (119 - length % 64) % 64

def padding (length : Nat) : Bytes :=
  0x80 :: (List.replicate (zeroCount length) 0 ++ lengthBytes length)

def digestBytes (value : Chain) : Bytes :=
  [value.a, value.b, value.c, value.d, value.e].flatMap fun word =>
    (List.range 4).map fun index => UInt8.ofNat (word.toNat / 256 ^ (3 - index))

def sha1 (message : Bytes) : Bytes :=
  digestBytes (chained 64 compress initial (message ++ padding message.length))

@[simp] theorem length_sha1 (message : Bytes) : (sha1 message).length = 20 := rfl

/-! ## The schedule -/

theorem length_schedule (words : List Word) (count : Nat) :
    (schedule words count).length = words.length + count := by
  induction count with
  | zero => rfl
  | succ count ih => rw [schedule, List.length_append, ih, List.length_singleton, Nat.add_assoc]

/-- Later words leave the earlier ones alone. -/
theorem getD_schedule_add (words : List Word) {count index : Nat} (inside : index < words.length + count)
    (more : Nat) : (schedule words (count + more)).getD index 0 = (schedule words count).getD index 0 := by
  induction more with
  | zero => rfl
  | succ more ih =>
    rw [← Nat.add_assoc, schedule, List.getD_append, ih]
    rw [length_schedule]
    omega

variable (block : Bytes)

/-- `W(t)` is there as soon as it is computed. -/
theorem scheduled_eq (count : Nat) {t : Nat} (inside : t < 16 + count) (bound : count ≤ 64) :
    scheduled block t =
      (schedule ((List.range 16).map fun index => bigEndian32 block (4 * index)) count).getD t 0 := by
  obtain ⟨more, total⟩ := Nat.exists_eq_add_of_le bound
  rw [scheduled, total]
  exact getD_schedule_add _ (by simpa using inside) more

theorem scheduled_first {t : Nat} (first : t < 16) : scheduled block t = bigEndian32 block (4 * t) := by
  rw [scheduled_eq block 0 (by omega) (by omega), schedule, List.getD_eq_getElem _ _ (by simpa using first),
    List.getElem_map, List.getElem_range]

theorem scheduled_next {t : Nat} (bound : t < 64) :
    scheduled block (t + 16) = (scheduled block (t + 13) ^^^ scheduled block (t + 8) ^^^
      scheduled block (t + 2) ^^^ scheduled block t).rotateLeft 1 := by
  have length : (schedule ((List.range 16).map fun index => bigEndian32 block (4 * index)) t).length = t + 16 := by
    rw [length_schedule, List.length_map, List.length_range, Nat.add_comm]
  rw [scheduled_eq block (t + 1) (by omega) (by omega), schedule, List.getD_append_right _ _ _ _ length.le,
    length, Nat.sub_self, List.getD_cons_zero, scheduled_eq block t (by omega) (by omega),
    scheduled_eq block t (by omega) (by omega), scheduled_eq block t (by omega) (by omega),
    scheduled_eq block t (by omega) (by omega)]

end Standard

end SwitchLanPlay.Digest
