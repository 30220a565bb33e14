import Mathlib.Tactic.IntervalCases
import SwitchLanPlay.Digest.Standard

/-!
# One block

`SHA1Transform` of `sha1.c`.  The eighty rounds are written out with the names of
the variables turned by one from each round to the next, and the schedule is kept
in the sixteen words of the block, each new word in the place of the oldest one.
The result is the compression of the standard, on machines of either byte order.
-/

namespace SwitchLanPlay.Digest

open Library

/-! ## Model -/

/-- `LANPLAY_LITTLE_ENDIAN` or `LANPLAY_BIG_ENDIAN` -/
inductive ByteOrder where
  | little
  | big

/-- The local variables of `SHA1Transform`. -/
inductive Var where
  | a
  | b
  | c
  | d
  | e
  deriving DecidableEq

def Chain.get (vars : Chain) : Var → Word
  | .a => vars.a
  | .b => vars.b
  | .c => vars.c
  | .d => vars.d
  | .e => vars.e

def Chain.set (vars : Chain) (name : Var) (value : Word) : Chain :=
  match name with
  | .a => { vars with a := value }
  | .b => { vars with b := value }
  | .c => { vars with c := value }
  | .d => { vars with d := value }
  | .e => { vars with e := value }

/-- The variables and the words `block->l`. -/
structure Work where
  vars : Chain
  block : Vector Word 16

/-- `rol` -/
def rol (value : Word) (bits : Nat) : Word := (value <<< bits) ||| (value >>> (32 - bits))

/-- A word of the union, as the machine reads it from the bytes. -/
def nativeWord (order : ByteOrder) (buffer : Bytes) (index : Nat) : Word :=
  match order with
  | .little =>
      wordOf (byteAt buffer (4 * index + 3)) (byteAt buffer (4 * index + 2)) (byteAt buffer (4 * index + 1))
        (byteAt buffer (4 * index))
  | .big => bigEndian32 buffer (4 * index)

/-- `block->l[i & 15]` -/
def wordAt (block : Vector Word 16) (i : Nat) : Word := block[i % 16]

/-- The value that `blk0(i)` assigns to `block->l[i]`. -/
def blk0 (order : ByteOrder) (block : Vector Word 16) (i : Nat) : Word :=
  match order with
  | .little =>
      (rol (wordAt block i) 24 &&& 0xFF00FF00) ||| (rol (wordAt block i) 8 &&& 0x00FF00FF)
  | .big => wordAt block i

/-- The value that `blk(i)` assigns to `block->l[i & 15]`. -/
def blk (block : Vector Word 16) (i : Nat) : Word :=
  rol (wordAt block (i + 13) ^^^ wordAt block (i + 8) ^^^ wordAt block (i + 2) ^^^ wordAt block i) 1

/-- The macros of a round. -/
inductive Macro where
  | r0
  | r1
  | r2
  | r3
  | r4
  deriving DecidableEq

/-- The word a macro takes from the block. -/
def Macro.word (order : ByteOrder) : Macro → Vector Word 16 → Nat → Word
  | .r0 => blk0 order
  | _ => blk

def Macro.mix : Macro → Word → Word → Word → Word
  | .r0, w, x, y => (w &&& (x ^^^ y)) ^^^ y
  | .r1, w, x, y => (w &&& (x ^^^ y)) ^^^ y
  | .r2, w, x, y => w ^^^ x ^^^ y
  | .r3, w, x, y => ((w ||| x) &&& y) ||| (w &&& x)
  | .r4, w, x, y => w ^^^ x ^^^ y

def Macro.summand : Macro → Word
  | .r0 => 0x5A827999
  | .r1 => 0x5A827999
  | .r2 => 0x6ED9EBA1
  | .r3 => 0x8F1BBCDC
  | .r4 => 0xCA62C1D6

/-- A use of a macro with the names of its variables. -/
structure Line where of ::
  op : Macro
  v : Var
  w : Var
  x : Var
  y : Var
  z : Var
  i : Nat
  deriving DecidableEq

/-- The block with the word of a line in place. -/
def Line.stored (order : ByteOrder) (line : Line) (block : Vector Word 16) : Vector Word 16 :=
  block.set (line.i % 16) (line.op.word order block line.i)

/-- `z += ...; w = rol(w,30);` -/
def Line.perform (order : ByteOrder) (work : Work) (line : Line) : Work :=
  let vars := work.vars.set line.z
    (work.vars.get line.z +
      (line.op.mix (work.vars.get line.w) (work.vars.get line.x) (work.vars.get line.y) +
        line.op.word order work.block line.i + line.op.summand + rol (work.vars.get line.v) 5))
  ⟨vars.set line.w (rol (vars.get line.w) 30), line.stored order work.block⟩

/-- The body of `SHA1Transform`, as it is written there. -/
def unrolled : List Line :=
  [.of .r0 .a .b .c .d .e 0, .of .r0 .e .a .b .c .d 1, .of .r0 .d .e .a .b .c 2, .of .r0 .c .d .e .a .b 3,
   .of .r0 .b .c .d .e .a 4, .of .r0 .a .b .c .d .e 5, .of .r0 .e .a .b .c .d 6, .of .r0 .d .e .a .b .c 7,
   .of .r0 .c .d .e .a .b 8, .of .r0 .b .c .d .e .a 9, .of .r0 .a .b .c .d .e 10, .of .r0 .e .a .b .c .d 11,
   .of .r0 .d .e .a .b .c 12, .of .r0 .c .d .e .a .b 13, .of .r0 .b .c .d .e .a 14, .of .r0 .a .b .c .d .e 15,
   .of .r1 .e .a .b .c .d 16, .of .r1 .d .e .a .b .c 17, .of .r1 .c .d .e .a .b 18, .of .r1 .b .c .d .e .a 19,
   .of .r2 .a .b .c .d .e 20, .of .r2 .e .a .b .c .d 21, .of .r2 .d .e .a .b .c 22, .of .r2 .c .d .e .a .b 23,
   .of .r2 .b .c .d .e .a 24, .of .r2 .a .b .c .d .e 25, .of .r2 .e .a .b .c .d 26, .of .r2 .d .e .a .b .c 27,
   .of .r2 .c .d .e .a .b 28, .of .r2 .b .c .d .e .a 29, .of .r2 .a .b .c .d .e 30, .of .r2 .e .a .b .c .d 31,
   .of .r2 .d .e .a .b .c 32, .of .r2 .c .d .e .a .b 33, .of .r2 .b .c .d .e .a 34, .of .r2 .a .b .c .d .e 35,
   .of .r2 .e .a .b .c .d 36, .of .r2 .d .e .a .b .c 37, .of .r2 .c .d .e .a .b 38, .of .r2 .b .c .d .e .a 39,
   .of .r3 .a .b .c .d .e 40, .of .r3 .e .a .b .c .d 41, .of .r3 .d .e .a .b .c 42, .of .r3 .c .d .e .a .b 43,
   .of .r3 .b .c .d .e .a 44, .of .r3 .a .b .c .d .e 45, .of .r3 .e .a .b .c .d 46, .of .r3 .d .e .a .b .c 47,
   .of .r3 .c .d .e .a .b 48, .of .r3 .b .c .d .e .a 49, .of .r3 .a .b .c .d .e 50, .of .r3 .e .a .b .c .d 51,
   .of .r3 .d .e .a .b .c 52, .of .r3 .c .d .e .a .b 53, .of .r3 .b .c .d .e .a 54, .of .r3 .a .b .c .d .e 55,
   .of .r3 .e .a .b .c .d 56, .of .r3 .d .e .a .b .c 57, .of .r3 .c .d .e .a .b 58, .of .r3 .b .c .d .e .a 59,
   .of .r4 .a .b .c .d .e 60, .of .r4 .e .a .b .c .d 61, .of .r4 .d .e .a .b .c 62, .of .r4 .c .d .e .a .b 63,
   .of .r4 .b .c .d .e .a 64, .of .r4 .a .b .c .d .e 65, .of .r4 .e .a .b .c .d 66, .of .r4 .d .e .a .b .c 67,
   .of .r4 .c .d .e .a .b 68, .of .r4 .b .c .d .e .a 69, .of .r4 .a .b .c .d .e 70, .of .r4 .e .a .b .c .d 71,
   .of .r4 .d .e .a .b .c 72, .of .r4 .c .d .e .a .b 73, .of .r4 .b .c .d .e .a 74, .of .r4 .a .b .c .d .e 75,
   .of .r4 .e .a .b .c .d 76, .of .r4 .d .e .a .b .c 77, .of .r4 .c .d .e .a .b 78, .of .r4 .b .c .d .e .a 79]

/-- `SHA1Transform` -/
def sha1Transform (order : ByteOrder) (state : Chain) (buffer : Bytes) : Chain :=
  state.add (unrolled.foldl (Line.perform order)
    ⟨state, Vector.ofFn fun index => nativeWord order buffer index⟩).vars

/-! ## Words -/

theorem rol_eq_rotateLeft (value : Word) {bits : Nat} (below : bits < 32) :
    rol value bits = value.rotateLeft bits := by
  rw [BitVec.rotateLeft_eq_rotateLeftAux_of_lt below]
  rfl

theorem getLsbD_wordOf (first second third fourth : UInt8) (i : Nat) :
    (wordOf first second third fourth).getLsbD i =
      if i < 8 then fourth.toBitVec.getLsbD i else if i < 16 then third.toBitVec.getLsbD (i - 8)
      else if i < 24 then second.toBitVec.getLsbD (i - 16) else first.toBitVec.getLsbD (i - 24) := by
  have appended : (wordOf first second third fourth).getLsbD i =
      (first.toBitVec ++ second.toBitVec ++ third.toBitVec ++ fourth.toBitVec).getLsbD i := rfl
  rw [appended, BitVec.getLsbD_append, BitVec.getLsbD_append, BitVec.getLsbD_append, Nat.sub_sub, Nat.sub_sub]
  grind

/-- The two masks of `blk0` exchange the bytes of a word. -/
theorem blk0_swaps (first second third fourth : UInt8) :
    (rol (wordOf fourth third second first) 24 &&& 0xFF00FF00) |||
      (rol (wordOf fourth third second first) 8 &&& 0x00FF00FF) = wordOf first second third fourth := by
  apply BitVec.eq_of_getLsbD_eq
  intro i below
  simp only [rol, BitVec.getLsbD_or, BitVec.getLsbD_and, BitVec.getLsbD_shiftLeft, BitVec.getLsbD_ushiftRight,
    getLsbD_wordOf]
  interval_cases i <;> simp

theorem mix_choose (b c d : Word) : (b &&& (c ^^^ d)) ^^^ d = Standard.choose b c d := by
  apply BitVec.eq_of_getLsbD_eq
  intro i below
  simp only [Standard.choose, BitVec.getLsbD_and, BitVec.getLsbD_or, BitVec.getLsbD_xor, BitVec.getLsbD_not, below]
  cases b.getLsbD i <;> cases c.getLsbD i <;> cases d.getLsbD i <;> rfl

theorem mix_majority (b c d : Word) : ((b ||| c) &&& d) ||| (b &&& c) = Standard.majority b c d := by
  apply BitVec.eq_of_getLsbD_eq
  intro i below
  simp only [Standard.majority, BitVec.getLsbD_and, BitVec.getLsbD_or]
  cases b.getLsbD i <;> cases c.getLsbD i <;> cases d.getLsbD i <;> rfl

/-! ## The loop that was unrolled -/

/-- The names that stand for `v`, ..., `z` in a round. -/
def role (t k : Nat) : Var := [.a, .b, .c, .d, .e].getD ((k + 4 * t) % 5) .a

def opAt (t : Nat) : Macro :=
  if t < 16 then .r0 else if t < 20 then .r1 else if t < 40 then .r2 else if t < 60 then .r3 else .r4

def lineAt (t : Nat) : Line :=
  .of (opAt t) (role t 0) (role t 1) (role t 2) (role t 3) (role t 4) t

theorem unrolled_eq : unrolled = (List.range 80).map lineAt := by decide

theorem opAt_mix (t : Nat) (b c d : Word) : (opAt t).mix b c d = Standard.function t b c d := by
  unfold opAt Standard.function
  split
  case isTrue first => rw [if_pos (by omega), Macro.mix, mix_choose]
  case isFalse late =>
    split
    case isTrue first => exact mix_choose b c d
    case isFalse late =>
      split
      case isTrue => rfl
      case isFalse =>
        split
        case isTrue => exact mix_majority b c d
        case isFalse => rfl

theorem opAt_summand (t : Nat) : (opAt t).summand = Standard.constant t := by
  unfold opAt Standard.constant
  split
  case isTrue first => rw [if_pos (by omega), Macro.summand]
  case isFalse late =>
    split
    case isTrue => rfl
    case isFalse =>
      split
      case isTrue => rfl
      case isFalse => split <;> rfl

/-- The variables in the order of their roles. -/
def Chain.turned (vars : Chain) (t : Nat) : Chain :=
  ⟨vars.get (role t 0), vars.get (role t 1), vars.get (role t 2), vars.get (role t 3), vars.get (role t 4)⟩

theorem role_mod (t k : Nat) : role t k = role (t % 5) k := by
  unfold role
  congr 1
  omega

theorem turned_mod (vars : Chain) (t : Nat) : vars.turned t = vars.turned (t % 5) := by
  simp only [Chain.turned, role_mod t]

/-- A round in the order of the roles. -/
theorem turned_perform (order : ByteOrder) (work : Work) (t : Nat) :
    ((lineAt t).perform order work).vars.turned (t + 1) =
      ⟨(work.vars.turned t).e +
        ((opAt t).mix (work.vars.turned t).b (work.vars.turned t).c (work.vars.turned t).d +
          (opAt t).word order work.block t + (opAt t).summand + rol (work.vars.turned t).a 5),
        (work.vars.turned t).a, rol (work.vars.turned t).b 30, (work.vars.turned t).c,
        (work.vars.turned t).d⟩ := by
  rw [turned_mod _ (t + 1), turned_mod _ t, lineAt, role_mod t 0, role_mod t 1, role_mod t 2, role_mod t 3, role_mod t 4]
  have cases : t % 5 = 0 ∨ t % 5 = 1 ∨ t % 5 = 2 ∨ t % 5 = 3 ∨ t % 5 = 4 := by omega
  rcases cases with turn | turn | turn | turn | turn <;> (rw [Nat.add_mod, turn]; rfl)

/-! ## The schedule in place -/

theorem wordAt_congr (block : Vector Word 16) {i j : Nat} (same : i % 16 = j % 16) :
    wordAt block i = wordAt block j := by
  simp only [wordAt, same]

theorem wordAt_set (block : Vector Word 16) (i j : Nat) (word : Word) :
    wordAt (block.set (i % 16) word) j = if i % 16 = j % 16 then word else wordAt block j := by
  rw [wordAt, Vector.getElem_set]
  rfl

theorem wordAt_ofFn (words : Nat → Word) {i : Nat} (first : i < 16) :
    wordAt (Vector.ofFn fun index => words index) i = words i := by
  simp only [wordAt, Vector.getElem_ofFn, Nat.mod_eq_of_lt first]

/-- The summands of a round, in the order of the macros and of the standard. -/
theorem summands (z mixed word summand turned : Word) :
    z + (mixed + word + summand + turned) = turned + mixed + z + word + summand := by
  ac_rfl

/-- After `t` rounds: the variables are those of the standard, and the block holds
the last sixteen words of the schedule, or the words that were not yet used. -/
structure Holds (order : ByteOrder) (buffer : Bytes) (start : Chain) (t : Nat) (work : Work) : Prop where
  vars : work.vars.turned t = Standard.rounds buffer start t
  last : ∀ i < t, t ≤ i + 16 → wordAt work.block i = Standard.scheduled buffer i
  unused : ∀ i, t ≤ i → i < 16 → wordAt work.block i = nativeWord order buffer i

section Rounds

variable {order : ByteOrder} {buffer : Bytes} {start : Chain} {t : Nat} {work : Work}
  (holds : Holds order buffer start t work)

include holds

theorem Holds.blk0_word (first : t < 16) : blk0 order work.block t = Standard.scheduled buffer t := by
  rw [Standard.scheduled_first buffer first]
  cases order with
  | little => rw [blk0, holds.unused t le_rfl first, nativeWord, blk0_swaps, bigEndian32]
  | big => rw [blk0, holds.unused t le_rfl first, nativeWord]

theorem Holds.blk_word (late : 16 ≤ t) (bound : t < 80) : blk work.block t = Standard.scheduled buffer t := by
  obtain ⟨back, rfl⟩ := Nat.exists_eq_add_of_le late
  have kept : ∀ i < 16, wordAt work.block (16 + back + i) = Standard.scheduled buffer (back + i) := by
    intro i below
    rw [wordAt_congr work.block (j := back + i) (by omega), holds.last (back + i) (by omega) (by omega)]
  have oldest : wordAt work.block (16 + back) = Standard.scheduled buffer back := kept 0 (by omega)
  rw [blk, kept 13 (by omega), kept 8 (by omega), kept 2 (by omega), oldest, rol_eq_rotateLeft _ (by omega),
    Nat.add_comm 16 back, Standard.scheduled_next buffer (by omega)]

theorem Holds.word (bound : t < 80) : (opAt t).word order work.block t = Standard.scheduled buffer t := by
  unfold opAt
  split
  case isTrue first => exact holds.blk0_word first
  case isFalse late =>
    have eq := holds.blk_word (by omega) bound
    split
    case isTrue => exact eq
    case isFalse =>
      split
      case isTrue => exact eq
      case isFalse => split <;> exact eq

/-- One round. -/
theorem Holds.perform (bound : t < 80) :
    Holds order buffer start (t + 1) ((lineAt t).perform order work) := by
  have stored : ((lineAt t).perform order work).block =
      work.block.set (t % 16) (Standard.scheduled buffer t) := by
    rw [← holds.word bound]
    rfl
  refine ⟨?_, ?_, ?_⟩
  · rw [turned_perform, holds.word bound, opAt_mix, opAt_summand, holds.vars, Standard.rounds, Standard.rounds,
      List.range_succ, List.foldl_append, List.foldl_cons, List.foldl_nil, Standard.round,
      rol_eq_rotateLeft _ (by omega), rol_eq_rotateLeft _ (by omega)]
    rw [summands]
  · intro i below recent
    rw [stored, wordAt_set]
    rcases Nat.lt_succ_iff_lt_or_eq.mp below with before | rfl
    · rw [if_neg (by omega), holds.last i before (by omega)]
    · rw [if_pos rfl]
  · intro i behind first
    rw [stored, wordAt_set, if_neg (by omega), holds.unused i (by omega) first]

end Rounds

theorem holds_rounds (order : ByteOrder) (buffer : Bytes) (start : Chain) {t : Nat} (bound : t ≤ 80) :
    Holds order buffer start t (((List.range t).map lineAt).foldl (Line.perform order)
      ⟨start, Vector.ofFn fun index => nativeWord order buffer index⟩) := by
  induction t with
  | zero =>
    refine ⟨rfl, fun i below => absurd below (Nat.not_lt_zero i), fun i _ first => ?_⟩
    exact wordAt_ofFn (nativeWord order buffer) first
  | succ t ih =>
    rw [List.range_succ, List.map_append, List.foldl_append]
    exact (ih (by omega)).perform (by omega)

/-- After all rounds every variable is in its own role again. -/
theorem turned_eighty (vars : Chain) : vars.turned 80 = vars := rfl

/-- `SHA1Transform` computes the compression of the standard: rounds that are written
out, variables that change their roles instead of their values, and a schedule of
sixteen words make no difference, nor does the byte order of the machine. -/
theorem sha1Transform_eq_compress (order : ByteOrder) (state : Chain) (buffer : Bytes) :
    sha1Transform order state buffer = Standard.compress state buffer := by
  have done := (holds_rounds order buffer state (t := 80) le_rfl).vars
  rw [sha1Transform, Standard.compress, unrolled_eq, ← done, turned_eighty]

end SwitchLanPlay.Digest
