import SwitchLanPlay.Library.Bytes

/-!
# The chunk list

`BufferList` (`buffer-list.hpp`): the bytes of data events that are not consumed
yet, chunk by chunk, with an offset into the first one.  The counters are unsigned
and have 32 bits.  `get` tests a running sum with `>=` where it should use `>`, so
that it misses the first byte of every chunk but the front one; `advance` looks at
the front chunk once more after the last one is gone.
-/

namespace SwitchLanPlay.Rpc

open Library

structure BufferList where
  list : List Bytes
  sizeList : List Nat
  totalSize : Nat
  offset : Nat
  deriving DecidableEq

/-- What `item[index]` finds. -/
inductive Found where
  | byte (value : UInt8)
  /-- The index is not inside the chunk. -/
  | outside
  /-- `throw "not found"` -/
  | notFound
  deriving DecidableEq

namespace BufferList

/-- The constructor, and `clear`. -/
def empty : BufferList := ⟨[], [], 0, 0⟩

def readItem (item : Bytes) (index : Nat) : Found :=
  if index < item.length then .byte (byteAt item index) else .outside

/-- The loop of `get` from the chunk that starts at `left` on. -/
def getLoop (actId : Nat) : List Bytes → List Nat → Nat → Found
  | _, [], _ => .notFound
  | [], _ :: _, _ => .outside
  | item :: list, len :: sizeList, left =>
      if (left + len) % 2 ^ 32 ≥ actId then readItem item ((actId + 2 ^ 32 - left) % 2 ^ 32)
      else getLoop actId list sizeList ((left + len) % 2 ^ 32)

/-- `get`, and `operator []` -/
def get (bl : BufferList) (k : Nat) : Found :=
  getLoop ((k + bl.offset) % 2 ^ 32) bl.list bl.sizeList 0

def size (bl : BufferList) : Nat := (bl.totalSize + 2 ^ 32 - bl.offset) % 2 ^ 32

/-- `add` of a chunk and its size. -/
def add (bl : BufferList) (buf : Bytes) : BufferList :=
  { bl with
    list := bl.list ++ [buf]
    sizeList := bl.sizeList ++ [buf.length]
    totalSize := (bl.totalSize + buf.length) % 2 ^ 32 }

/-- The loop of `advance`.  It is undefined where it looks at the front of an empty
list or erases it. -/
def advanceLoop : List Bytes → List Nat → Nat → Nat → Option BufferList
  | _, [], _, _ => none
  | list, len :: sizeList, totalSize, offset =>
      if offset ≥ len then
        match list with
        | [] => none
        | _ :: list => advanceLoop list sizeList ((totalSize + 2 ^ 32 - len) % 2 ^ 32) (offset - len)
      else
        some ⟨list, len :: sizeList, totalSize, offset⟩

def advance (bl : BufferList) (n : Nat) : Option BufferList :=
  advanceLoop bl.list bl.sizeList bl.totalSize ((bl.offset + n) % 2 ^ 32)

/-- `copyTo`, with what it finds for each byte. -/
def copyTo (bl : BufferList) (start n : Nat) : List Found :=
  (List.range n).map fun i => bl.get ((start + i) % 2 ^ 32)

/-! ## Reachable lists -/

/-- The list is reached by `add` and `advance`, and the text is what was added without
what was advanced over.  The chunks in the list never have 4 GiB together. -/
inductive Reachable : Bytes → BufferList → Prop where
  | start : Reachable [] empty
  | add {text : Bytes} {bl : BufferList} (reached : Reachable text bl) (buf : Bytes)
      (fits : bl.sizeList.sum + buf.length < 2 ^ 32) : Reachable (text ++ buf) (bl.add buf)
  | advance {text : Bytes} {bl next : BufferList} (reached : Reachable text bl) (n : Nat)
      (within : n ≤ bl.size) (defined : bl.advance n = some next) : Reachable (text.drop n) next

/-- The representation of a text. -/
structure Represents (text : Bytes) (bl : BufferList) : Prop where
  sizes : bl.sizeList = bl.list.map List.length
  total : bl.totalSize = bl.sizeList.sum
  fits : bl.sizeList.sum < 2 ^ 32
  within : bl.offset ≤ bl.sizeList.sum
  rest : bl.list.flatten.drop bl.offset = text

theorem represents_empty : Represents [] empty where
  sizes := rfl
  total := rfl
  fits := by decide
  within := Nat.le_refl 0
  rest := rfl

section Represents

variable {text : Bytes} {bl : BufferList}

theorem Represents.length_flatten (represents : Represents text bl) :
    bl.list.flatten.length = bl.sizeList.sum := by
  rw [List.length_flatten, represents.sizes]

theorem Represents.size (represents : Represents text bl) : bl.size = text.length := by
  have within := represents.within
  have fits := represents.fits
  rw [← represents.rest, List.length_drop, represents.length_flatten, BufferList.size, represents.total]
  omega

theorem Represents.add (represents : Represents text bl) (buf : Bytes)
    (fits : bl.sizeList.sum + buf.length < 2 ^ 32) : Represents (text ++ buf) (bl.add buf) := by
  have within := represents.within
  have sum : (bl.add buf).sizeList.sum = bl.sizeList.sum + buf.length := by
    simp [BufferList.add]
  constructor
  · simp [BufferList.add, represents.sizes]
  · rw [sum, BufferList.add, represents.total, Nat.mod_eq_of_lt fits]
  · rw [sum]
    exact fits
  · rw [sum]
    exact Nat.le_add_right_of_le within
  · have inside : bl.offset ≤ bl.list.flatten.length := by rwa [represents.length_flatten]
    rw [← represents.rest]
    simp [BufferList.add, List.drop_append_of_le_length inside]

end Represents

/-! ## advance -/

/-- The offset lies in the first chunk. -/
def FrontOpen (bl : BufferList) : Prop := ∃ len rest, bl.sizeList = len :: rest ∧ bl.offset < len

theorem advanceLoop_within {list : List Bytes} {offset : Nat} (fits : (list.map List.length).sum < 2 ^ 32)
    (inside : offset < (list.map List.length).sum) :
    ∃ next, advanceLoop list (list.map List.length) (list.map List.length).sum offset = some next ∧
      Represents (list.flatten.drop offset) next ∧ next.FrontOpen := by
  induction list generalizing offset with
  | nil => cases inside
  | cons item rest ih =>
      rw [List.map_cons, List.sum_cons] at fits inside
      rw [List.map_cons, List.sum_cons, advanceLoop]
      by_cases passed : offset ≥ item.length
      · have left : (item.length + (rest.map List.length).sum + 2 ^ 32 - item.length) % 2 ^ 32 =
            (rest.map List.length).sum := by omega
        have dropped : (item :: rest).flatten.drop offset = rest.flatten.drop (offset - item.length) := by
          rw [List.flatten_cons, List.drop_append, List.drop_eq_nil_of_le passed, List.nil_append]
        rw [if_pos passed, left, dropped]
        exact ih (by omega) (by omega)
      · rw [if_neg passed]
        refine ⟨_, rfl, ?_, item.length, rest.map List.length, rfl, Nat.lt_of_not_ge passed⟩
        exact ⟨rfl, rfl, fits, Nat.le_of_lt inside, rfl⟩

/-- Past the last chunk the loop looks at the front of an empty list. -/
theorem advanceLoop_beyond {list : List Bytes} {totalSize offset : Nat}
    (beyond : (list.map List.length).sum ≤ offset) :
    advanceLoop list (list.map List.length) totalSize offset = none := by
  induction list generalizing totalSize offset with
  | nil => rfl
  | cons item rest ih =>
      rw [List.map_cons, List.sum_cons] at beyond
      rw [List.map_cons, advanceLoop, if_pos (Nat.le_of_add_right_le beyond)]
      exact ih (by omega)

section Advance

variable {text : Bytes} {bl : BufferList}

theorem Represents.length (represents : Represents text bl) :
    bl.offset + text.length = bl.sizeList.sum := by
  have within := represents.within
  rw [← represents.rest, List.length_drop, represents.length_flatten]
  omega

theorem Represents.advance (represents : Represents text bl) {n : Nat} (inside : n < text.length) :
    ∃ next, bl.advance n = some next ∧ Represents (text.drop n) next ∧ next.FrontOpen := by
  have length := represents.length
  have fits := represents.fits
  have offset : (bl.offset + n) % 2 ^ 32 = bl.offset + n := Nat.mod_eq_of_lt (by omega)
  rw [BufferList.advance, offset, represents.total, ← represents.rest, List.drop_drop, represents.sizes]
  rw [represents.sizes] at fits length
  exact advanceLoop_within fits (by omega)

theorem Represents.advance_all (represents : Represents text bl) :
    bl.advance text.length = none := by
  have length := represents.length
  have fits := represents.fits
  have offset : (bl.offset + text.length) % 2 ^ 32 = bl.sizeList.sum := by omega
  rw [BufferList.advance, offset, represents.sizes]
  exact advanceLoop_beyond (Nat.le_refl _)

theorem Reachable.represents (reached : Reachable text bl) : Represents text bl := by
  induction reached with
  | start => exact represents_empty
  | add reached buf fits ih => exact ih.add buf fits
  | @advance text bl next reached n within defined ih =>
      rw [ih.size] at within
      rcases Nat.lt_or_eq_of_le within with inside | rfl
      · obtain ⟨other, found, represents, -⟩ := ih.advance inside
        obtain rfl := Option.some.inj (found.symm.trans defined)
        exact represents
      · rw [ih.advance_all] at defined
        cases defined

/-- What `advance` should leave. -/
structure Advanced (bl : BufferList) (n : Nat) (next : BufferList) : Prop where
  front : next.FrontOpen ∨ next.list = [] ∧ next.offset = 0
  lengths : next.list.length = next.sizeList.length
  total : next.totalSize = next.sizeList.sum
  dropped : next.size + n = bl.size

/-- `advance` stays clear of an empty list exactly when it leaves something, and then
it does all that it should. -/
theorem advance_safe_iff (reached : Reachable text bl) (n : Nat) (within : n ≤ bl.size) :
    (∃ next, bl.advance n = some next ∧ Advanced bl n next) ↔ n < bl.size := by
  have represents := reached.represents
  rw [represents.size] at within ⊢
  constructor
  · rintro ⟨next, defined, -⟩
    refine Nat.lt_of_le_of_ne within ?_
    rintro rfl
    rw [represents.advance_all] at defined
    cases defined
  · intro inside
    obtain ⟨next, defined, represents', front⟩ := represents.advance inside
    refine ⟨next, defined, .inl front, ?_, represents'.total, ?_⟩
    · rw [represents'.sizes, List.length_map]
    · rw [represents'.size, represents.size, List.length_drop]
      omega

end Advance

/-- The first chunk and a part of the second are consumed. -/
theorem advance_safe_acrossChunks :
    ∃ next, ((empty.add [1, 2]).add [3, 4]).advance 3 = some next ∧
      Advanced ((empty.add [1, 2]).add [3, 4]) 3 next :=
  (advance_safe_iff (.add (.add .start [1, 2] (by decide)) [3, 4] (by decide)) 3 (by decide)).mpr (by decide)

/-- The only chunk is consumed as a whole. -/
theorem advance_drained :
    Reachable [1] (empty.add [1]) ∧ 1 ≤ (empty.add [1]).size ∧ (empty.add [1]).advance 1 = none :=
  ⟨.add .start [1] (by decide), by decide, by decide⟩

/-! ## get -/

/-- A chunk of the list ends at the position. -/
def ChunkEnd (sizeList : List Nat) (position : Nat) : Prop :=
  ∃ i < sizeList.length, (sizeList.take (i + 1)).sum = position

instance (sizeList : List Nat) (position : Nat) : Decidable (ChunkEnd sizeList position) :=
  inferInstanceAs (Decidable (∃ i < _, _))

theorem chunkEnd_cons (len : Nat) (sizeList : List Nat) (position : Nat) :
    ChunkEnd (len :: sizeList) position ↔
      position = len ∨ len ≤ position ∧ ChunkEnd sizeList (position - len) := by
  constructor
  · rintro ⟨i, below, ends⟩
    cases i with
    | zero =>
        left
        simpa using ends.symm
    | succ i =>
        rw [List.take_succ_cons, List.sum_cons] at ends
        right
        refine ⟨by omega, i, Nat.lt_of_succ_lt_succ below, ?_⟩
        omega
  · rintro (rfl | ⟨beyond, i, below, ends⟩)
    · exact ⟨0, Nat.zero_lt_succ _, by simp⟩
    · refine ⟨i + 1, Nat.succ_lt_succ below, ?_⟩
      rw [List.take_succ_cons, List.sum_cons, ends]
      omega

/-- The loop from a chunk on, for a position counted from its start. -/
theorem getLoop_eq {list : List Bytes} {left position : Nat}
    (fits : left + (list.map List.length).sum < 2 ^ 32) (inside : position < (list.map List.length).sum) :
    getLoop (left + position) list (list.map List.length) left =
      if ChunkEnd (list.map List.length) position then .outside
      else .byte (byteAt list.flatten position) := by
  induction list generalizing left position with
  | nil => cases inside
  | cons item rest ih =>
      rw [List.map_cons, List.sum_cons] at fits inside
      have sum : (left + item.length) % 2 ^ 32 = left + item.length := Nat.mod_eq_of_lt (by omega)
      have index : (left + position + 2 ^ 32 - left) % 2 ^ 32 = position := by omega
      have ends := chunkEnd_cons item.length (rest.map List.length) position
      rw [List.map_cons, getLoop, sum, index, List.flatten_cons, readItem]
      rcases Nat.lt_trichotomy position item.length with before | rfl | behind
      · have within : ¬ ChunkEnd (item.length :: rest.map List.length) position := by
          rw [ends]
          rintro (here | ⟨beyond, -⟩) <;> omega
        rw [if_pos (by omega), if_pos before, if_neg within, byteAt_append_left _ _ _ before]
      · rw [if_pos (Nat.le_refl _), if_neg (Nat.lt_irrefl _), if_pos (ends.mpr (.inl rfl))]
      · obtain ⟨further, rfl⟩ := Nat.exists_eq_add_of_le (Nat.le_of_lt behind)
        have fits' : left + item.length + (rest.map List.length).sum < 2 ^ 32 := by omega
        have inside' : further < (rest.map List.length).sum := by omega
        have same : ChunkEnd (item.length :: rest.map List.length) (item.length + further) ↔
            ChunkEnd (rest.map List.length) further := by
          rw [ends, Nat.add_sub_cancel_left]
          constructor
          · rintro (here | ⟨-, later⟩)
            · omega
            · exact later
          · intro later
            exact .inr ⟨Nat.le_add_right _ _, later⟩
        rw [if_neg (by omega), ← Nat.add_assoc, ih fits' inside', byteAt_append_right]
        simp only [same]

section Get

variable {text : Bytes} {bl : BufferList}

theorem Represents.byteAt (represents : Represents text bl) (k : Nat) :
    byteAt bl.list.flatten (bl.offset + k) = Library.byteAt text k := by
  rw [← represents.rest, Library.byteAt, Library.byteAt, List.getD_eq_getElem?_getD,
    List.getD_eq_getElem?_getD, List.getElem?_drop]

theorem Represents.get (represents : Represents text bl) {k : Nat} (inside : k < text.length) :
    bl.get k =
      if ChunkEnd bl.sizeList (bl.offset + k) then .outside else .byte (Library.byteAt text k) := by
  have length := represents.length
  have fits := represents.fits
  have actId : (k + bl.offset) % 2 ^ 32 = 0 + (bl.offset + k) := by omega
  rw [represents.sizes] at length fits
  have found : getLoop (0 + (bl.offset + k)) bl.list (bl.list.map List.length) 0 = _ :=
    getLoop_eq (by omega) (by omega)
  rw [BufferList.get, actId, represents.sizes, found, represents.byteAt]

theorem Represents.get_eq_iff (represents : Represents text bl) {k : Nat} (inside : k < text.length) :
    bl.get k = .byte (Library.byteAt text k) ↔ ¬ ChunkEnd bl.sizeList (bl.offset + k) := by
  rw [represents.get inside]
  split
  case isTrue ends => exact iff_of_false nofun (not_not_intro ends)
  case isFalse within => exact iff_of_true rfl within

/-- `get` and `copyTo` give the bytes of the text, except for those in front of which a
chunk ends. -/
theorem reads_iff (reached : Reachable text bl) :
    bl.size = text.length ∧
    (∀ k < bl.size, bl.get k = .byte (Library.byteAt text k) ↔
      ¬ ChunkEnd bl.sizeList (bl.offset + k)) ∧
    ∀ start n, start + n ≤ bl.size →
      (bl.copyTo start n = (slice text start n).map .byte ↔
        ∀ i < n, ¬ ChunkEnd bl.sizeList (bl.offset + (start + i))) := by
  have represents := reached.represents
  have fits := represents.fits
  have length := represents.length
  refine ⟨represents.size, ?_, ?_⟩
  · intro k inside
    rw [represents.size] at inside
    exact represents.get_eq_iff inside
  · intro start n inside
    rw [represents.size] at inside
    rw [BufferList.copyTo, slice, List.map_map, List.map_inj_left]
    refine forall_congr' fun i => ?_
    rw [List.mem_range]
    refine forall_congr' fun below => ?_
    have wraps : (start + i) % 2 ^ 32 = start + i := Nat.mod_eq_of_lt (by omega)
    rw [wraps]
    exact represents.get_eq_iff (by omega)

end Get

/-- Bytes within either of two chunks. -/
theorem reads_twoChunks :
    ((empty.add [1, 2]).add [3, 4, 5]).get 3 = .byte 4 ∧
      ((empty.add [1, 2]).add [3, 4, 5]).copyTo 0 2 = [.byte 1, .byte 2] ∧
      ((empty.add [1, 2]).add [3, 4, 5]).copyTo 3 2 = [.byte 4, .byte 5] := by
  have reached : Reachable [1, 2, 3, 4, 5] ((empty.add [1, 2]).add [3, 4, 5]) :=
    .add (.add .start [1, 2] (by decide)) [3, 4, 5] (by decide)
  obtain ⟨-, get, copyTo⟩ := reads_iff reached
  exact ⟨(get 3 (by decide)).mpr (by decide), (copyTo 0 2 (by decide)).mpr (by decide),
    (copyTo 3 2 (by decide)).mpr (by decide)⟩

/-- Two chunks of one byte: the second byte is looked for behind the first chunk. -/
theorem reads_chunkEnd :
    Reachable [0x81, 5] ((empty.add [0x81]).add [5]) ∧ ((empty.add [0x81]).add [5]).size = 2 ∧
      ((empty.add [0x81]).add [5]).get 1 = .outside :=
  ⟨.add (.add .start [0x81] (by decide)) [5] (by decide), by decide, by decide⟩

end BufferList

end SwitchLanPlay.Rpc
