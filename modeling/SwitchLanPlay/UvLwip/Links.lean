import SwitchLanPlay.UvLwip.Queue

/-!
# The pointers of the write queue

Requests are submitted, reported and cancelled in the order of their numbers, so
the list from `cur_write` to `tail_write` is an interval of numbers.
-/

namespace SwitchLanPlay.UvLwip

open Library

/-- The requests from `c` on are linked in their order. -/
structure Linked (c : Nat) (s : UvlQueue) : Prop where
  bound : c ≤ s.submitted
  head : s.curWrite = if c < s.submitted then some c else none
  link : ∀ i, c ≤ i → i < s.submitted →
    (s.reqs i).next = if i + 1 < s.submitted then some (i + 1) else none
  tail : c < s.submitted → s.tailWrite = some (s.submitted - 1)

variable {c : Nat} {s : UvlQueue}

theorem Linked.chain_eq (linked : Linked c s) (count bound j : Nat) (low : c ≤ j)
    (total : j + count = s.submitted) (enough : count ≤ bound) :
    s.chain bound (if j < s.submitted then some j else none) = List.range' j count := by
  induction count generalizing j bound with
  | zero =>
      rw [if_neg (by omega)]
      cases bound <;> rfl
  | succ count ih =>
      obtain ⟨bound, rfl⟩ : ∃ rest, bound = rest + 1 := ⟨bound - 1, by omega⟩
      rw [if_pos (by omega), UvlQueue.chain, linked.link j low (by omega), List.range'_succ,
        ih bound (j + 1) (by omega) (by omega) (by omega)]

theorem Linked.queue_eq (linked : Linked c s) : s.queue = List.range' c (s.submitted - c) := by
  have bound := linked.bound
  rw [UvlQueue.queue, linked.head]
  exact linked.chain_eq _ _ _ le_rfl (by omega) (by omega)

/-- `cur_write` moves to the next request. -/
theorem Linked.advance (linked : Linked c s) (queued : c < s.submitted) :
    Linked (c + 1) { s with curWrite := (s.reqs c).next } where
  bound := queued
  head := linked.link c le_rfl queued
  link := fun i low => linked.link i (Nat.le_of_succ_le low)
  tail := fun below => linked.tail (Nat.lt_of_succ_lt below)

/-- No pointer is left. -/
theorem linked_empty (none : s.curWrite = none) : Linked s.submitted s where
  bound := le_rfl
  head := by rw [none, if_neg (Nat.lt_irrefl _)]
  link := fun _ low below => absurd low (Nat.not_le_of_gt below)
  tail := fun below => absurd below (Nat.lt_irrefl _)

/-- The list depends on the pointers only. -/
theorem Linked.congr (linked : Linked c s) {s' : UvlQueue} (count : s'.submitted = s.submitted)
    (cur : s'.curWrite = s.curWrite) (tail : s'.tailWrite = s.tailWrite)
    (next : ∀ i, (s'.reqs i).next = (s.reqs i).next) : Linked c s' where
  bound := count ▸ linked.bound
  head := by rw [cur, count, linked.head]
  link := fun i low below => by rw [next, count, linked.link i low (count ▸ below)]
  tail := fun below => by rw [tail, count, linked.tail (count ▸ below)]

/-! ## Submission -/

/-- `uvl_write` changes a request that is there only in its link. -/
theorem uvlWrite_reqs (bufs : List Bytes) (nbufs : Nat) {i : Nat} (below : i < s.submitted) :
    (s.uvlWrite bufs nbufs).reqs i =
      { s.reqs i with next := ((s.uvlWrite bufs nbufs).reqs i).next } := by
  have other : (s.uvlWrite bufs nbufs).reqs i = s.linkTail s.submitted i :=
    Function.update_of_ne (Nat.ne_of_lt below) _ _
  rw [other, UvlQueue.linkTail]
  cases s.tailWrite with
  | none => rfl
  | some tail =>
      rcases eq_or_ne i tail with rfl | away
      · simp only [Function.update_self]
      · simp only [Function.update_of_ne away]

theorem uvlWrite_last (bufs : List Bytes) (nbufs : Nat) :
    (s.uvlWrite bufs nbufs).reqs s.submitted = UvlQueue.freshRequest bufs nbufs :=
  Function.update_self _ _ _

/-- The new request is linked behind the last one. -/
theorem Linked.push (linked : Linked c s) (bufs : List Bytes) (nbufs : Nat) :
    Linked c (s.uvlWrite bufs nbufs) where
  bound := Nat.le_succ_of_le linked.bound
  head := by
    change s.curWrite.or (some s.submitted) = if c < s.submitted + 1 then some c else none
    rw [if_pos (Nat.lt_succ_of_le linked.bound), linked.head]
    rcases Nat.lt_or_eq_of_le linked.bound with queued | rfl
    · rw [if_pos queued, Option.some_or]
    · rw [if_neg (Nat.lt_irrefl _), Option.none_or]
  link := by
    intro i low below
    change _ = if i + 1 < s.submitted + 1 then some (i + 1) else none
    rcases Nat.lt_or_eq_of_le (Nat.le_of_lt_succ below) with before | rfl
    · have other : (s.uvlWrite bufs nbufs).reqs i = s.linkTail s.submitted i :=
        Function.update_of_ne (Nat.ne_of_lt before) _ _
      rw [other, UvlQueue.linkTail, linked.tail (Nat.lt_of_le_of_lt low before), if_pos (by omega)]
      rcases eq_or_ne i (s.submitted - 1) with rfl | away
      · simp only [Function.update_self]
        rw [Nat.sub_add_cancel (Nat.lt_of_le_of_lt (Nat.zero_le _) before)]
      · simp only [Function.update_of_ne away]
        rw [linked.link i low before, if_pos (by omega)]
    · rw [uvlWrite_last, if_neg (Nat.lt_irrefl _)]
      rfl
  tail := fun _ => rfl

end SwitchLanPlay.UvLwip
