import Mathlib.Algebra.Order.BigOperators.Group.Finset
import SwitchLanPlay.UvLwip.QueueInvariant

/-!
# The callbacks of the write queue

A triple for every loop of `uvl_async_tcp_write_cb` and `uvl_client_sent_func`:
started in a queue that satisfies the invariant, it ends in one.
-/

namespace SwitchLanPlay.UvLwip

open Library Finset

/-! ## What the write callback is about to do -/

/-- The bytes of a request that are still to be written. -/
def UvlWrite.left (req : UvlWrite) : Nat := req.totalLen - req.totalSent

/-- The requests that `uvl_async_tcp_write_cb` leaves in the queue. -/
def unreported (reqs : Nat → UvlWrite) (queue : List Nat) : List Nat :=
  queue.dropWhile fun req => decide ((reqs req).totalSent = (reqs req).totalLen ∧ (reqs req).pending = 0)

/-- The requests in front of the second loop of `uvl_imp_write_to_tcp`. -/
def unwritten (reqs : Nat → UvlWrite) (queue : List Nat) : List Nat :=
  queue.dropWhile fun req => !decide ((reqs req).sentBufs < (reqs req).sendNbufs)

/-- In front of every request without buffers there are as many bytes to write
as there is room, so that the loop stops before it. -/
def StopsInTime (reqs : Nat → UvlWrite) : Nat → List Nat → Prop
  | _, [] => True
  | room, req :: rest => ((reqs req).sendNbufs = 0 → room = 0) ∧ StopsInTime reqs (room - (reqs req).left) rest

instance decidableStopsInTime (reqs : Nat → UvlWrite) :
    (room : Nat) → (queue : List Nat) → Decidable (StopsInTime reqs room queue)
  | _, [] => inferInstanceAs (Decidable True)
  | room, req :: rest =>
      have := decidableStopsInTime reqs (room - (reqs req).left) rest
      inferInstanceAs (Decidable (((reqs req).sendNbufs = 0 → room = 0) ∧ StopsInTime reqs (room - (reqs req).left) rest))

/-- When the write callback runs now, it does not come to a request without buffers. -/
def UvlQueue.Clear (s : UvlQueue) : Prop :=
  StopsInTime s.reqs s.sndbuf (unwritten s.reqs (unreported s.reqs s.queue))

instance (s : UvlQueue) : Decidable s.Clear := inferInstanceAs (Decidable (StopsInTime _ _ _))

theorem StopsInTime.congr {reqs reqs' : Nat → UvlWrite} {room : Nat} {queue : List Nat}
    (stops : StopsInTime reqs room queue) (same : ∀ req ∈ queue, reqs' req = reqs req) :
    StopsInTime reqs' room queue := by
  induction queue generalizing room with
  | nil => trivial
  | cons req rest ih =>
      rw [List.forall_mem_cons] at same
      rw [StopsInTime, same.1]
      exact ⟨stops.1, ih stops.2 same.2⟩

/-- What happens to the request in front does not matter. -/
theorem StopsInTime.update {reqs : Nat → UvlWrite} {room f count : Nat}
    (stops : StopsInTime reqs room (List.range' (f + 1) count)) (req : UvlWrite) :
    StopsInTime (Function.update reqs f req) room (List.range' (f + 1) count) := by
  refine stops.congr fun i member => Function.update_of_ne ?_ _ _
  have above := (List.mem_range'_1.mp member).1
  omega

/-! ## Writing -/

section Writing

variable {all : Nat → Bytes} {n c f : Nat}

theorem triple_tcpWrite {bytes : Bytes} {before : UvlQueue → List QueueEvent → Prop}
    {after : TcpErr → UvlQueue → List QueueEvent → Prop}
    (refused : ∀ s past, before s past →
      after .mem { s with results := fun call => s.results (call + 1) } past)
    (accepted : ∀ s past, before s past →
      after .ok
        { s with
          sndbuf := s.sndbuf - bytes.length
          unacked := s.unacked + bytes.length
          results := fun call => s.results (call + 1) }
        (past ++ [.tcpWrite bytes])) :
    Proc.Triple before (tcpWrite bytes) after := by
  intro s past pre
  cases answer : s.results 0 with
  | mem => simpa [tcpWrite, answer] using refused s past pre
  | ok => simpa [tcpWrite, answer] using accepted s past pre

/-- The loop stands at the request `f` of the queue, in front of the entries `bufs` of its array. -/
structure StandsAt (all : Nat → Bytes) (n c f : Nat) (bufs : List Bytes) (s : UvlQueue)
    (past : List QueueEvent) : Prop where
  inv : QueueInv all n c f s past
  queued : f < n
  rest : (s.reqs f).sendBufs.drop (s.reqs f).sentBufs = bufs
  stops : StopsInTime s.reqs (s.sndbuf - (s.reqs f).left) (List.range' (f + 1) (n - (f + 1)))

theorem StandsAt.sound {bufs : List Bytes} {s : UvlQueue} {past : List QueueEvent}
    (stands : StandsAt all n c f bufs s past) : (s.reqs f).Sound :=
  stands.inv.shape.sound f (stands.inv.count ▸ stands.queued)

/-- The first of these entries is a buffer to be written. -/
structure WritesAt (all : Nat → Bytes) (n c f : Nat) (bufs : List Bytes) (s : UvlQueue)
    (past : List QueueEvent) : Prop extends StandsAt all n c f bufs s past where
  unfinished : (s.reqs f).sentBufs < (s.reqs f).sendNbufs

theorem WritesAt.found {buf : Bytes} {bufs : List Bytes} {s : UvlQueue} {past : List QueueEvent}
    (writes : WritesAt all n c f (buf :: bufs) s past) :
    (s.reqs f).sendBufs[(s.reqs f).sentBufs]? = some buf := by
  have first := congrArg (fun rest => rest[0]?) writes.rest
  simpa [List.getElem?_drop] using first

theorem WritesAt.inside {buf : Bytes} {bufs : List Bytes} {s : UvlQueue} {past : List QueueEvent}
    (writes : WritesAt all n c f (buf :: bufs) s past) : (s.reqs f).sent ≤ buf.length :=
  writes.sound.inside buf writes.found

theorem WritesAt.short {buf : Bytes} {bufs : List Bytes} {s : UvlQueue} {past : List QueueEvent}
    (writes : WritesAt all n c f (buf :: bufs) s past) : buf.length < 2 ^ 32 :=
  Nat.lt_of_le_of_lt
    (Nat.le_trans (Nat.le_add_left _ _) (length_flatten_take_lt writes.found writes.unfinished))
    writes.sound.short

/-- `tcp_write` takes `count` bytes and the counters follow. -/
theorem WritesAt.took {buf : Bytes} {bufs : List Bytes} {s : UvlQueue} {past : List QueueEvent}
    (writes : WritesAt all n c f (buf :: bufs) s past) {count : Nat}
    (fits : (s.reqs f).sent + count ≤ buf.length) (roomy : count ≤ s.sndbuf) (results : Nat → TcpErr) :
    WritesAt all n c f (buf :: bufs)
      { s with
        reqs := Function.update s.reqs f ((s.reqs f).took count)
        sndbuf := s.sndbuf - count
        unacked := s.unacked + count
        results := results }
      (past ++ [.tcpWrite (slice buf (s.reqs f).sent count)]) := by
  have spare : s.sndbuf - count - ((s.reqs f).took count).left = s.sndbuf - (s.reqs f).left := by
    have bound := writes.sound.totalSent_le_of_current writes.unfinished writes.found
    rw [writes.sound.took_eq writes.unfinished writes.found fits, UvlWrite.left, UvlWrite.left,
      writes.sound.totalLen_eq]
    dsimp only
    omega
  refine ⟨⟨writes.inv.took writes.queued writes.unfinished writes.found fits _ results,
    writes.queued, ?_, ?_⟩, ?_⟩
  · simp only [Function.update_self]
    exact writes.rest
  · simp only [Function.update_self, spare]
    exact writes.stops.update _
  · simp only [Function.update_self]
    exact writes.unfinished

/-- The loop over the first of these buffers, entered with these values. -/
def LoopsAt (all : Nat → Bytes) (n c f : Nat) (bufs : List Bytes) (room sent : Nat) (s : UvlQueue)
    (past : List QueueEvent) : Prop :=
  WritesAt all n c f bufs s past ∧ s.sndbuf = room ∧ (s.reqs f).sent = sent

theorem triple_tcpWrite_loop {buf : Bytes} {bufs : List Bytes} (short : buf.length < 2 ^ 32)
    {room sent count : Nat} (fits : sent + count ≤ buf.length) (roomy : count ≤ room) :
    Proc.Triple (LoopsAt all n c f (buf :: bufs) room sent) (tcpWrite (slice buf sent count))
      (fun
        | .mem => WritesAt all n c f (buf :: bufs)
        | .ok => fun s past =>
            LoopsAt all n c f (buf :: bufs) (room - count) (sent + count)
              { s with reqs := Function.update s.reqs f ((s.reqs f).took count) } past) := by
  refine triple_tcpWrite ?_ ?_
  · rintro s past ⟨writes, -, -⟩
    exact { writes with inv := writes.inv.environment s.sndbuf _ s.writeReq }
  · rintro s past ⟨writes, rfl, rfl⟩
    have below : (s.reqs f).sent + count < 2 ^ 32 := by omega
    have sent : ((s.reqs f).took count).sent = (s.reqs f).sent + count := Nat.mod_eq_of_lt below
    rw [length_slice]
    exact ⟨writes.took fits roomy _, rfl, by simpa only [Function.update_self] using sent⟩

/-- The loop over one buffer ends behind its last byte unless there is no room left. -/
def LoopEnds (all : Nat → Bytes) (n c f : Nat) (buf : Bytes) (bufs : List Bytes) (mayNext : Bool)
    (s : UvlQueue) (past : List QueueEvent) : Prop :=
  WritesAt all n c f (buf :: bufs) s past ∧
    (mayNext = true → s.sndbuf ≠ 0 → (s.reqs f).sent = buf.length)

theorem triple_writeLoop {buf : Bytes} {bufs : List Bytes} (short : buf.length < 2 ^ 32) (room sent : Nat) :
    Proc.Triple (LoopsAt all n c f (buf :: bufs) room sent) (writeLoop f buf room sent)
      (LoopEnds all n c f buf bufs) := by
  induction room using Nat.strong_induction_on generalizing sent with
  | _ room ih =>
      rw [writeLoop]
      split
      case isTrue full =>
        refine Proc.triple_pure ?_
        rintro s past ⟨writes, rfl, rfl⟩
        have inside := writes.inside
        exact ⟨writes, fun _ roomy => by omega⟩
      case isFalse some =>
        generalize size : min (buf.length - sent) room = count at *
        have fits : sent + count ≤ buf.length := by omega
        refine (triple_tcpWrite_loop short fits (by omega)).bind _ fun answer => ?_
        cases answer with
        | mem => exact Proc.triple_pure fun s past writes => ⟨writes, fun never => by cases never⟩
        | ok =>
            refine Proc.Triple.bind
              (fun _ => LoopsAt all n c f (buf :: bufs) (room - count) (sent + count))
              (Proc.triple_update fun s past counted => counted) fun _ => ?_
            rw [Nat.mod_eq_of_lt (by omega)]
            refine Proc.triple_ite (fun more => ih (room - count) (by omega) _) fun done => ?_
            refine Proc.triple_pure ?_
            rintro s past ⟨writes, -, sent'⟩
            exact ⟨writes, fun _ _ => by omega⟩

/-- Behind its last byte the request goes on to its next buffer. -/
theorem WritesAt.nextBuf {buf : Bytes} {bufs : List Bytes} {s : UvlQueue} {past : List QueueEvent}
    (writes : WritesAt all n c f (buf :: bufs) s past) (atEnd : (s.reqs f).sent = buf.length) :
    StandsAt all n c f bufs
      { s with
        reqs := Function.update s.reqs f
          { s.reqs f with sent := 0, sentBufs := ((s.reqs f).sentBufs + 1) % 2 ^ 32 } }
      past := by
  refine ⟨writes.inv.nextBuf writes.queued writes.unfinished writes.found atEnd, writes.queued, ?_, ?_⟩
  · have unfinished := writes.unfinished
    have wide := writes.sound.wide
    simp only [Function.update_self]
    rw [Nat.mod_eq_of_lt (by omega), ← List.drop_drop, writes.rest]
    rfl
  · simp only [Function.update_self]
    exact writes.stops.update _

/-- Either the buffer stays the current one, or there is room and the next one follows. -/
theorem triple_uvlImpWriteBufToTcp (buf : Bytes) (bufs : List Bytes) :
    Proc.Triple (WritesAt all n c f (buf :: bufs)) (uvlImpWriteBufToTcp f buf)
      (fun advanced s past =>
        QueueInv all n c f s past ∧ (advanced = true → StandsAt all n c f bufs s past ∧ s.sndbuf ≠ 0)) := by
  refine Proc.Triple.of_fact (fun s past writes => writes.short) fun short => ?_
  refine Proc.triple_read_bind fun s => ?_
  have loop : Proc.Triple (fun s' past => s' = s ∧ WritesAt all n c f (buf :: bufs) s' past)
      (writeLoop f buf s.sndbuf (s.reqs f).sent) (LoopEnds all n c f buf bufs) := by
    refine (triple_writeLoop short _ _).strengthen ?_
    rintro s' past ⟨rfl, writes⟩
    exact ⟨writes, rfl, rfl⟩
  refine loop.bind _ fun mayNext => ?_
  refine Proc.triple_ite (fun yes => Proc.triple_read_bind fun client => ?_) fun no => ?_
  · refine Proc.triple_ite (fun full => ?_) fun roomy => ?_
    · refine Proc.triple_pure ?_
      rintro s past ⟨-, writes, -⟩
      exact ⟨writes.inv, fun never => by cases never⟩
    · refine Proc.Triple.bind (fun _ s past => StandsAt all n c f bufs s past ∧ s.sndbuf ≠ 0)
        (Proc.triple_update ?_) fun _ => ?_
      · rintro s past ⟨rfl, writes, atEnd⟩
        exact ⟨writes.nextBuf (atEnd yes roomy), roomy⟩
      · exact Proc.triple_pure fun s past stands => ⟨stands.1.inv, fun _ => stands⟩
  · exact Proc.triple_pure fun s past ends => ⟨ends.1.inv, fun never => by cases never⟩

/-- The loop leaves the request `f`, of which no buffer is left, and there is room. -/
structure LeavesAt (all : Nat → Bytes) (n c f : Nat) (s : UvlQueue) (past : List QueueEvent) : Prop where
  inv : QueueInv all n c f s past
  ended : (s.reqs f).sentBufs = (s.reqs f).sendNbufs
  roomy : s.sndbuf ≠ 0
  stops : StopsInTime s.reqs s.sndbuf (List.range' (f + 1) (n - (f + 1)))

theorem StandsAt.leaves {bufs : List Bytes} {s : UvlQueue} {past : List QueueEvent}
    (stands : StandsAt all n c f bufs s past) (ended : (s.reqs f).sentBufs = (s.reqs f).sendNbufs)
    (roomy : s.sndbuf ≠ 0) : LeavesAt all n c f s past := by
  have left : (s.reqs f).left = 0 := by
    rw [UvlWrite.left, stands.sound.totalLen_eq, stands.sound.finished ended, Nat.sub_self]
  have stops := stands.stops
  rw [left, Nat.sub_zero] at stops
  exact ⟨stands.inv, ended, roomy, stops⟩

theorem triple_writeRequest (bufs : List Bytes) :
    Proc.Triple (WritesAt all n c f bufs) (writeRequest f bufs)
      (fun goesOn s past => QueueInv all n c f s past ∧ (goesOn = true → LeavesAt all n c f s past)) := by
  induction bufs with
  | nil =>
      intro s past writes
      have within := writes.sound.within
      have unfinished := writes.unfinished
      have none := List.drop_eq_nil_iff.mp writes.rest
      omega
  | cons buf bufs ih =>
      refine (triple_uvlImpWriteBufToTcp buf bufs).bind _ fun advanced => ?_
      refine Proc.triple_ite (fun yes => Proc.triple_read_bind fun client => ?_) fun no => ?_
      · refine Proc.triple_ite (fun ended => ?_) fun more => ?_
        · refine Proc.triple_pure ?_
          rintro s past ⟨rfl, inv, stands⟩
          exact ⟨inv, fun _ => (stands yes).1.leaves ended (stands yes).2⟩
        · refine ih.strengthen ?_
          rintro s past ⟨rfl, inv, stands⟩
          exact ⟨(stands yes).1, Nat.lt_of_le_of_ne (stands yes).1.sound.sentBufs_le more⟩
      · exact Proc.triple_pure fun s past pre => ⟨pre.1, fun never => by cases never⟩

/-- The request behind it has its first buffer to write. -/
theorem LeavesAt.next_unfinished {s : UvlQueue} {past : List QueueEvent}
    (leaves : LeavesAt all n c f s past) (below : f + 1 < n) :
    (s.reqs (f + 1)).sentBufs < (s.reqs (f + 1)).sendNbufs := by
  obtain ⟨more, rest⟩ : ∃ more, n - (f + 1) = more + 1 := ⟨n - (f + 1) - 1, by omega⟩
  have stops := leaves.stops
  rw [rest, List.range'_succ] at stops
  rw [(leaves.inv.shape.untouched (f + 1) (Nat.lt_succ_self f) (leaves.inv.count ▸ below)).1]
  exact Nat.pos_of_ne_zero fun none => leaves.roomy (stops.1 none)

theorem triple_writeRequests (count : Nat) (total : f + count = n) :
    Proc.Triple
      (fun s past =>
        QueueInv all n c f s past ∧ (f < n → (s.reqs f).sentBufs < (s.reqs f).sendNbufs) ∧
          StopsInTime s.reqs s.sndbuf (List.range' f count))
      (writeRequests (List.range' f count))
      (fun _ s past => ∃ f', QueueInv all n c f' s past) := by
  induction count generalizing f with
  | zero => exact Proc.triple_pure fun s past pre => ⟨f, pre.1⟩
  | succ count ih =>
      have queued : f < n := by omega
      obtain rfl : count = n - (f + 1) := by omega
      rw [List.range'_succ]
      refine Proc.triple_read_bind fun client => ?_
      have request := @triple_writeRequest all n c f
        ((client.reqs f).sendBufs.drop (client.reqs f).sentBufs)
      refine (request.strengthen ?_).bind _ fun goesOn => ?_
      · rintro s past ⟨rfl, inv, unfinished, stops⟩
        exact ⟨⟨inv, queued, rfl, stops.2⟩, unfinished queued⟩
      · refine Proc.triple_ite (fun yes => ?_) fun no => ?_
        · refine (ih (by omega)).strengthen ?_
          rintro s past ⟨inv, goesOn⟩
          have leaves := goesOn yes
          exact ⟨inv.advance queued leaves.ended, leaves.next_unfinished, leaves.stops⟩
        · exact Proc.triple_pure fun s past pre => ⟨f, pre.1⟩

/-- The frontier can move up to the first request with a buffer left. -/
theorem QueueInv.exists_unfinished {s : UvlQueue} {past : List QueueEvent} (inv : QueueInv all n c f s past) :
    ∃ f', QueueInv all n c f' s past ∧ (f' < n → (s.reqs f').sentBufs < (s.reqs f').sendNbufs) := by
  induction gap : n - f generalizing f with
  | zero => exact ⟨f, inv, fun queued => by omega⟩
  | succ more ih =>
      have queued : f < n := by omega
      have sound := inv.shape.sound f (inv.count ▸ queued)
      rcases Nat.lt_or_eq_of_le sound.sentBufs_le with unfinished | ended
      · exact ⟨f, inv, fun _ => unfinished⟩
      · exact ih (inv.advance queued ended) (by omega)

/-- The first loop finds this request. -/
theorem QueueInv.skip {s : UvlQueue} {past : List QueueEvent} (inv : QueueInv all n c f s past) :
    ∃ f', QueueInv all n c f' s past ∧ f' ≤ n ∧
      (f' < n → (s.reqs f').sentBufs < (s.reqs f').sendNbufs) ∧
      unwritten s.reqs s.queue = List.range' f' (n - f') := by
  obtain ⟨f', inv, unfinished⟩ := inv.exists_unfinished
  have high : f' ≤ n := inv.count ▸ inv.shape.frontier_le
  refine ⟨f', inv, high, unfinished, ?_⟩
  rw [unwritten, inv.shape.linked.queue_eq, inv.count]
  refine dropWhile_range' inv.shape.completed_le high ?_ ?_
  · intro i low early
    simp [inv.shape.finished i low early]
  · intro queued
    simp [unfinished queued]

theorem triple_uvlImpWriteToTcp :
    Proc.Triple
      (fun s past => (∃ f, QueueInv all n c f s past) ∧ StopsInTime s.reqs s.sndbuf (unwritten s.reqs s.queue))
      uvlImpWriteToTcp (fun _ s past => ∃ f, QueueInv all n c f s past) := by
  refine Proc.triple_read_bind fun client => ?_
  change Proc.Triple _ (writeRequests (unwritten client.reqs client.queue) >>= _) _
  refine Proc.Triple.bind (fun _ s past => ∃ f, QueueInv all n c f s past) ?_ fun _ => ?_
  · rintro s past ⟨rfl, ⟨f, inv⟩, stops⟩
    obtain ⟨f', inv', high, unfinished, rest⟩ := inv.skip
    rw [rest] at stops ⊢
    exact triple_writeRequests (n - f') (by omega) s past ⟨inv', unfinished, stops⟩
  · refine Proc.triple_emit ?_
    rintro s past ⟨f, inv⟩
    refine ⟨f, inv.count, inv.shape, ⟨?_, inv.ledger.outstanding, ?_⟩, inv.trace.snoc trivial⟩
    · simpa [writtenBytes] using inv.ledger.stream
    · simpa [writtenBytes, ackedBytes] using inv.ledger.balance

end Writing

/-! ## Reporting -/

section Reporting

variable {all : Nat → Bytes} {n c f : Nat} {s : UvlQueue} {past : List QueueEvent}

/-- The bytes taken so far, counted by the requests. -/
theorem QueueInv.balance_sum (inv : QueueInv all n c f s past) :
    ackedBytes past + ∑ i ∈ range n, (s.reqs i).pending = ∑ i ∈ range n, (s.reqs i).totalSent := by
  obtain ⟨rfl, shape, ledger, -⟩ := inv
  have taken : (writtenBytes past).length = ∑ i ∈ range s.submitted, (s.reqs i).totalSent := by
    rw [ledger.stream, length_flatMap_range]
    refine sum_congr rfl fun i member => ?_
    have below := mem_range.mp member
    rw [← shape.content i below, List.length_take, Nat.min_eq_left (shape.sound i below).totalSent_le]
  rw [← ledger.outstanding, Nat.add_zero, ← taken, ledger.balance]

/-- A request that is fully sent and has nothing pending was acknowledged with all before it. -/
theorem QueueInv.acked (inv : QueueInv all n c f s past) (queued : c < n)
    (sent : (s.reqs c).totalSent = (all c).length) (settled : (s.reqs c).pending = 0) :
    ∑ i ∈ range (c + 1), (all i).length ≤ ackedBytes past := by
  have balance := inv.balance_sum
  obtain ⟨rfl, shape, -, -⟩ := inv
  have front : ∀ i ∈ range (c + 1),
      (s.reqs i).totalSent = (all i).length ∧ (s.reqs i).pending = 0 := by
    intro i member
    rcases Nat.lt_or_eq_of_le (Nat.le_of_lt_succ (mem_range.mp member)) with before | rfl
    · exact shape.reported i before
    · exact ⟨sent, settled⟩
  have total := sum_congr rfl fun i member => (front i member).1
  have pending := sum_eq_zero fun i member => (front i member).2
  have split : c + 1 ≤ s.submitted := queued
  have later : ∑ i ∈ Ico (c + 1) s.submitted, (s.reqs i).pending ≤
      ∑ i ∈ Ico (c + 1) s.submitted, (s.reqs i).totalSent :=
    sum_le_sum fun i member => (shape.sound i (mem_Ico.mp member).2).pending_le
  rw [← sum_range_add_sum_Ico _ split, ← sum_range_add_sum_Ico _ split, total, pending] at balance
  omega

theorem QueueShape.report (shape : QueueShape all c f s) (queued : c < s.submitted)
    (sent : (s.reqs c).totalSent = (all c).length) (settled : (s.reqs c).pending = 0) :
    QueueShape all (c + 1) (max f (c + 1)) { s with curWrite := (s.reqs c).next } where
  completed_le := Nat.le_max_right f (c + 1)
  frontier_le := Nat.max_le.mpr ⟨shape.frontier_le, queued⟩
  head := (shape.linked.advance queued).head
  link := (shape.linked.advance queued).link
  tail := (shape.linked.advance queued).tail
  sound := shape.sound
  content := shape.content
  reported := by
    intro i early
    rcases Nat.lt_or_eq_of_le (Nat.le_of_lt_succ early) with before | rfl
    · exact shape.reported i before
    · exact ⟨sent, settled⟩
  finished := fun i low early => shape.finished i (Nat.le_of_succ_le low) (by omega)
  untouched := fun i above => shape.untouched i (by omega)

/-- The first request of the queue is reported. -/
theorem QueueInv.report (inv : QueueInv all n c f s past) (queued : c < n)
    (sent : (s.reqs c).totalSent = (s.reqs c).totalLen) (settled : (s.reqs c).pending = 0) :
    QueueInv all n (c + 1) (max f (c + 1)) { s with curWrite := (s.reqs c).next }
      (past ++ [.writeCb c]) := by
  have length : (s.reqs c).totalSent = (all c).length := by
    have below := inv.count ▸ queued
    rw [sent, (inv.shape.sound c below).totalLen_eq, inv.shape.content c below]
  have acked := inv.acked queued length settled
  obtain ⟨rfl, shape, ledger, trace⟩ := inv
  refine ⟨rfl, shape.report queued length settled, ⟨?_, ledger.outstanding, ?_⟩,
    ⟨?_, trace.ackedFirst.snoc acked, ?_⟩⟩
  · simpa [writtenBytes] using ledger.stream
  · simpa [writtenBytes, ackedBytes] using ledger.balance
  · rw [completions_append, trace.order, List.range_succ]
    rfl
  · rw [List.forall_mem_append, List.forall_mem_singleton]
    exact ⟨trace.faultless, id⟩

/-- The queue from the request `c` on, with these requests and this room. -/
def Reports (all : Nat → Bytes) (n : Nat) (reqs : Nat → UvlWrite) (room c : Nat) (s : UvlQueue)
    (past : List QueueEvent) : Prop :=
  (∃ f, QueueInv all n c f s past) ∧ s.reqs = reqs ∧ s.sndbuf = room

theorem Reports.queue_eq {reqs : Nat → UvlWrite} {room : Nat} (reports : Reports all n reqs room c s past) :
    s.queue = List.range' c (n - c) := by
  obtain ⟨⟨f, inv⟩, -, -⟩ := reports
  rw [inv.shape.linked.queue_eq, inv.count]

theorem triple_completeRequests {reqs : Nat → UvlWrite} {room : Nat} (count : Nat) (total : c + count = n) :
    Proc.Triple (Reports all n reqs room c) (completeRequests (List.range' c count))
      (fun _ s past => (∃ c', Reports all n reqs room c' s past) ∧
        s.queue = unreported reqs (List.range' c count)) := by
  induction count generalizing c with
  | zero =>
      obtain rfl : c = n := by omega
      refine Proc.triple_pure fun s past reports => ⟨⟨c, reports⟩, ?_⟩
      rw [reports.queue_eq, Nat.sub_self]
      rfl
  | succ count ih =>
      rw [List.range'_succ]
      refine Proc.triple_read_bind fun client => Proc.triple_ite (fun done => ?_) fun waits => ?_
      · -- the callback runs after cur_write moved on
        refine Proc.Triple.of_fact (fun s past pre => (pre.1 ▸ pre.2.2.1 : client.reqs = reqs)) fun same => ?_
        refine Proc.Triple.bind
          (fun _ s past => Reports all n reqs room (c + 1) s (past ++ [.writeCb c]))
          (Proc.triple_update ?_) fun _ => ?_
        · rintro s past ⟨rfl, ⟨f, inv⟩, kept⟩
          exact ⟨⟨max f (c + 1), inv.report (by omega) done.1 done.2⟩, kept⟩
        · refine Proc.Triple.bind (fun _ => Reports all n reqs room (c + 1))
            (Proc.triple_emit fun s past pre => pre) fun _ => ?_
          subst same
          have skipped : unreported client.reqs (c :: List.range' (c + 1) count) =
              unreported client.reqs (List.range' (c + 1) count) :=
            List.dropWhile_cons_of_pos (decide_eq_true done)
          rw [skipped]
          exact ih (by omega)
      · refine Proc.triple_pure ?_
        rintro s past ⟨rfl, reports⟩
        refine ⟨⟨c, reports⟩, ?_⟩
        rw [reports.queue_eq, ← reports.2.1, unreported, List.dropWhile_cons_of_neg (by simpa using waits),
          ← List.range'_succ]
        congr 1
        omega

/-- The queue between two callbacks: without a request, `tail_write` is null. -/
def QueueRests (all : Nat → Bytes) (n : Nat) (s : UvlQueue) (past : List QueueEvent) : Prop :=
  ∃ c f, QueueInv all n c f s past ∧ (c = n → s.tailWrite = none)

theorem triple_uvlAsyncTcpWriteCb :
    Proc.Triple (fun s past => QueueRests all n s past ∧ s.Clear) uvlAsyncTcpWriteCb
      (fun _ => QueueRests all n) := by
  refine Proc.triple_read_bind fun client => ?_
  refine Proc.Triple.bind
    (fun _ s past => (∃ c f, QueueInv all n c f s past) ∧
      StopsInTime s.reqs s.sndbuf (unwritten s.reqs s.queue)) ?_ fun _ => ?_
  · rintro s past ⟨rfl, ⟨c, f, inv, -⟩, clear⟩
    have bound : c ≤ n := inv.count ▸ inv.shape.linked.bound
    rw [UvlQueue.Clear, inv.shape.linked.queue_eq, inv.count] at clear
    rw [inv.shape.linked.queue_eq, inv.count]
    obtain ⟨⟨c', ⟨f', inv'⟩, reqs, room⟩, queue⟩ :=
      triple_completeRequests (n - c) (by omega) s past ⟨⟨f, inv⟩, rfl, rfl⟩
    rw [reqs, room, queue]
    exact ⟨⟨c', f', inv'⟩, clear⟩
  · refine Proc.triple_read_bind fun client => ?_
    cases cur : client.curWrite with
    | none =>
        refine Proc.triple_update ?_
        rintro s past ⟨rfl, ⟨c, f, inv⟩, -⟩
        obtain ⟨rfl, shape, ledger, trace⟩ := inv
        have empty : ¬ c < s.submitted := by
          intro queued
          rw [shape.head, if_pos queued] at cur
          cases cur
        refine ⟨c, f, ⟨rfl, { shape with tail := fun queued => absurd queued empty }, { ledger with }, trace⟩,
          fun _ => rfl⟩
    | some req =>
        rintro s past ⟨rfl, ⟨c, f, inv⟩, stops⟩
        have queued : c ≠ n := by
          rintro rfl
          rw [inv.shape.head, inv.count, if_neg (Nat.lt_irrefl c)] at cur
          cases cur
        obtain ⟨f', inv'⟩ := triple_uvlImpWriteToTcp s past ⟨⟨f, inv⟩, stops⟩
        exact ⟨c, f', inv', fun empty => absurd empty queued⟩

end Reporting

/-! ## Acknowledging -/

section Acknowledging

variable {all : Nat → Bytes} {n c f : Nat}

/-- The loop of `uvl_client_sent_func` stands at the request `j`, with `owed`
bytes to go. -/
structure Deducts (all : Nat → Bytes) (n c f j owed : Nat) (s : UvlQueue) (past : List QueueEvent) :
    Prop where
  count : s.submitted = n
  shape : QueueShape all c f s
  ledger : QueueLedger all owed s past
  trace : QueueTrace all c past
  low : c ≤ j
  settled : 0 < owed → ∀ i < j, (s.reqs i).pending = 0
  empty : c = n → s.tailWrite = none

theorem Deducts.done {j : Nat} {s : UvlQueue} {past : List QueueEvent}
    (deducts : Deducts all n c f j 0 s past) : QueueRests all n s past :=
  ⟨c, f, ⟨deducts.count, deducts.shape, deducts.ledger, deducts.trace⟩, deducts.empty⟩

/-- One round of the loop. -/
theorem Deducts.next {j owed : Nat} {s : UvlQueue} {past : List QueueEvent}
    (deducts : Deducts all n c f j owed s past) (queued : j < n) :
    Deducts all n c f (j + 1) (owed - min (s.reqs j).pending owed)
      { s with
        reqs := Function.update s.reqs j
          { s.reqs j with pending := (s.reqs j).pending - min (s.reqs j).pending owed } }
      past := by
  obtain ⟨rfl, shape, ledger, trace, low, settled, empty⟩ := deducts
  generalize size : min (s.reqs j).pending owed = count
  have sound : { s.reqs j with pending := (s.reqs j).pending - count }.Sound :=
    { shape.sound j queued with
      pending_le := Nat.le_trans (Nat.sub_le _ _) (shape.sound j queued).pending_le }
  have others : ∀ i, i ≠ j → Function.update s.reqs j
      { s.reqs j with pending := (s.reqs j).pending - count } i = s.reqs i :=
    fun i away => Function.update_of_ne away _ _
  refine ⟨rfl, shape.change low sound rfl rfl rfl (.inr ⟨rfl, rfl⟩) rfl rfl rfl rfl,
    ⟨?_, ?_, ledger.balance⟩, trace, Nat.le_succ_of_le low, ?_, empty⟩
  · rw [ledger.stream]
    exact flatMap_range_congr fun i _ => congrArg (all i).take (field_update UvlWrite.totalSent (by rfl) i).symm
  · have change := sum_range_change queued fun i away => congrArg UvlWrite.pending (others i away)
    have outstanding := ledger.outstanding
    simp only [Function.update_self] at change
    simp only
    omega
  · intro more i early
    rcases Nat.lt_or_eq_of_le (Nat.le_of_lt_succ early) with before | rfl
    · simp only [others i (Nat.ne_of_lt before)]
      exact settled (by omega) i before
    · simp only [Function.update_self]
      omega

/-- Only bytes that are pending are acknowledged, so the loop ends inside the queue. -/
theorem triple_consume (count j owed : Nat) (total : j + count = n) :
    Proc.Triple (Deducts all n c f j owed) (consume (List.range' j count) owed)
      (fun _ => QueueRests all n) := by
  induction count generalizing j owed with
  | zero =>
      refine Proc.triple_ite (fun none => ?_) fun more => ?_
      · subst none
        exact Proc.triple_pure fun s past deducts => deducts.done
      · intro s past deducts
        have settled := sum_eq_zero fun i member =>
          deducts.settled (Nat.pos_of_ne_zero more) i (mem_range.mp member)
        have outstanding := deducts.ledger.outstanding
        rw [deducts.count, ← total, Nat.add_zero, settled] at outstanding
        omega
  | succ count ih =>
      rw [List.range'_succ]
      refine Proc.triple_ite (fun none => ?_) fun more => ?_
      · subst none
        exact Proc.triple_pure fun s past deducts => deducts.done
      · refine Proc.triple_read_bind fun client => ?_
        refine Proc.Triple.bind
          (fun _ => Deducts all n c f (j + 1) (owed - min (client.reqs j).pending owed))
          (Proc.triple_update ?_) fun _ => ih _ _ (by omega)
        rintro s past ⟨rfl, deducts⟩
        exact deducts.next (by omega)

theorem QueueRests.environment {s : UvlQueue} {past : List QueueEvent} (rests : QueueRests all n s past)
    (sndbuf : Nat) (writeReq : Bool) :
    QueueRests all n { s with sndbuf := sndbuf, writeReq := writeReq } past := by
  obtain ⟨c, f, inv, empty⟩ := rests
  exact ⟨c, f, inv.environment sndbuf s.results writeReq, empty⟩

theorem QueueRests.clear_environment {s : UvlQueue} {past : List QueueEvent} (rests : QueueRests all n s past)
    (clear : s.Clear) (writeReq : Bool) : UvlQueue.Clear { s with writeReq := writeReq } := by
  obtain ⟨c, f, inv, -⟩ := rests
  have queue := (inv.environment s.sndbuf s.results writeReq).shape.linked.queue_eq
  rw [UvlQueue.Clear, inv.shape.linked.queue_eq] at clear
  rw [UvlQueue.Clear, queue]
  exact clear

/-- lwIP acknowledges `len` of the bytes it took. -/
theorem QueueRests.acked {s : UvlQueue} {past : List QueueEvent} (rests : QueueRests all n s past)
    {len : Nat} (taken : len ≤ s.unacked) :
    ∃ c f, Deducts all n c f c len { s with unacked := s.unacked - len } (past ++ [.acked len]) := by
  obtain ⟨c, f, ⟨count, shape, ledger, trace⟩, empty⟩ := rests
  refine ⟨c, f, count, { shape with }, ⟨?_, ?_, ?_⟩, trace.snoc trivial, le_rfl, ?_, empty⟩
  · simpa [writtenBytes] using ledger.stream
  · have outstanding := ledger.outstanding
    simp only
    omega
  · have balance := ledger.balance
    have more : ackedBytes [.acked len] = len := Nat.add_zero len
    have none : writtenBytes [.acked len] = [] := rfl
    rw [ackedBytes_append, writtenBytes_append, more, none, List.append_nil]
    simp only
    omega
  · exact fun _ i early => (shape.reported i early).2

theorem triple_uvlClientSentFunc (len : Nat) :
    Proc.Triple (fun s past => ∃ c f, Deducts all n c f c len s (past ++ [.acked len]))
      (uvlClientSentFunc len) (fun _ => QueueRests all n) := by
  refine Proc.Triple.bind (fun _ s past => ∃ c f, Deducts all n c f c len s past)
    (Proc.triple_emit fun s past pre => pre) fun _ => Proc.triple_read_bind fun client => ?_
  refine Proc.Triple.bind (fun _ => QueueRests all n) ?_ fun _ => Proc.triple_update ?_
  · rintro s past ⟨rfl, c, f, deducts⟩
    have bound : c ≤ n := deducts.count ▸ deducts.shape.linked.bound
    rw [deducts.shape.linked.queue_eq, deducts.count]
    exact triple_consume (n - c) c len (by omega) s past deducts
  · exact fun s past rests => rests.environment s.sndbuf true

end Acknowledging

end SwitchLanPlay.UvLwip
