import SwitchLanPlay.Library.Hoare
import SwitchLanPlay.Library.Streams
import SwitchLanPlay.UvLwip.Links

/-!
# The state of the write queue

What the counters of a request say about its position, what the queue looks like
when a number of requests is reported and a number of them is written, and what
the counters say about the trace.  The sections below show what each single
change of the queue does to this.
-/

namespace SwitchLanPlay.UvLwip

open Library Finset

/-! ## One request -/

namespace UvlWrite

/-- The bytes a request asks to be written. -/
def content (req : UvlWrite) : Bytes := (req.sendBufs.take req.sendNbufs).flatten

/-- The counters of a request describe a position in its buffers. -/
structure Sound (req : UvlWrite) : Prop where
  within : req.sendNbufs ≤ req.sendBufs.length
  wide : req.sendNbufs < 2 ^ 32
  short : req.content.length < 2 ^ 32
  totalLen_eq : req.totalLen = req.content.length
  sentBufs_le : req.sentBufs ≤ req.sendNbufs
  position : req.totalSent = (req.sendBufs.take req.sentBufs).flatten.length + req.sent
  inside : ∀ buf, req.sendBufs[req.sentBufs]? = some buf → req.sent ≤ buf.length
  ended : req.sentBufs = req.sendNbufs → req.sent = 0
  pending_le : req.pending ≤ req.totalSent

namespace Sound

variable {req : UvlWrite}

theorem current (sound : req.Sound) (unfinished : req.sentBufs < req.sendNbufs) :
    ∃ buf, req.sendBufs[req.sentBufs]? = some buf :=
  ⟨_, List.getElem?_eq_getElem (Nat.lt_of_lt_of_le unfinished sound.within)⟩

theorem finished (sound : req.Sound) (done : req.sentBufs = req.sendNbufs) :
    req.totalSent = req.content.length := by
  rw [sound.position, sound.ended done, done, Nat.add_zero, content]

theorem totalSent_le_of_current (sound : req.Sound) (unfinished : req.sentBufs < req.sendNbufs)
    {buf : Bytes} (found : req.sendBufs[req.sentBufs]? = some buf) :
    req.totalSent + (buf.length - req.sent) ≤ req.content.length := by
  have fits := length_flatten_take_lt found unfinished
  have inside := sound.inside buf found
  rw [sound.position, content]
  omega

theorem totalSent_le (sound : req.Sound) : req.totalSent ≤ req.content.length := by
  rcases Nat.lt_or_eq_of_le sound.sentBufs_le with unfinished | done
  · obtain ⟨buf, found⟩ := sound.current unfinished
    have bound := sound.totalSent_le_of_current unfinished found
    omega
  · exact Nat.le_of_eq (sound.finished done)

section Took

variable {buf : Bytes} {count : Nat} (sound : req.Sound) (unfinished : req.sentBufs < req.sendNbufs)
  (found : req.sendBufs[req.sentBufs]? = some buf) (fits : req.sent + count ≤ buf.length)

include sound unfinished found fits

/-- The counters do not wrap. -/
theorem took_eq :
    req.took count =
      { req with
        sent := req.sent + count
        pending := req.pending + count
        totalSent := req.totalSent + count } := by
  have bound := sound.totalSent_le_of_current unfinished found
  have short := sound.short
  have pending := sound.pending_le
  have position := sound.position
  rw [took, Nat.mod_eq_of_lt (by omega), Nat.mod_eq_of_lt (by omega), Nat.mod_eq_of_lt (by omega)]

theorem sound_took : (req.took count).Sound := by
  rw [sound.took_eq unfinished found fits]
  refine { sound with position := ?_, inside := ?_, ended := ?_, pending_le := ?_ }
  · simp only [sound.position]
    omega
  · intro here same
    obtain rfl : buf = here := Option.some.inj (found.symm.trans same)
    exact fits
  · intro done
    exact absurd done (Nat.ne_of_lt unfinished)
  · exact Nat.add_le_add_right sound.pending_le count

theorem take_took :
    req.content.take (req.totalSent + count) =
      req.content.take req.totalSent ++ slice buf req.sent count := by
  rw [content, sound.position]
  exact take_flatten_extend found unfinished fits

end Took

/-- `req->sent = 0; req->sent_bufs++` behind the last byte of a buffer. -/
theorem nextBuf {buf : Bytes} (sound : req.Sound) (unfinished : req.sentBufs < req.sendNbufs)
    (found : req.sendBufs[req.sentBufs]? = some buf) (atEnd : req.sent = buf.length) :
    { req with sent := 0, sentBufs := req.sentBufs + 1 }.Sound := by
  refine { sound with sentBufs_le := unfinished, position := ?_, inside := ?_, ended := fun _ => rfl }
  · have whole : (req.sendBufs.take (req.sentBufs + 1)).flatten =
        (req.sendBufs.take req.sentBufs).flatten ++ buf := by
      rw [List.take_add_one, found, List.flatten_append]
      simp
    simp only [sound.position, whole, List.length_append, atEnd, Nat.add_zero]
  · exact fun _ _ => Nat.zero_le _

end Sound

end UvlWrite

/-! ## The trace -/

/-- The bytes that `tcp_write` took, in order. -/
def writtenBytes (events : List QueueEvent) : Bytes :=
  events.flatMap fun
    | .tcpWrite bytes => bytes
    | _ => []

/-- How many bytes were acknowledged. -/
def ackedBytes (events : List QueueEvent) : Nat :=
  (events.map fun
    | .acked len => len
    | _ => 0).sum

/-- The requests that `write_cb` was called for, in order. -/
def completions (events : List QueueEvent) : List Nat :=
  events.filterMap fun
    | .writeCb req => some req
    | _ => none

/-- A pointer leaves the array or the list it walks through. -/
def QueueEvent.Fault : QueueEvent → Prop
  | .outsideArray _ => True
  | .nullRequest => True
  | _ => False

@[simp] theorem writtenBytes_append (first second : List QueueEvent) :
    writtenBytes (first ++ second) = writtenBytes first ++ writtenBytes second :=
  List.flatMap_append

@[simp] theorem ackedBytes_append (first second : List QueueEvent) :
    ackedBytes (first ++ second) = ackedBytes first + ackedBytes second := by
  simp [ackedBytes]

@[simp] theorem completions_append (first second : List QueueEvent) :
    completions (first ++ second) = completions first ++ completions second :=
  List.filterMap_append

@[simp] theorem writtenBytes_tcpWrite (bytes : Bytes) : writtenBytes [.tcpWrite bytes] = bytes :=
  List.append_nil bytes

/-- An event that neither reports a request nor is a fault. -/
def QueueEvent.Plain : QueueEvent → Prop
  | .tcpWrite _ => True
  | .tcpOutput => True
  | .acked _ => True
  | _ => False

/-! ## The queue -/

/-- When `write_cb` is called for a request, the bytes of all requests up to it
have been acknowledged. -/
def AckedFirst (all : Nat → Bytes) (before : List QueueEvent) : QueueEvent → Prop
  | .writeCb req => ∑ i ∈ range (req + 1), (all i).length ≤ ackedBytes before
  | _ => True

/-- The queue when the first `c` requests are reported and the first `f` have no
buffer left.  Request number `i` is for the bytes `all i`. -/
structure QueueShape (all : Nat → Bytes) (c f : Nat) (s : UvlQueue) : Prop where
  completed_le : c ≤ f
  frontier_le : f ≤ s.submitted
  head : s.curWrite = if c < s.submitted then some c else none
  link : ∀ i, c ≤ i → i < s.submitted →
    (s.reqs i).next = if i + 1 < s.submitted then some (i + 1) else none
  tail : c < s.submitted → s.tailWrite = some (s.submitted - 1)
  sound : ∀ i < s.submitted, (s.reqs i).Sound
  content : ∀ i < s.submitted, (s.reqs i).content = all i
  reported : ∀ i < c, (s.reqs i).totalSent = (all i).length ∧ (s.reqs i).pending = 0
  finished : ∀ i, c ≤ i → i < f → (s.reqs i).sentBufs = (s.reqs i).sendNbufs
  untouched : ∀ i, f < i → i < s.submitted → (s.reqs i).sentBufs = 0 ∧ (s.reqs i).totalSent = 0

/-- What the counters of the queue say about the trace, while `owed` bytes are
acknowledged and not yet subtracted from the `pending` counters. -/
structure QueueLedger (all : Nat → Bytes) (owed : Nat) (s : UvlQueue) (past : List QueueEvent) : Prop where
  stream : writtenBytes past =
    (List.range s.submitted).flatMap fun i => (all i).take (s.reqs i).totalSent
  outstanding : s.unacked + owed = ∑ i ∈ range s.submitted, (s.reqs i).pending
  balance : ackedBytes past + s.unacked = (writtenBytes past).length

/-- What happened while the first `c` requests were reported. -/
structure QueueTrace (all : Nat → Bytes) (c : Nat) (past : List QueueEvent) : Prop where
  order : completions past = List.range c
  ackedFirst : Throughout (AckedFirst all) past
  faultless : ∀ event ∈ past, ¬ event.Fault

/-- All of this, with `n` requests submitted. -/
structure QueueInv (all : Nat → Bytes) (n c f : Nat) (s : UvlQueue) (past : List QueueEvent) : Prop where
  count : s.submitted = n
  shape : QueueShape all c f s
  ledger : QueueLedger all 0 s past
  trace : QueueTrace all c past

section Steps

variable {all : Nat → Bytes} {n c f : Nat} {s s' : UvlQueue} {past : List QueueEvent}

theorem QueueShape.linked (shape : QueueShape all c f s) : Linked c s where
  bound := Nat.le_trans shape.completed_le shape.frontier_le
  head := shape.head
  link := shape.link
  tail := shape.tail

theorem QueueTrace.snoc (trace : QueueTrace all c past) {event : QueueEvent} (plain : event.Plain) :
    QueueTrace all c (past ++ [event]) := by
  obtain ⟨order, ackedFirst, faultless⟩ := trace
  refine ⟨?_, ackedFirst.snoc ?_, ?_⟩
  · rw [completions_append, order]
    cases event <;> first | exact List.append_nil _ | cases plain
  · cases event <;> trivial
  · rw [List.forall_mem_append, List.forall_mem_singleton]
    refine ⟨faultless, ?_⟩
    cases event <;> first | exact id | cases plain

/-- A queued request changes: it stays in its place, with the same buffers, and
only at the frontier it moves on in them. -/
theorem QueueShape.change (shape : QueueShape all c f s) {j : Nat} (low : c ≤ j) {req : UvlWrite}
    (sound : req.Sound) (next : req.next = (s.reqs j).next)
    (bufs : req.sendBufs = (s.reqs j).sendBufs) (nbufs : req.sendNbufs = (s.reqs j).sendNbufs)
    (place : j = f ∨ req.sentBufs = (s.reqs j).sentBufs ∧ req.totalSent = (s.reqs j).totalSent)
    (reqs : s'.reqs = Function.update s.reqs j req) (count : s'.submitted = s.submitted)
    (cur : s'.curWrite = s.curWrite) (tail : s'.tailWrite = s.tailWrite) :
    QueueShape all c f s' := by
  have others : ∀ i, i ≠ j → s'.reqs i = s.reqs i := by
    intro i away
    rw [reqs, Function.update_of_ne away]
  have changed : s'.reqs j = req := by
    rw [reqs, Function.update_self]
  have kept : ∀ {β : Type} (field : UvlWrite → β), field req = field (s.reqs j) →
      ∀ i, field (s'.reqs i) = field (s.reqs i) := by
    intro β field same i
    rw [reqs]
    exact field_update field same i
  have still : ∀ i, i ≠ f →
      (s'.reqs i).sentBufs = (s.reqs i).sentBufs ∧ (s'.reqs i).totalSent = (s.reqs i).totalSent := by
    intro i away
    rcases place with rfl | ⟨sentBufs, totalSent⟩
    · rw [others i away]
      exact ⟨rfl, rfl⟩
    · exact ⟨kept UvlWrite.sentBufs sentBufs i, kept UvlWrite.totalSent totalSent i⟩
  have completed := shape.completed_le
  constructor
  case completed_le => exact completed
  case frontier_le => exact count ▸ shape.frontier_le
  case head => rw [cur, count, shape.head]
  case link =>
    intro i low below
    rw [kept UvlWrite.next next, count]
    exact shape.link i low (count ▸ below)
  case tail =>
    rw [tail, count]
    exact shape.tail
  case sound =>
    intro i below
    rcases eq_or_ne i j with rfl | away
    · rwa [changed]
    · rw [others i away]
      exact shape.sound i (count ▸ below)
  case content =>
    intro i below
    rw [kept UvlWrite.content (by rw [UvlWrite.content, bufs, nbufs, UvlWrite.content])]
    exact shape.content i (count ▸ below)
  case reported =>
    intro i early
    rw [others i (by omega)]
    exact shape.reported i early
  case finished =>
    intro i low early
    rw [(still i (Nat.ne_of_lt early)).1, kept UvlWrite.sendNbufs nbufs]
    exact shape.finished i low early
  case untouched =>
    intro i above below
    rw [(still i (Nat.ne_of_gt above)).1, (still i (Nat.ne_of_gt above)).2]
    exact shape.untouched i above (count ▸ below)

/-- Bytes of the request at the frontier are taken. -/
theorem QueueInv.took (inv : QueueInv all n c f s past) (queued : f < n) {buf : Bytes} {count : Nat}
    (unfinished : (s.reqs f).sentBufs < (s.reqs f).sendNbufs)
    (found : (s.reqs f).sendBufs[(s.reqs f).sentBufs]? = some buf)
    (fits : (s.reqs f).sent + count ≤ buf.length) (sndbuf : Nat) (results : Nat → TcpErr) :
    QueueInv all n c f
      { s with
        reqs := Function.update s.reqs f ((s.reqs f).took count)
        sndbuf := sndbuf
        unacked := s.unacked + count
        results := results }
      (past ++ [.tcpWrite (slice buf (s.reqs f).sent count)]) := by
  obtain ⟨rfl, shape, ledger, trace⟩ := inv
  have sound := shape.sound f queued
  have took := sound.took_eq unfinished found fits
  refine ⟨rfl, shape.change shape.completed_le (sound.sound_took unfinished found fits) rfl rfl rfl
    (.inl rfl) rfl rfl rfl rfl, ?_, trace.snoc trivial⟩
  have others : ∀ i, i ≠ f → Function.update s.reqs f ((s.reqs f).took count) i = s.reqs i :=
    fun i away => Function.update_of_ne away _ _
  constructor
  case stream =>
    rw [writtenBytes_append, writtenBytes_tcpWrite, ledger.stream]
    refine (flatMap_range_extend queued ?_ ?_ ?_).symm
    · intro i early
      simp only [others i (Nat.ne_of_lt early)]
    · simp only [Function.update_self, took, ← shape.content f queued]
      exact sound.take_took unfinished found fits
    · intro i above below
      simp only [others i (Nat.ne_of_gt above), (shape.untouched i above below).2, List.take_zero]
      exact ⟨trivial, trivial⟩
  case outstanding =>
    have change := sum_range_change queued fun i away => congrArg UvlWrite.pending (others i away)
    have more : ((s.reqs f).took count).pending = (s.reqs f).pending + count := by
      rw [took]
    have outstanding := ledger.outstanding
    simp only [Function.update_self] at change
    simp only
    omega
  case balance =>
    have balance := ledger.balance
    simp only [ackedBytes_append, writtenBytes_append, writtenBytes_tcpWrite, List.length_append,
      length_slice]
    have none : ackedBytes [.tcpWrite (slice buf (s.reqs f).sent count)] = 0 := rfl
    omega

/-- The request at the frontier goes on to its next buffer. -/
theorem QueueInv.nextBuf (inv : QueueInv all n c f s past) (queued : f < n) {buf : Bytes}
    (unfinished : (s.reqs f).sentBufs < (s.reqs f).sendNbufs)
    (found : (s.reqs f).sendBufs[(s.reqs f).sentBufs]? = some buf)
    (atEnd : (s.reqs f).sent = buf.length) :
    QueueInv all n c f
      { s with
        reqs := Function.update s.reqs f
          { s.reqs f with sent := 0, sentBufs := ((s.reqs f).sentBufs + 1) % 2 ^ 32 } }
      past := by
  obtain ⟨rfl, shape, ledger, trace⟩ := inv
  have sound := shape.sound f queued
  have wide := sound.wide
  rw [Nat.mod_eq_of_lt (by omega)]
  refine ⟨rfl, shape.change shape.completed_le (sound.nextBuf unfinished found atEnd) rfl rfl rfl
    (.inl rfl) rfl rfl rfl rfl, ⟨?_, ?_, ledger.balance⟩, trace⟩
  · rw [ledger.stream]
    exact flatMap_range_congr fun i _ => congrArg (all i).take (field_update UvlWrite.totalSent (by rfl) i).symm
  · rw [ledger.outstanding]
    exact sum_congr rfl fun i _ => (field_update UvlWrite.pending (by rfl) i).symm

/-- Nothing of this depends on the room, on the coming answers or on the pending call. -/
theorem QueueInv.environment (inv : QueueInv all n c f s past) (sndbuf : Nat) (results : Nat → TcpErr)
    (writeReq : Bool) :
    QueueInv all n c f { s with sndbuf := sndbuf, results := results, writeReq := writeReq } past :=
  ⟨inv.count, { inv.shape with }, { inv.ledger with }, inv.trace⟩

/-- The frontier moves past a request without buffers left. -/
theorem QueueInv.advance (inv : QueueInv all n c f s past) (queued : f < n)
    (ended : (s.reqs f).sentBufs = (s.reqs f).sendNbufs) : QueueInv all n c (f + 1) s past := by
  obtain ⟨rfl, shape, ledger, trace⟩ := inv
  refine ⟨rfl, { shape with completed_le := ?_, frontier_le := queued, finished := ?_, untouched := ?_ },
    ledger, trace⟩
  · exact Nat.le_succ_of_le shape.completed_le
  · intro i low early
    rcases Nat.lt_or_eq_of_le (Nat.le_of_lt_succ early) with before | rfl
    · exact shape.finished i low before
    · exact ended
  · intro i above below
    exact shape.untouched i (Nat.lt_of_succ_lt above) below

end Steps

end SwitchLanPlay.UvLwip
