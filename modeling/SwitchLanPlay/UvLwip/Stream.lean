import SwitchLanPlay.UvLwip.QueueCallbacks

/-!
# The write queue is a byte stream

What lwIP took so far is a beginning of the submitted bytes, the `pending`
counters account for what it has not acknowledged, and a request is reported
once all of its bytes are acknowledged.  This needs the room to end in front of
every request without buffers: the loop that goes on from a finished request to
the next one writes an entry of its array without asking whether there is one.
-/

namespace SwitchLanPlay.UvLwip

open Library Finset

/-! ## Submitting -/

section Submitting

variable {all : Nat → Bytes} {n c f : Nat} {s : UvlQueue} {past : List QueueEvent}

theorem sound_freshRequest {bufs : List Bytes} {nbufs : Nat} (within : nbufs ≤ bufs.length)
    (wide : nbufs < 2 ^ 32) (short : (bufs.take nbufs).flatten.length < 2 ^ 32) :
    (UvlQueue.freshRequest bufs nbufs).Sound where
  within := within
  wide := wide
  short := short
  totalLen_eq := by
    rw [UvlWrite.content]
    simp only [UvlQueue.freshRequest]
    rw [← List.length_flatten, Nat.mod_eq_of_lt short]
  sentBufs_le := Nat.zero_le nbufs
  position := rfl
  inside := fun _ _ => Nat.zero_le _
  ended := fun _ => rfl
  pending_le := le_rfl

/-- No request has 2^32 bytes or more, and the write callback, when it runs, does
not come to a request without buffers. -/
def QueueInput.Regular (s : UvlQueue) : QueueInput → Prop
  | .write bufs nbufs _ _ => (bufs.take nbufs).flatten.length < 2 ^ 32
  | .asyncWrite => s.writeReq = true → s.Clear
  | _ => True

instance (s : UvlQueue) : (input : QueueInput) → Decidable (input.Regular s)
  | .write bufs nbufs _ _ => inferInstanceAs (Decidable ((bufs.take nbufs).flatten.length < 2 ^ 32))
  | .asyncWrite => inferInstanceAs (Decidable (s.writeReq = true → s.Clear))
  | .sent _ | .sndbuf _ => inferInstanceAs (Decidable True)

theorem QueueShape.push (shape : QueueShape all c f s)
    {bufs : List Bytes} {nbufs : Nat} (within : nbufs ≤ bufs.length) (wide : nbufs < 2 ^ 32)
    (regular : (QueueInput.write bufs nbufs within wide).Regular s)
    (content : (bufs.take nbufs).flatten = all s.submitted) :
    QueueShape all c f (s.uvlWrite bufs nbufs) := by
  have bound := shape.linked.bound
  have kept : ∀ {β : Type} (field : UvlWrite → β), (∀ req next, field { req with next := next } = field req) →
      ∀ i < s.submitted, field ((s.uvlWrite bufs nbufs).reqs i) = field (s.reqs i) := by
    intro β field unlinked i below
    rw [uvlWrite_reqs bufs nbufs below, unlinked]
  have cases : ∀ i < s.submitted + 1, i < s.submitted ∨ i = s.submitted :=
    fun i below => Nat.lt_or_eq_of_le (Nat.le_of_lt_succ below)
  constructor
  case completed_le => exact shape.completed_le
  case frontier_le => exact Nat.le_succ_of_le shape.frontier_le
  case head => exact (shape.linked.push bufs nbufs).head
  case link => exact (shape.linked.push bufs nbufs).link
  case tail => exact fun _ => rfl
  case sound =>
    intro i below
    rcases cases i below with before | rfl
    · rw [uvlWrite_reqs bufs nbufs before]
      exact { shape.sound i before with }
    · rw [uvlWrite_last]
      exact sound_freshRequest within wide regular
  case content =>
    intro i below
    rcases cases i below with before | rfl
    · rw [kept UvlWrite.content (fun _ _ => rfl) i before]
      exact shape.content i before
    · rw [uvlWrite_last]
      exact content
  case reported =>
    intro i early
    have before := Nat.lt_of_lt_of_le early bound
    rw [kept UvlWrite.totalSent (fun _ _ => rfl) i before, kept UvlWrite.pending (fun _ _ => rfl) i before]
    exact shape.reported i early
  case finished =>
    intro i low early
    have before := Nat.lt_of_lt_of_le early shape.frontier_le
    rw [kept UvlWrite.sentBufs (fun _ _ => rfl) i before, kept UvlWrite.sendNbufs (fun _ _ => rfl) i before]
    exact shape.finished i low early
  case untouched =>
    intro i above below
    rcases cases i below with before | rfl
    · rw [kept UvlWrite.sentBufs (fun _ _ => rfl) i before, kept UvlWrite.totalSent (fun _ _ => rfl) i before]
      exact shape.untouched i above before
    · rw [uvlWrite_last]
      exact ⟨rfl, rfl⟩

theorem QueueRests.push (rests : QueueRests all n s past) {bufs : List Bytes} {nbufs : Nat}
    (within : nbufs ≤ bufs.length) (wide : nbufs < 2 ^ 32)
    (regular : (QueueInput.write bufs nbufs within wide).Regular s)
    (content : (bufs.take nbufs).flatten = all n) :
    QueueRests all (n + 1) (s.uvlWrite bufs nbufs) past := by
  obtain ⟨c, f, ⟨rfl, shape, ledger, trace⟩, empty⟩ := rests
  have bound := shape.linked.bound
  refine ⟨c, f, ⟨rfl, shape.push within wide regular content, ⟨?_, ?_, ledger.balance⟩, trace⟩, ?_⟩
  · change _ = (List.range (s.submitted + 1)).flatMap _
    rw [ledger.stream, List.range_succ, List.flatMap_append, List.flatMap_singleton, uvlWrite_last]
    refine (flatMap_range_congr fun i below => ?_).trans (List.append_nil _).symm
    rw [uvlWrite_reqs bufs nbufs below]
  · change s.unacked + 0 = ∑ i ∈ range (s.submitted + 1), _
    rw [sum_range_succ, uvlWrite_last, ledger.outstanding]
    refine sum_congr rfl fun i member => ?_
    rw [uvlWrite_reqs bufs nbufs (mem_range.mp member)]
  · intro all
    omega

end Submitting

/-! ## Whole runs -/

/-- The bytes that an input submits. -/
def QueueInput.submission : QueueInput → Option Bytes
  | .write bufs nbufs _ _ => some (bufs.take nbufs).flatten
  | _ => none

/-- The bytes of the requests, in the order in which they are submitted. -/
def submissions (inputs : List QueueInput) : List Bytes := inputs.filterMap QueueInput.submission

theorem submissions_snoc (done : List QueueInput) (input : QueueInput) :
    submissions (done ++ [input]) = submissions done ++ input.submission.toList := by
  rw [submissions, List.filterMap_append, submissions]
  cases input <;> rfl

/-- One step, from a queue of `n` requests. -/
theorem queueStep_rests {all : Nat → Bytes} {n : Nat} {s : UvlQueue} {past : List QueueEvent}
    (rests : QueueRests all n s past) (input : QueueInput) (regular : input.Regular s)
    (content : ∀ bytes ∈ input.submission, bytes = all n) :
    QueueRests all (n + input.submission.toList.length) (queueStep input s).state
      (past ++ (queueStep input s).events) := by
  cases input with
  | write bufs nbufs within wide =>
      have pushed := rests.push within wide regular (content _ rfl)
      simpa [queueStep, QueueInput.submission] using pushed
  | asyncWrite =>
      have step : Proc.Triple
          (fun s past => QueueRests all n s past ∧ QueueInput.asyncWrite.Regular s)
          (queueStep .asyncWrite) (fun _ => QueueRests all n) := by
        refine Proc.triple_read_bind fun client => Proc.triple_ite (fun pending => ?_) fun _ => ?_
        · refine Proc.Triple.bind (fun _ s past => QueueRests all n s past ∧ s.Clear) (Proc.triple_update ?_)
            fun _ => triple_uvlAsyncTcpWriteCb
          rintro s past ⟨rfl, rests, clear⟩
          exact ⟨rests.environment s.sndbuf false, rests.clear_environment (clear pending) false⟩
        · exact Proc.triple_pure fun s past pre => pre.2.1
      exact step s past ⟨rests, regular⟩
  | sent len =>
      have step : Proc.Triple (QueueRests all n) (queueStep (.sent len)) (fun _ => QueueRests all n) := by
        refine Proc.triple_read_bind fun client => Proc.triple_ite (fun covered => ?_) fun _ => ?_
        · refine Proc.Triple.bind _ (Proc.triple_update ?_)
            fun _ => triple_uvlClientSentFunc len.toNat
          rintro s past ⟨rfl, rests⟩
          exact rests.acked covered.2
        · exact Proc.triple_pure fun s past pre => pre.2
      exact step s past rests
  | sndbuf room =>
      have changed := rests.environment room.toNat s.writeReq
      simpa [queueStep, QueueInput.submission] using changed

theorem rests_start {all : Nat → Bytes} (sndbuf : UInt16) (results : Nat → TcpErr) :
    QueueRests all 0 (.start sndbuf results) [] := by
  refine ⟨0, 0, ⟨rfl, ?_, ⟨rfl, rfl, rfl⟩, ⟨rfl, throughout_nil _, ?_⟩⟩, fun _ => rfl⟩
  · constructor
    case completed_le => exact le_rfl
    case frontier_le => exact le_rfl
    case head => rfl
    all_goals
      intros
      exact absurd ‹_› (Nat.not_lt_zero _)
  · intro event member
    cases member

theorem queue_run {all : Nat → Bytes} (inputs : List QueueInput) (sndbuf : UInt16) (results : Nat → TcpErr)
    (regular : Proc.Along queueStep QueueInput.Regular (.start sndbuf results) inputs)
    (named : ∀ i bytes, (submissions inputs)[i]? = some bytes → bytes = all i) :
    QueueRests all (submissions inputs).length
      (Proc.runAll queueStep inputs (.start sndbuf results)).state
      (Proc.runAll queueStep inputs (.start sndbuf results)).events := by
  induction inputs using List.reverseRecOn with
  | nil => exact rests_start sndbuf results
  | append_singleton done input ih =>
      rw [Proc.along_snoc] at regular
      rw [Proc.runAll_snoc_state, Proc.runAll_snoc_events, submissions_snoc, List.length_append]
      rw [submissions_snoc] at named
      refine queueStep_rests (ih regular.1 fun i bytes found => ?_) input regular.2 fun bytes found => ?_
      · have inside := (List.getElem?_eq_some_iff.mp found).1
        exact named i bytes ((List.getElem?_append_left inside).trans found)
      · refine named _ bytes ?_
        rw [List.getElem?_append_right le_rfl, Nat.sub_self, Option.mem_def.mp found]
        rfl

/-- The queue as a byte stream, for requests with these contents: what it wrote, what
it waits for and what it reported. -/
structure ExactStream (contents : List Bytes) (s : UvlQueue) (events : List QueueEvent) : Prop where
  written : writtenBytes events <+: contents.flatten
  outstanding : (s.queue.map fun req => (s.reqs req).pending).sum + ackedBytes events =
    (writtenBytes events).length
  faultless : ∀ event ∈ events, ¬ event.Fault
  fifo : completions events = List.range (completions events).length
  ackedFirst : ∀ before req after, events = before ++ .writeCb req :: after →
    (contents.take (req + 1)).flatten.length ≤ ackedBytes before

theorem QueueInv.written {all : Nat → Bytes} {n c f : Nat} {s : UvlQueue} {past : List QueueEvent}
    (inv : QueueInv all n c f s past) : writtenBytes past <+: (List.range n).flatMap all := by
  obtain ⟨rfl, shape, ledger, -⟩ := inv
  rw [ledger.stream]
  refine flatMap_range_prefix (f := f) ?_ ?_ ?_
  · intro i early below
    have whole : (s.reqs i).totalSent = (all i).length := by
      rcases Nat.lt_or_ge i c with reported | low
      · exact (shape.reported i reported).1
      · rw [(shape.sound i below).finished (shape.finished i low early), shape.content i below]
    rw [whole, List.take_length]
  · exact fun _ => List.take_prefix _ _
  · intro i above below
    rw [(shape.untouched i above below).2, List.take_zero]

theorem QueueInv.outstanding {all : Nat → Bytes} {n c f : Nat} {s : UvlQueue} {past : List QueueEvent}
    (inv : QueueInv all n c f s past) :
    (s.queue.map fun req => (s.reqs req).pending).sum + ackedBytes past = (writtenBytes past).length := by
  obtain ⟨rfl, shape, ledger, -⟩ := inv
  have bound := shape.linked.bound
  have reported : ∑ i ∈ range c, (s.reqs i).pending = 0 :=
    sum_eq_zero fun i member => (shape.reported i (mem_range.mp member)).2
  have outstanding := ledger.outstanding
  rw [← sum_range_add_sum_Ico _ bound, reported] at outstanding
  rw [shape.linked.queue_eq, sum_map_range', Nat.add_sub_cancel' bound, ← ledger.balance]
  omega

/-- In every run in which the write callback never comes to a request without
buffers and no request has 2^32 bytes, the queue is an exact byte stream. -/
theorem write_queue_exact (inputs : List QueueInput) (sndbuf : UInt16) (results : Nat → TcpErr)
    (regular : Proc.Along queueStep QueueInput.Regular (.start sndbuf results) inputs) :
    ExactStream (submissions inputs)
      (Proc.runAll queueStep inputs (.start sndbuf results)).state
      (Proc.runAll queueStep inputs (.start sndbuf results)).events := by
  have named : ∀ i bytes, (submissions inputs)[i]? = some bytes → bytes = (submissions inputs).getD i [] := by
    intro i bytes found
    rw [List.getD_eq_getElem?_getD, found, Option.getD_some]
  obtain ⟨c, f, inv, -⟩ := queue_run inputs sndbuf results regular named
  constructor
  case written =>
    have written := inv.written
    rwa [flatMap_range_getD, List.take_length] at written
  case outstanding => exact inv.outstanding
  case faultless => exact inv.trace.faultless
  case fifo => rw [inv.trace.order, List.length_range]
  case ackedFirst =>
    intro before req after split
    have acked : ∑ i ∈ range (req + 1), ((submissions inputs).getD i []).length ≤ ackedBytes before :=
      inv.trace.ackedFirst before (.writeCb req) after split
    rwa [← length_flatMap_range, flatMap_range_getD] at acked

/-- Requests that are written and acknowledged in parts.  A request without
buffers comes behind one that fills the room, another one behind one that waits
for its acknowledgement. -/
def sentInParts : List QueueInput :=
  [.write [[1, 2], [], [3]] 3 (by decide) (by decide), .write [[9]] 0 (by decide) (by decide), .asyncWrite,
    .sent 3, .sndbuf 5, .asyncWrite, .write [[4]] 1 (by decide) (by decide), .asyncWrite,
    .write [] 0 (by decide) (by decide), .asyncWrite, .sent 1, .asyncWrite]

theorem write_queue_exact_parts :
    Proc.Along queueStep QueueInput.Regular (.start 3 fun _ => .ok) sentInParts ∧
      completions (Proc.runAll queueStep sentInParts (.start 3 fun _ => .ok)).events = [0, 1, 2, 3] ∧
      ExactStream [[1, 2, 3], [], [4], []]
        (Proc.runAll queueStep sentInParts (.start 3 fun _ => .ok)).state
        (Proc.runAll queueStep sentInParts (.start 3 fun _ => .ok)).events := by
  have regular : Proc.Along queueStep QueueInput.Regular (.start 3 fun _ => .ok) sentInParts := by
    decide +kernel
  exact ⟨regular, by decide +kernel, write_queue_exact sentInParts 3 (fun _ => .ok) regular⟩

/-- Two bytes, and behind them a request for none of the entries of its array. -/
def emptyBehind : List QueueInput :=
  [.write [[1, 2]] 1 (by decide) (by decide), .write [[9]] 0 (by decide) (by decide), .asyncWrite]

/-- The second loop of `uvl_imp_write_to_tcp` writes an entry that was not submitted. -/
theorem empty_request_written :
    submissions emptyBehind = [[1, 2], []] ∧
      writtenBytes (Proc.runAll queueStep emptyBehind (.start 3 fun _ => .ok)).events = [1, 2, 9] ∧
      ¬ writtenBytes (Proc.runAll queueStep emptyBehind (.start 3 fun _ => .ok)).events <+:
        (submissions emptyBehind).flatten := by
  decide +kernel

end SwitchLanPlay.UvLwip
