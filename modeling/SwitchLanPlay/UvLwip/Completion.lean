import SwitchLanPlay.Library.Hoare
import SwitchLanPlay.UvLwip.Lifetime
import SwitchLanPlay.UvLwip.Links

/-!
# Every request completes once

As long as a write callback closes the connection only when no request waits
behind its own, requests are reported or cancelled in the order of their numbers,
each of them once, and nothing uses a request that was handed back.
-/

namespace SwitchLanPlay.UvLwip.Lifetime

open Library

/-! ## The trace -/

/-- The requests that `write_cb` was called for, in order. -/
def completions (events : List LifeEvent) : List Nat :=
  events.filterMap fun
    | .writeCb req _ => some req
    | _ => none

/-- The requests that were submitted, in order. -/
def submissions (events : List LifeEvent) : List Nat :=
  events.filterMap fun
    | .submit req => some req
    | _ => none

@[simp] theorem completions_append (first second : List LifeEvent) :
    completions (first ++ second) = completions first ++ completions second :=
  List.filterMap_append

@[simp] theorem submissions_append (first second : List LifeEvent) :
    submissions (first ++ second) = submissions first ++ submissions second :=
  List.filterMap_append

/-- What an event may be, given those in front of it. -/
def Orderly (before : List LifeEvent) : LifeEvent → Prop
  | .touch req => req ∉ completions before
  | .submit _ => .closeCb ∉ before
  | .closeCb => ∀ req ∈ submissions before, req ∈ completions before
  | _ => True

/-- The trace when `n` requests were submitted and the first `k` are handed back. -/
structure Settled (n k : Nat) (past : List LifeEvent) : Prop where
  submitted : submissions past = List.range n
  completed : completions past = List.range k
  orderly : Throughout Orderly past

/-- An event that hands no request back and uses none of the first `k`. -/
def Harmless (k : Nat) : LifeEvent → Prop
  | .touch req => k ≤ req
  | .readEof => True
  | .readCanceled => True
  | _ => False

section Trace

variable {n k : Nat} {past : List LifeEvent}

theorem settled_nil : Settled 0 0 [] := ⟨rfl, rfl, throughout_nil _⟩

/-- An event that neither submits a request nor hands one back. -/
theorem Settled.quiet (settled : Settled n k past) {event : LifeEvent} (orderly : Orderly past event)
    (submits : submissions [event] = []) (completes : completions [event] = []) :
    Settled n k (past ++ [event]) := by
  refine ⟨?_, ?_, settled.orderly.snoc orderly⟩
  · rw [submissions_append, submits, List.append_nil, settled.submitted]
  · rw [completions_append, completes, List.append_nil, settled.completed]

theorem Settled.touch (settled : Settled n k past) {req : Nat} (low : k ≤ req) :
    Settled n k (past ++ [.touch req]) := by
  have unused : req ∉ completions past := by
    rw [settled.completed, List.mem_range]
    exact Nat.not_lt_of_ge low
  exact settled.quiet unused rfl rfl

theorem Settled.harmless (settled : Settled n k past) {event : LifeEvent} (harmless : Harmless k event) :
    Settled n k (past ++ [event]) := by
  cases event with
  | touch req => exact settled.touch harmless
  | readEof => exact settled.quiet trivial rfl rfl
  | readCanceled => exact settled.quiet trivial rfl rfl
  | submit | writeCb | closeCb => exact absurd harmless id

theorem Settled.append (settled : Settled n k past) {events : List LifeEvent}
    (harmless : ∀ event ∈ events, Harmless k event) : Settled n k (past ++ events) := by
  induction events generalizing past with
  | nil => rwa [List.append_nil]
  | cons event events ih =>
      obtain ⟨first, others⟩ := List.forall_mem_cons.mp harmless
      rw [List.append_cons]
      exact ih (settled.harmless first) others

theorem Settled.writeCb (settled : Settled n k past) (status : WriteStatus) :
    Settled n (k + 1) (past ++ [.writeCb k status]) := by
  refine ⟨?_, ?_, settled.orderly.snoc trivial⟩
  · rw [submissions_append, settled.submitted]
    exact List.append_nil _
  · rw [completions_append, settled.completed, List.range_succ]
    rfl

theorem Settled.submit (settled : Settled n k past) (running : .closeCb ∉ past) :
    Settled (n + 1) k (past ++ [.submit n]) := by
  refine ⟨?_, ?_, settled.orderly.snoc running⟩
  · rw [submissions_append, settled.submitted, List.range_succ]
    rfl
  · rw [completions_append, settled.completed]
    exact List.append_nil _

theorem Settled.closeCb (settled : Settled n n past) : Settled n n (past ++ [.closeCb]) := by
  have all : ∀ req ∈ submissions past, req ∈ completions past := by
    rw [settled.submitted, settled.completed]
    exact fun req submitted => submitted
  exact settled.quiet all rfl rfl

/-- The events of the cancel loop. -/
def cancelEvents (reqs : List Nat) : List LifeEvent :=
  reqs.flatMap fun req => [.touch req, .writeCb req .canceled]

theorem Settled.cancel (settled : Settled n k past) (count : Nat) :
    Settled n (k + count) (past ++ cancelEvents (List.range' k count)) := by
  induction count generalizing k past with
  | zero => simpa [cancelEvents] using settled
  | succ count ih =>
      have next := ih ((settled.touch le_rfl).writeCb .canceled)
      rw [Nat.add_assoc, Nat.add_comm 1 count] at next
      simpa [cancelEvents, List.range'_succ] using next

end Trace

/-! ## What writing leaves alone -/

/-- The pointers of the queue and the flag of the owner. -/
def UvlTcp.pointers (client : UvlTcp) : Nat × Option Nat × Option Nat × (Nat → Option Nat) × Bool :=
  (client.queue.submitted, client.queue.curWrite, client.queue.tailWrite,
    fun req => (client.queue.reqs req).next, client.closing)

section Writing

variable {k : Nat}

theorem halt_framed : Proc.Framed UvlTcp.pointers (Harmless k) halt :=
  Proc.framed_update fun _ => rfl

theorem touch_framed {req : Nat} (low : k ≤ req) :
    Proc.Framed UvlTcp.pointers (Harmless k) (Proc.emit (.touch req)) :=
  Proc.framed_emit low

theorem modifyReq_framed {req : Nat} (low : k ≤ req) {f : UvlWrite → UvlWrite}
    (kept : ∀ r, (f r).next = r.next) : Proc.Framed UvlTcp.pointers (Harmless k) (modifyReq req f) := by
  refine (touch_framed low).bind fun _ => Proc.framed_update fun client => ?_
  have next : (fun i => (Function.update client.queue.reqs req (f (client.queue.reqs req)) i).next) =
      fun i => (client.queue.reqs i).next := by
    funext i
    rcases eq_or_ne i req with rfl | away
    · rw [Function.update_self, kept]
    · rw [Function.update_of_ne away]
  simp only [UvlTcp.pointers, next]

theorem uvlClientFreed_framed : Proc.Framed UvlTcp.pointers (Harmless k) uvlClientFreed := by
  refine (Proc.framed_update (by exact fun _ => rfl)).bind fun _ => Proc.framed_read.bind fun client => ?_
  refine Proc.framed_ite ((Proc.framed_emit trivial).bind fun _ => ?_) (Proc.framed_pure ())
  exact Proc.framed_update fun _ => rfl

theorem uvlClientCloseFunc_framed : Proc.Framed UvlTcp.pointers (Harmless k) uvlClientCloseFunc := by
  refine Proc.framed_read.bind fun client => (Proc.framed_update (by exact fun _ => rfl)).bind fun _ => ?_
  exact uvlClientFreed_framed.bind fun _ => Proc.framed_pure _

theorem tcpWrite_framed (bytes : Bytes) : Proc.Framed UvlTcp.pointers (Harmless k) (tcpWrite bytes) := by
  refine Proc.framed_read.bind fun client => (Proc.framed_update (by exact fun _ => rfl)).bind fun _ => ?_
  refine Proc.framed_ite (Proc.framed_pure _) ((Proc.framed_update (by exact fun _ => rfl)).bind fun _ => ?_)
  cases client.queue.results 0 with
  | mem => exact Proc.framed_pure _
  | ok => exact (Proc.framed_update (by exact fun _ => rfl)).bind fun _ => Proc.framed_pure _

theorem writeLoop_framed {req : Nat} (low : k ≤ req) (buf : Bytes) (sndbuf sent : Nat) :
    Proc.Framed UvlTcp.pointers (Harmless k) (writeLoop req buf sndbuf sent) := by
  induction sndbuf, sent using writeLoop.induct buf with
  | case1 sndbuf sent full =>
      rw [writeLoop, dif_pos full]
      exact Proc.framed_pure _
  | case2 sndbuf sent room ih =>
      rw [writeLoop, dif_neg room]
      refine (tcpWrite_framed _).bind fun answer => ?_
      cases answer with
      | none => exact uvlClientCloseFunc_framed.bind fun _ => Proc.framed_pure _
      | some err =>
          cases err with
          | mem => exact Proc.framed_pure _
          | ok =>
              refine (modifyReq_framed low (by exact fun _ => rfl)).bind fun _ => ?_
              exact Proc.framed_ite ih (Proc.framed_pure _)

theorem uvlImpWriteBufToTcp_framed {req : Nat} (low : k ≤ req) (buf : Bytes) :
    Proc.Framed UvlTcp.pointers (Harmless k) (uvlImpWriteBufToTcp req buf) := by
  refine (touch_framed low).bind fun _ => Proc.framed_read.bind fun client => ?_
  refine Proc.framed_ite (halt_framed.bind fun _ => Proc.framed_pure _) ?_
  refine (writeLoop_framed low _ _ _).bind fun returned => ?_
  cases returned with
  | some ret => exact Proc.framed_pure _
  | none =>
      refine Proc.framed_read.bind fun client => Proc.framed_ite (Proc.framed_pure _) ?_
      exact (modifyReq_framed low (by exact fun _ => rfl)).bind fun _ => Proc.framed_pure _

theorem writeRequest_framed {req : Nat} (low : k ≤ req) (bufs : List Bytes) :
    Proc.Framed UvlTcp.pointers (Harmless k) (writeRequest req bufs) := by
  induction bufs with
  | nil => exact halt_framed.bind fun _ => Proc.framed_pure _
  | cons buf bufs ih =>
      refine (uvlImpWriteBufToTcp_framed low buf).bind fun ret => Proc.framed_ite (Proc.framed_pure _) ?_
      refine (touch_framed low).bind fun _ => Proc.framed_read.bind fun client => ?_
      exact Proc.framed_ite (Proc.framed_pure _) ih

theorem writeRequests_framed {reqs : List Nat} (low : ∀ req ∈ reqs, k ≤ req) :
    Proc.Framed UvlTcp.pointers (Harmless k) (writeRequests reqs) := by
  induction reqs with
  | nil => exact Proc.framed_pure ()
  | cons req rest ih =>
      obtain ⟨here, others⟩ := List.forall_mem_cons.mp low
      refine Proc.framed_read.bind fun client => (writeRequest_framed here _).bind fun goesOn => ?_
      exact Proc.framed_ite (ih others) (Proc.framed_pure ())

theorem skipWritten_framed {reqs : List Nat} (low : ∀ req ∈ reqs, k ≤ req) :
    Proc.Framed UvlTcp.pointers (Harmless k) (skipWritten reqs) := by
  induction reqs with
  | nil => exact Proc.framed_pure _
  | cons req rest ih =>
      obtain ⟨here, others⟩ := List.forall_mem_cons.mp low
      refine (touch_framed here).bind fun _ => Proc.framed_read.bind fun client => ?_
      exact Proc.framed_ite (Proc.framed_pure _) (ih others)

theorem skipWritten_suffix (reqs : List Nat) (client : UvlTcp) :
    (skipWritten reqs client).value <:+ reqs := by
  induction reqs with
  | nil => exact List.suffix_refl _
  | cons req rest ih =>
      by_cases unfinished : (client.queue.reqs req).sentBufs < (client.queue.reqs req).sendNbufs
      · simp [skipWritten, unfinished]
      · have goesOn : (skipWritten (req :: rest) client).value = (skipWritten rest client).value := by
          simp [skipWritten, unfinished]
        rw [goesOn]
        exact ih.trans (List.suffix_cons req rest)

theorem tcpOutput_framed : Proc.Framed UvlTcp.pointers (Harmless k) tcpOutput := by
  refine Proc.framed_read.bind fun client => Proc.framed_ite halt_framed ?_
  refine (Proc.framed_update (by exact fun _ => rfl)).bind fun _ => ?_
  exact Proc.framed_ite (uvlClientCloseFunc_framed.bind fun _ => Proc.framed_pure ()) (Proc.framed_pure ())

theorem consume_framed {reqs : List Nat} (low : ∀ req ∈ reqs, k ≤ req) (len : Nat) :
    Proc.Framed UvlTcp.pointers (Harmless k) (consume reqs len) := by
  induction reqs generalizing len with
  | nil => exact Proc.framed_ite (Proc.framed_pure ()) halt_framed
  | cons req rest ih =>
      obtain ⟨here, others⟩ := List.forall_mem_cons.mp low
      refine Proc.framed_ite (Proc.framed_pure ()) (Proc.framed_read.bind fun client => ?_)
      exact (modifyReq_framed here (by exact fun _ => rfl)).bind fun _ => ih others _

end Writing

/-! ## The connection -/

/-- The connection when the first `k` requests are handed back. -/
structure Lives (k : Nat) (s : UvlTcp) (past : List LifeEvent) : Prop where
  linked : Linked k s.queue
  settled : Settled s.queue.submitted k past
  ended : s.closing = true → k = s.queue.submitted
  running : s.closing = false → .closeCb ∉ past

/-- Between two callbacks: `tail_write` points to no request that was handed back. -/
structure Idle (k : Nat) (s : UvlTcp) (past : List LifeEvent) : Prop extends Lives k s past where
  noTail : k = s.queue.submitted → s.queue.tailWrite = none

section Lives

variable {k : Nat} {s : UvlTcp} {past : List LifeEvent}

theorem Lives.queue_le (lives : Lives k s past) : ∀ req ∈ s.queue.queue, k ≤ req := by
  intro req member
  rw [lives.linked.queue_eq, List.mem_range'_1] at member
  exact member.1

theorem Lives.of_pointers (lives : Lives k s past) {s' : UvlTcp} (same : s'.pointers = s.pointers)
    {events : List LifeEvent} (harmless : ∀ event ∈ events, Harmless k event) :
    Lives k s' (past ++ events) := by
  simp only [UvlTcp.pointers, Prod.mk.injEq] at same
  obtain ⟨count, cur, tail, next, closing⟩ := same
  refine ⟨lives.linked.congr count cur tail fun i => congrFun next i, ?_, ?_, ?_⟩
  · rw [count]
    exact lives.settled.append harmless
  · rw [closing, count]
    exact lives.ended
  · rw [closing]
    intro notClosing member
    rcases List.mem_append.mp member with old | new
    · exact lives.running notClosing old
    · exact harmless _ new

theorem Lives.framed {α : Type} (lives : Lives k s past) {m : Life α}
    (framed : Proc.Framed UvlTcp.pointers (Harmless k) m) : Lives k (m s).state (past ++ (m s).events) :=
  lives.of_pointers (framed s).1 (framed s).2

theorem Idle.framed {α : Type} (idle : Idle k s past) {m : Life α}
    (framed : Proc.Framed UvlTcp.pointers (Harmless k) m) : Idle k (m s).state (past ++ (m s).events) := by
  refine ⟨idle.toLives.framed framed, ?_⟩
  have same := (framed s).1
  simp only [UvlTcp.pointers, Prod.mk.injEq] at same
  rw [same.1, same.2.2.1]
  exact idle.noTail

theorem Idle.of_pointers (idle : Idle k s past) {s' : UvlTcp} (same : s'.pointers = s.pointers) :
    Idle k s' past := by
  have lives := idle.toLives.of_pointers same (List.forall_mem_nil _)
  rw [List.append_nil] at lives
  simp only [UvlTcp.pointers, Prod.mk.injEq] at same
  refine ⟨lives, ?_⟩
  rw [same.1, same.2.2.1]
  exact idle.noTail

theorem uvlImpWriteToTcp_idle (idle : Idle k s past) :
    Idle k (uvlImpWriteToTcp s).state (past ++ (uvlImpWriteToTcp s).events) := by
  have skipped := idle.framed (skipWritten_framed idle.queue_le)
  have low (req : Nat) (member : req ∈ (skipWritten s.queue.queue s).value) : k ≤ req :=
    idle.queue_le req ((skipWritten_suffix _ _).subset member)
  have written := skipped.framed ((writeRequests_framed low).bind fun _ => tcpOutput_framed)
  rw [List.append_assoc] at written
  exact written

/-! ### Closing -/

/-- The cancel loop when no callback closes the connection. -/
theorem cancelLoop_eq {writeCb : Nat → WriteStatus → Life Unit} {reqs : List Nat}
    (plain : ∀ req ∈ reqs, writeCb req .canceled = report req .canceled) (s : UvlTcp) :
    cancelLoop writeCb reqs s = ⟨(), s, cancelEvents reqs⟩ := by
  induction reqs with
  | nil => rfl
  | cons req rest ih =>
      obtain ⟨here, others⟩ := List.forall_mem_cons.mp plain
      rw [cancelLoop, here]
      ext1
      · rfl
      · simp [ih others, report]
      · simp [ih others, report, cancelEvents]

theorem cancelRead_framed : Proc.Framed UvlTcp.pointers (Harmless k) cancelRead := by
  refine Proc.framed_read.bind fun client => Proc.framed_ite ?_ (Proc.framed_pure ())
  exact (Proc.framed_emit trivial).bind fun _ => Proc.framed_update fun _ => rfl

theorem closeCb_notMem_cancelEvents (reqs : List Nat) : .closeCb ∉ cancelEvents reqs := by
  intro member
  obtain ⟨req, -, event⟩ := List.mem_flatMap.mp member
  simp at event

/-- `uvl_cancel_reqs` hands all requests back, if no callback closes the connection. -/
theorem uvlCancelReqs_idle (linked : Linked k s.queue) (settled : Settled s.queue.submitted k past)
    (running : s.closing = false → .closeCb ∉ past) {writeCb : Nat → WriteStatus → Life Unit}
    (plain : ∀ req ∈ s.queue.queue, writeCb req .canceled = report req .canceled) :
    Idle s.queue.submitted (uvlCancelReqs writeCb s).state (past ++ (uvlCancelReqs writeCb s).events) ∧
      (uvlCancelReqs writeCb s).state.closing = s.closing := by
  let emptied : UvlTcp := { s with queue := { s.queue with curWrite := none, tailWrite := none } }
  have cancelled : uvlCancelReqs writeCb s =
      ⟨(), (cancelRead emptied).state, cancelEvents s.queue.queue ++ (cancelRead emptied).events⟩ := by
    ext1
    · rfl
    · simp [uvlCancelReqs, onQueue, cancelLoop_eq plain, emptied]
    · simp [uvlCancelReqs, onQueue, cancelLoop_eq plain, emptied]
  have idle : Idle s.queue.submitted emptied (past ++ cancelEvents s.queue.queue) := by
    have empty : Linked emptied.queue.submitted emptied.queue := linked_empty rfl
    refine ⟨⟨empty, ?_, fun _ => rfl, ?_⟩, fun _ => rfl⟩
    · have all := settled.cancel (s.queue.submitted - k)
      rwa [Nat.add_sub_cancel' linked.bound, ← linked.queue_eq] at all
    · intro notClosing member
      rcases List.mem_append.mp member with old | new
      · exact running notClosing old
      · exact closeCb_notMem_cancelEvents _ new
  rw [cancelled, ← List.append_assoc]
  have same := (cancelRead_framed (k := 0) emptied).1
  simp only [UvlTcp.pointers, Prod.mk.injEq] at same
  exact ⟨idle.framed cancelRead_framed, same.2.2.2.2⟩

theorem closeIfOpen_framed : Proc.Framed UvlTcp.pointers (Harmless k) closeIfOpen := by
  refine Proc.framed_read.bind fun client => Proc.framed_ite (Proc.framed_pure ()) ?_
  exact uvlClientCloseFunc_framed.bind fun _ => Proc.framed_pure ()

theorem uvlTcpClose_idle (lives : Lives k s past) (notClosing : s.closing = false) :
    Idle s.queue.submitted (uvlTcpClose s).state (past ++ (uvlTcpClose s).events) ∧
      (uvlTcpClose s).state.closing = true := by
  let marked : UvlTcp := { s with closing := true }
  let shut := closeIfOpen marked
  obtain ⟨same, harmless⟩ := closeIfOpen_framed (k := k) marked
  simp only [UvlTcp.pointers, Prod.mk.injEq] at same
  obtain ⟨count, cur, tail, next, closing⟩ := same
  have closed : uvlTcpClose s =
      ⟨(), (uvlCancelReqs report shut.state).state,
        shut.events ++ (uvlCancelReqs report shut.state).events⟩ := by
    ext1
    · rfl
    · simp [uvlTcpClose, notClosing, shut, marked]
    · simp [uvlTcpClose, notClosing, shut, marked]
  have linked : Linked k shut.state.queue :=
    lives.linked.congr count cur tail fun i => congrFun next i
  have settled : Settled shut.state.queue.submitted k (past ++ shut.events) := by
    rw [count]
    exact lives.settled.append harmless
  have isClosing : shut.state.closing = true := closing
  obtain ⟨idle, kept⟩ := uvlCancelReqs_idle linked settled (by simp [isClosing])
    fun req _ => (rfl : report req .canceled = _)
  rw [closed, ← List.append_assoc]
  rw [count] at idle
  exact ⟨idle, kept.trans isClosing⟩

/-! ### The write callback -/

/-- The connection when the request `k` is about to be reported. -/
def reporting (k : Nat) (s : UvlTcp) : UvlTcp :=
  { s with queue := { s.queue with curWrite := (s.queue.reqs k).next } }

theorem Lives.report (lives : Lives k s past) (queued : k < s.queue.submitted)
    (notClosing : s.closing = false) :
    Lives (k + 1) (reporting k s) (past ++ [.touch k, .writeCb k .ok]) := by
  refine ⟨lives.linked.advance queued, ?_, ?_, ?_⟩
  · rw [List.append_cons]
    exact (lives.settled.touch le_rfl).writeCb .ok
  · intro closing
    exact absurd (notClosing.symm.trans closing) Bool.false_ne_true
  · intro _ member
    rcases List.mem_append.mp member with old | new
    · exact lives.running notClosing old
    · simp at new

/-- The loop when the connection may have been closed by the last callback. -/
structure Reported (s : UvlTcp) (left : List Nat) (s' : UvlTcp) (past : List LifeEvent) : Prop where
  lives : ∃ k, Lives k s' past
  count : s'.queue.submitted = s.queue.submitted
  rest : s'.closing = false → s'.closed = s.closed ∧ s'.queue.queue = left

/-! One pass of the loop: the first request is not complete, or its callback
closes the connection, or it does not. -/

theorem completeRequests_stops (closes : Nat → WriteStatus → Bool) (rest : List Nat)
    (incomplete : ¬ Complete s.queue k) : completeRequests closes (k :: rest) s = ⟨(), s, [.touch k]⟩ := by
  ext1
  · rfl
  · simp [completeRequests, incomplete]
  · simp [completeRequests, incomplete]

theorem completeRequests_closes {closes : Nat → WriteStatus → Bool} (complete : Complete s.queue k)
    (closing : closes k .ok = true) :
    completeRequests closes [k] s =
      ⟨(), (uvlTcpClose (reporting k s)).state,
        [.touch k, .writeCb k .ok] ++ (uvlTcpClose (reporting k s)).events⟩ := by
  ext1
  · rfl
  · simp [completeRequests, complete, onQueue, writeCallback, report, closing, reporting]
  · simp [completeRequests, complete, onQueue, writeCallback, report, closing, reporting]

theorem completeRequests_goesOn {closes : Nat → WriteStatus → Bool} (rest : List Nat)
    (complete : Complete s.queue k) (stays : ¬ closes k .ok = true) :
    completeRequests closes (k :: rest) s =
      ⟨(), (completeRequests closes rest (reporting k s)).state,
        [.touch k, .writeCb k .ok] ++ (completeRequests closes rest (reporting k s)).events⟩ := by
  ext1
  · rfl
  · simp [completeRequests, complete, onQueue, writeCallback, report, stays, reporting]
  · simp [completeRequests, complete, onQueue, writeCallback, report, stays, reporting]

theorem completeRequests_reported (closes : Nat → WriteStatus → Bool) (count : Nat)
    (lives : Lives k s past) (notClosing : s.closing = false) (total : k + count = s.queue.submitted)
    (regular : ∀ req ∈ (List.range' k count).takeWhile fun req => Complete s.queue req,
      closes req .ok = true → (s.queue.reqs req).next = none) :
    Reported s ((List.range' k count).dropWhile fun req => Complete s.queue req)
      (completeRequests closes (List.range' k count) s).state
      (past ++ (completeRequests closes (List.range' k count) s).events) := by
  have whole : s.queue.queue = List.range' k count := by
    rw [lives.linked.queue_eq, ← total, Nat.add_sub_cancel_left]
  induction count generalizing k s past with
  | zero => exact ⟨⟨k, by simpa [completeRequests] using lives⟩, rfl, fun _ => ⟨rfl, whole⟩⟩
  | succ count ih =>
      rw [List.range'_succ] at regular whole ⊢
      by_cases complete : Complete s.queue k
      · have next := lives.report (by omega) notClosing
        by_cases closing : closes k .ok = true
        · -- the last request closes the connection: nothing is left for the loop
          have last : (s.queue.reqs k).next = none :=
            regular k (by simp [complete]) closing
          have alone : count = 0 := by
            rw [lives.linked.link k le_rfl (by omega)] at last
            by_contra more
            rw [if_pos (by omega)] at last
            cases last
          subst alone
          obtain ⟨idle, isClosing⟩ := uvlTcpClose_idle next notClosing
          rw [List.range'_zero, completeRequests_closes complete closing, ← List.append_assoc]
          refine ⟨⟨_, idle.toLives⟩, (idle.ended isClosing).symm, fun contrary => ?_⟩
          exact absurd (contrary.symm.trans isClosing) Bool.false_ne_true
        · have others : ∀ req ∈ (List.range' (k + 1) count).takeWhile fun req => Complete s.queue req,
              closes req .ok = true → (s.queue.reqs req).next = none := by
            intro req member
            exact regular req (by simp [complete, member])
          have rest := ih next notClosing (by change k + 1 + count = s.queue.submitted; omega) others ?_
          · rw [completeRequests_goesOn _ complete closing, ← List.append_assoc,
              List.dropWhile_cons_of_pos (by simpa using complete)]
            exact ⟨rest.lives, rest.count, rest.rest⟩
          · rw [next.linked.queue_eq]
            congr 1
            change s.queue.submitted - (k + 1) = count
            omega
      · rw [completeRequests_stops _ _ complete, List.dropWhile_cons_of_neg (by simpa using complete)]
        exact ⟨⟨k, lives.framed (touch_framed le_rfl)⟩, rfl, fun _ => ⟨rfl, whole⟩⟩

/-- A callback of `uvl_async_tcp_write_cb` closes the connection only if it
reports the last request of the queue. -/
structure ClosesAtEnd (closes : Nat → WriteStatus → Bool) (s : UvlTcp) : Prop where
  reported : ∀ req ∈ s.queue.queue.takeWhile fun req => Complete s.queue req,
    closes req .ok = true → (s.queue.reqs req).next = none
  canceled : s.closed = true → ∀ req ∈ s.queue.queue.dropWhile fun req => Complete s.queue req,
    closes req .canceled = false

/-- `tail_write` is cleared when the queue is empty. -/
def cleared (s : UvlTcp) : UvlTcp :=
  { s with queue := if s.queue.curWrite = none then { s.queue with tailWrite := none } else s.queue }

theorem cleared_idle (lives : Lives k s past) : Idle k (cleared s) past := by
  have head := lives.linked.head
  by_cases queued : k < s.queue.submitted
  · have same : cleared s = s := by
      rw [cleared, if_neg (by simp [head, queued])]
    rw [same]
    exact ⟨lives, fun all => absurd all (Nat.ne_of_lt queued)⟩
  · have empty : s.queue.curWrite = none := by rw [head, if_neg queued]
    obtain rfl : k = s.queue.submitted := Nat.le_antisymm lives.linked.bound (Nat.le_of_not_lt queued)
    have same : cleared s = { s with queue := { s.queue with tailWrite := none } } := by
      rw [cleared, if_pos empty]
    rw [same]
    have linked := linked_empty (s := { s.queue with tailWrite := none }) empty
    exact ⟨⟨linked, lives.settled, fun _ => rfl, lives.running⟩, fun _ => rfl⟩

theorem queue_eq_nil {queue : UvlQueue} (empty : queue.curWrite = none) : queue.queue = [] := by
  rw [UvlQueue.queue, empty]
  cases queue.submitted <;> rfl

theorem cleared_queue (s : UvlTcp) : (cleared s).queue.queue = s.queue.queue := by
  by_cases empty : s.queue.curWrite = none
  · have none : (cleared s).queue.curWrite = none := by simp [cleared, empty]
    rw [queue_eq_nil none, queue_eq_nil empty]
  · rw [cleared, if_neg empty]

theorem writeCallback_eq_report {closes : Nat → WriteStatus → Bool} {req : Nat} {status : WriteStatus}
    (stays : closes req status = false) : writeCallback closes req status = report req status := by
  funext s
  ext1 <;> simp [writeCallback, stays]

theorem afterLoop_idle {closes : Nat → WriteStatus → Bool} (lives : Lives k s past)
    (plain : s.closed = true → ∀ req ∈ s.queue.queue, closes req .canceled = false) :
    ∃ k', Idle k' (afterLoop closes s).state (past ++ (afterLoop closes s).events) := by
  have idle := cleared_idle lives
  by_cases closed : s.closed = true
  · have cancels : afterLoop closes s =
        ⟨(), (uvlCancelReqs (writeCallback closes) (cleared s)).state,
          (uvlCancelReqs (writeCallback closes) (cleared s)).events⟩ := by
      ext1 <;> simp [afterLoop, onQueue, closed, cleared]
    rw [cancels]
    refine ⟨_, (uvlCancelReqs_idle idle.linked idle.settled idle.running fun req member => ?_).1⟩
    rw [cleared_queue] at member
    exact writeCallback_eq_report (plain closed req member)
  · by_cases empty : (cleared s).queue.curWrite = none
    · have stops : afterLoop closes s = ⟨(), cleared s, []⟩ := by
        have none : (cleared s).queue.curWrite = none := empty
        simp only [cleared] at none
        ext1 <;> simp [afterLoop, onQueue, closed, cleared, none]
      rw [stops, List.append_nil]
      exact ⟨k, idle⟩
    · have writes : afterLoop closes s =
          ⟨(), (uvlImpWriteToTcp (cleared s)).state, (uvlImpWriteToTcp (cleared s)).events⟩ := by
        have some : (cleared s).queue.curWrite ≠ none := empty
        simp only [cleared] at some
        ext1 <;> simp [afterLoop, onQueue, closed, cleared, some]
      rw [writes]
      exact ⟨k, uvlImpWriteToTcp_idle idle⟩

theorem uvlAsyncTcpWriteCb_idle {closes : Nat → WriteStatus → Bool} (idle : Idle k s past)
    (notClosing : s.closing = false) (regular : ClosesAtEnd closes s) :
    ∃ k', Idle k' (uvlAsyncTcpWriteCb closes s).state (past ++ (uvlAsyncTcpWriteCb closes s).events) := by
  have whole := idle.linked.queue_eq
  have reported := completeRequests_reported closes (s.queue.submitted - k) idle.toLives notClosing
    (Nat.add_sub_cancel' idle.linked.bound) (whole ▸ regular.reported)
  rw [← whole] at reported
  obtain ⟨⟨k', lives⟩, count, rest⟩ := reported
  have plain : (completeRequests closes s.queue.queue s).state.closed = true →
      ∀ req ∈ (completeRequests closes s.queue.queue s).state.queue.queue, closes req .canceled = false := by
    intro closed req member
    cases closing : (completeRequests closes s.queue.queue s).state.closing with
    | true =>
        rw [lives.linked.queue_eq, lives.ended closing, Nat.sub_self] at member
        cases member
    | false =>
        obtain ⟨sameClosed, left⟩ := rest closing
        rw [left] at member
        exact regular.canceled (sameClosed ▸ closed) req member
  obtain ⟨final, done⟩ := afterLoop_idle lives plain
  rw [List.append_assoc] at done
  exact ⟨final, done⟩

/-! ### Steps -/

theorem uvlWrite_idle (idle : Idle k s past) (notClosing : s.closing = false) (bufs : List Bytes)
    (nbufs : Nat) : Idle k (uvlWrite bufs nbufs s).state (past ++ (uvlWrite bufs nbufs s).events) := by
  have alive : Lives k s (past ++ (touchTail s.queue.tailWrite s).events) := by
    rcases Nat.lt_or_eq_of_le idle.linked.bound with queued | all
    · rw [idle.linked.tail queued]
      exact idle.toLives.framed (touch_framed (Nat.le_sub_one_of_lt queued))
    · rw [idle.noTail all]
      simpa [touchTail] using idle.toLives
  have written : uvlWrite bufs nbufs s =
      ⟨(), { s with queue := s.queue.uvlWrite bufs nbufs },
        (touchTail s.queue.tailWrite s).events ++ [.submit s.queue.submitted]⟩ := by
    have same : (touchTail s.queue.tailWrite s).state = s := by
      cases s.queue.tailWrite <;> rfl
    ext1 <;> simp [uvlWrite, onQueue, same]
  have isRunning := alive.running notClosing
  rw [written, ← List.append_assoc]
  refine ⟨⟨alive.linked.push bufs nbufs, alive.settled.submit isRunning, ?_, ?_⟩, ?_⟩
  · intro closing
    exact absurd (notClosing.symm.trans closing) Bool.false_ne_true
  · intro _ member
    rcases List.mem_append.mp member with old | new
    · exact isRunning old
    · simp at new
  · intro all
    exact absurd (Nat.le_of_eq all.symm) (Nat.not_le_of_gt (Nat.lt_succ_of_le idle.linked.bound))

theorem uvlClientSentFunc_idle (idle : Idle k s past) (len : Nat) :
    Idle k (uvlClientSentFunc len s).state (past ++ (uvlClientSentFunc len s).events) := by
  have marks : Proc.Framed UvlTcp.pointers (Harmless k)
      (onQueue fun queue => { queue with writeReq := true }) := Proc.framed_update fun _ => rfl
  have done := idle.framed ((consume_framed idle.queue_le len).bind fun _ => marks)
  exact done

theorem uvlTcpCloseHandleCb_idle (idle : Idle k s past) (closing : s.closing = true) :
    Idle k (uvlTcpCloseHandleCb s).state (past ++ (uvlTcpCloseHandleCb s).events) := by
  obtain rfl := idle.ended closing
  by_cases second : s.closedHandle + 1 = 2
  · have closes : uvlTcpCloseHandleCb s =
        ⟨(), { s with
          queue := { s.queue with curWrite := none, tailWrite := none }
          readCb := false
          closedHandle := 0 }, [.closeCb]⟩ := by
      ext1 <;> simp [uvlTcpCloseHandleCb, handlesClosed, second]
    have linked := linked_empty (s := { s.queue with curWrite := none, tailWrite := none }) rfl
    rw [closes]
    refine ⟨⟨linked, idle.settled.closeCb, fun _ => rfl, ?_⟩, fun _ => rfl⟩
    intro contrary
    exact absurd (contrary.symm.trans closing) Bool.false_ne_true
  · have waits : uvlTcpCloseHandleCb s = ⟨(), { s with closedHandle := s.closedHandle + 1 }, []⟩ := by
      ext1 <;> simp [uvlTcpCloseHandleCb, second]
    rw [waits, List.append_nil]
    exact idle.of_pointers rfl

/-- The condition on a step, in the state it starts from. -/
def LifeInput.Regular (s : UvlTcp) : LifeInput → Prop
  | .asyncWrite closes =>
      s.halted = false → s.queue.writeReq = true → s.closing = false → ClosesAtEnd closes s
  | _ => True

theorem whileOpen_framed {callback : Life Unit} (framed : Proc.Framed UvlTcp.pointers (Harmless k) callback) :
    Proc.Framed UvlTcp.pointers (Harmless k) (whileOpen callback) :=
  Proc.framed_read.bind fun _ => Proc.framed_ite (Proc.framed_pure ()) framed

/-- A step that does nothing. -/
theorem Idle.stays (idle : Idle k s past) {step : Life Unit} (nothing : step s = ⟨(), s, []⟩) :
    ∃ k', Idle k' (step s).state (past ++ (step s).events) := by
  rw [nothing, List.append_nil]
  exact ⟨k, idle⟩

theorem liveStep_write_idle (idle : Idle k s past) (bufs : List Bytes) (nbufs : Nat)
    (within : nbufs ≤ bufs.length) (wide : nbufs < 2 ^ 32) :
    ∃ k', Idle k' (liveStep (.write bufs nbufs within wide) s).state
      (past ++ (liveStep (.write bufs nbufs within wide) s).events) := by
  cases closing : s.closing with
  | true =>
      refine idle.stays ?_
      ext1 <;> simp [liveStep, closing]
  | false =>
      have writes : liveStep (.write bufs nbufs within wide) s = uvlWrite bufs nbufs s := by
        ext1 <;> simp [liveStep, closing]
      rw [writes]
      exact ⟨k, uvlWrite_idle idle closing bufs nbufs⟩

theorem liveStep_asyncWrite_idle (idle : Idle k s past) (closes : Nat → WriteStatus → Bool)
    (regular : s.queue.writeReq = true → s.closing = false → ClosesAtEnd closes s) :
    ∃ k', Idle k' (liveStep (.asyncWrite closes) s).state
      (past ++ (liveStep (.asyncWrite closes) s).events) := by
  by_cases runs : s.queue.writeReq = true ∧ s.closing = false
  · let begun : UvlTcp := { s with queue := { s.queue with writeReq := false } }
    have called : liveStep (.asyncWrite closes) s = uvlAsyncTcpWriteCb closes begun := by
      ext1 <;> simp [liveStep, runs, onQueue, begun]
    have started : Idle k begun past := idle.of_pointers rfl
    have sameQueue : begun.queue.queue = s.queue.queue := by
      rw [started.linked.queue_eq, idle.linked.queue_eq]
    obtain ⟨reported, canceled⟩ := regular runs.1 runs.2
    rw [called]
    refine uvlAsyncTcpWriteCb_idle started runs.2 ⟨?_, ?_⟩
    · rw [sameQueue]
      exact reported
    · rw [sameQueue]
      exact canceled
  · refine idle.stays ?_
    ext1 <;> simp [liveStep, runs]

theorem liveStep_sent_idle (idle : Idle k s past) (len : UInt16) :
    ∃ k', Idle k' (liveStep (.sent len) s).state (past ++ (liveStep (.sent len) s).events) := by
  by_cases runs : s.closed = false ∧ 0 < len.toNat ∧ len.toNat ≤ s.queue.unacked
  · let begun : UvlTcp := { s with queue := { s.queue with unacked := s.queue.unacked - len.toNat } }
    have called : liveStep (.sent len) s = uvlClientSentFunc len.toNat begun := by
      ext1 <;> simp [liveStep, whileOpen, runs, onQueue, begun]
    rw [called]
    have started : Idle k begun past := idle.of_pointers rfl
    exact ⟨k, uvlClientSentFunc_idle started len.toNat⟩
  · refine idle.stays ?_
    cases closed : s.closed with
    | true => ext1 <;> simp [liveStep, whileOpen, closed]
    | false =>
        have refused : ¬ (0 < len.toNat ∧ len.toNat ≤ s.queue.unacked) := fun holds => runs ⟨closed, holds⟩
        ext1 <;> simp [liveStep, whileOpen, closed, refused]

theorem liveStep_close_idle (idle : Idle k s past) :
    ∃ k', Idle k' (liveStep .close s).state (past ++ (liveStep .close s).events) := by
  cases closing : s.closing with
  | true =>
      refine idle.stays ?_
      ext1 <;> simp [liveStep, uvlTcpClose, closing]
  | false => exact ⟨_, (uvlTcpClose_idle idle.toLives closing).1⟩

theorem liveStep_handleClosed_idle (idle : Idle k s past) :
    ∃ k', Idle k' (liveStep .handleClosed s).state (past ++ (liveStep .handleClosed s).events) := by
  by_cases runs : s.closing = true ∧ 0 < s.openHandles
  · have called : liveStep .handleClosed s =
        uvlTcpCloseHandleCb { s with openHandles := s.openHandles - 1 } := by
      ext1 <;> simp [liveStep, runs]
    rw [called]
    exact ⟨k, uvlTcpCloseHandleCb_idle (idle.of_pointers rfl) runs.1⟩
  · refine idle.stays ?_
    ext1 <;> simp [liveStep, runs]

theorem liveStep_idle (idle : Idle k s past) (input : LifeInput) (notHalted : s.halted = false)
    (regular : input.Regular s) :
    ∃ k', Idle k' (liveStep input s).state (past ++ (liveStep input s).events) := by
  cases input with
  | write bufs nbufs within wide => exact liveStep_write_idle idle bufs nbufs within wide
  | asyncWrite closes => exact liveStep_asyncWrite_idle idle closes (regular notHalted)
  | sent len => exact liveStep_sent_idle idle len
  | err => exact ⟨k, idle.framed (whileOpen_framed uvlClientFreed_framed)⟩
  | recv data =>
      cases data with
      | none =>
          have closes := (uvlClientCloseFunc_framed (k := k)).bind fun _ => Proc.framed_pure ()
          exact ⟨k, idle.framed (whileOpen_framed closes)⟩
      | some bytes => exact ⟨k, idle.framed (Proc.framed_pure ())⟩
  | sndbuf room => exact ⟨k, idle.framed (Proc.framed_update fun _ => rfl)⟩
  | read start => exact ⟨k, idle.framed (Proc.framed_update fun _ => rfl)⟩
  | close => exact liveStep_close_idle idle
  | handleClosed => exact liveStep_handleClosed_idle idle

theorem lifeStep_idle (idle : Idle k s past) (input : LifeInput) (regular : input.Regular s) :
    ∃ k', Idle k' (lifeStep input s).state (past ++ (lifeStep input s).events) := by
  cases halted : s.halted with
  | true =>
      refine idle.stays ?_
      ext1 <;> simp [lifeStep, halted]
  | false =>
      have runs : lifeStep input s = liveStep input s := by
        ext1 <;> simp [lifeStep, halted]
      rw [runs]
      exact liveStep_idle idle input halted regular

end Lives

/-! ## Runs -/

section Runs

variable (sndbuf : UInt16) (results : Nat → TcpErr) (writeFails outputFails closeFails : Nat → Bool)

theorem idle_start : Idle 0 (.start sndbuf results writeFails outputFails closeFails) [] :=
  ⟨⟨linked_empty (s := .start sndbuf results) rfl, settled_nil, nofun, fun _ => List.not_mem_nil⟩, fun _ => rfl⟩

theorem life_run (inputs : List LifeInput)
    (regular : Proc.Along lifeStep LifeInput.Regular
      (.start sndbuf results writeFails outputFails closeFails) inputs) :
    ∃ k, Idle k
      (Proc.runAll lifeStep inputs (.start sndbuf results writeFails outputFails closeFails)).state
      (Proc.runAll lifeStep inputs (.start sndbuf results writeFails outputFails closeFails)).events := by
  induction inputs using List.reverseRecOn with
  | nil => exact ⟨0, idle_start sndbuf results writeFails outputFails closeFails⟩
  | append_singleton first last ih =>
      obtain ⟨before, here⟩ := (Proc.along_snoc first last _).mp regular
      obtain ⟨k, idle⟩ := ih before
      rw [Proc.runAll_snoc_state, Proc.runAll_snoc_events]
      exact lifeStep_idle idle last here

/-- No request is handed back twice, all are handed back when the close callback
runs, and none is used after that. -/
structure CompletesOnce (events : List LifeEvent) : Prop where
  once : (completions events).Nodup
  byClose : ∀ before after, events = before ++ .closeCb :: after →
    ∀ req ∈ submissions events, req ∈ completions before
  unused : ∀ before req after, events = before ++ .touch req :: after → req ∉ completions before

theorem Settled.completesOnce {n k : Nat} {events : List LifeEvent} (settled : Settled n k events) :
    CompletesOnce events where
  once := settled.completed ▸ List.nodup_range
  byClose := by
    rintro before after rfl req submitted
    rw [submissions_append, List.mem_append] at submitted
    rcases submitted with early | late
    · exact settled.orderly before .closeCb after rfl req early
    · obtain ⟨event, member, found⟩ := List.mem_filterMap.mp late
      obtain ⟨middle, last, split⟩ := List.append_of_mem member
      cases event with
      | submit other =>
          cases middle with
          | nil => cases split
          | cons first middle =>
              obtain ⟨rfl, rfl⟩ := List.cons.inj split
              have orderly := settled.orderly (before ++ .closeCb :: middle) (.submit other) last (by simp)
              exact absurd (List.mem_append_right before List.mem_cons_self) orderly
      | touch | writeCb | readEof | readCanceled | closeCb => cases found
  unused := fun before req after split => settled.orderly before (.touch req) after split

/-- In every run in which callbacks of the write loop close the connection only
when no request is left behind their own, every request completes once. -/
theorem write_requests_complete_once (inputs : List LifeInput)
    (regular : Proc.Along lifeStep LifeInput.Regular
      (.start sndbuf results writeFails outputFails closeFails) inputs) :
    CompletesOnce
      (Proc.runAll lifeStep inputs (.start sndbuf results writeFails outputFails closeFails)).events := by
  obtain ⟨k, idle⟩ := life_run sndbuf results writeFails outputFails closeFails inputs regular
  exact idle.settled.completesOnce

end Runs

theorem one_lt_two_pow_32 : 1 < 2 ^ 32 := by decide

/-- The connection of `SwitchFakeTcpConnection`: one request, whose callback closes. -/
def closeAfterWrite : List LifeInput :=
  [.write [[111, 107]] 1 (by decide) one_lt_two_pow_32, .asyncWrite fun _ _ => false, .sent 2,
    .asyncWrite fun _ status => decide (status = .ok), .handleClosed, .handleClosed]

def openConnection : UvlTcp := .start 100 (fun _ => .ok) (fun _ => false) (fun _ => false) fun _ => false

theorem write_requests_complete_once_fake :
    CompletesOnce (Proc.runAll lifeStep closeAfterWrite openConnection).events :=
  write_requests_complete_once 100 (fun _ => .ok) (fun _ => false) (fun _ => false) (fun _ => false)
    closeAfterWrite
    ⟨trivial, fun _ _ _ => ⟨by decide +kernel, by decide +kernel⟩, trivial,
      fun _ _ _ => ⟨by decide +kernel, by decide +kernel⟩, trivial, trivial, trivial⟩

/-- Two acknowledged requests; the callback of the first closes the connection. -/
def closeWithinLoop : List LifeInput :=
  [.write [[1]] 1 (by decide) one_lt_two_pow_32, .write [[2]] 1 (by decide) one_lt_two_pow_32,
    .asyncWrite fun _ _ => false, .sent 2,
    .asyncWrite fun req status => decide (req = 0 ∧ status = .ok)]

/-- The second request is cancelled, and then used and reported again. -/
theorem write_request_completes_twice :
    completions (Proc.runAll lifeStep closeWithinLoop openConnection).events = [0, 1, 1] ∧
      ¬ CompletesOnce (Proc.runAll lifeStep closeWithinLoop openConnection).events := by
  have twice : completions (Proc.runAll lifeStep closeWithinLoop openConnection).events = [0, 1, 1] := by
    decide +kernel
  refine ⟨twice, fun completes => ?_⟩
  have once := completes.once
  rw [twice] at once
  exact absurd once (by decide)

end SwitchLanPlay.UvLwip.Lifetime
