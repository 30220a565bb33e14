import SwitchLanPlay.Library.Relational
import SwitchLanPlay.UvLwip.Completion
import SwitchLanPlay.UvLwip.QueueInvariant

/-!
# The queue of a connection

The write queue is embedded twice, by itself and as a part of the life of a
connection.  While no call of lwIP fails and nobody closes, both do the same.
-/

namespace SwitchLanPlay.UvLwip.Lifetime

open Library

/-- An open connection that carries the queue `s`: it is halted as soon as the queue
leaves an array or the list. -/
structure Carries (s : UvlQueue) (past : List QueueEvent) (client : UvlTcp) (trace : List LifeEvent) : Prop where
  queue : client.queue = s
  opened : client.closed = false
  kept : client.closing = false
  accepting : client.writeFails = fun _ => false
  flushing : client.outputFails = fun _ => false
  halted : client.halted = true ↔ ∃ event ∈ past, event.Fault
  reported : completions trace = UvLwip.completions past

section Carries

variable {s : UvlQueue} {past : List QueueEvent} {client : UvlTcp} {trace : List LifeEvent}

/-- Events that call nobody back. -/
theorem Carries.silent (carries : Carries s past client trace) {events : List LifeEvent}
    (quiet : completions events = []) : Carries s past client (trace ++ events) := by
  refine { carries with reported := ?_ }
  rw [completions_append, quiet, List.append_nil, carries.reported]

theorem Carries.touch (carries : Carries s past client trace) (req : Nat) :
    Carries s past client (trace ++ [.touch req]) :=
  carries.silent rfl

theorem Carries.submit (carries : Carries s past client trace) (req : Nat) :
    Carries s past client (trace ++ [.submit req]) :=
  carries.silent rfl

theorem Carries.plain (carries : Carries s past client trace) (event : QueueEvent) (plain : event.Plain) :
    Carries s (past ++ [event]) client trace := by
  refine { carries with halted := ?_, reported := ?_ }
  · rw [carries.halted]
    cases event <;> first | simp [QueueEvent.Fault, or_and_right, exists_or]; done | cases plain
  · rw [UvLwip.completions_append, carries.reported]
    cases event <;> first | exact (List.append_nil _).symm | cases plain

theorem Carries.fault (carries : Carries s past client trace) (event : QueueEvent) (fault : event.Fault) :
    Carries s (past ++ [event]) { client with halted := true } trace := by
  refine { carries with halted := ?_, reported := ?_ }
  · exact iff_of_true rfl ⟨event, List.mem_append_right _ (List.mem_singleton_self _), fault⟩
  · rw [UvLwip.completions_append, carries.reported]
    cases event <;> first | exact (List.append_nil _).symm | cases fault

theorem Carries.report (carries : Carries s past client trace) (req : Nat) (status : WriteStatus) :
    Carries s (past ++ [.writeCb req]) client (trace ++ [.writeCb req status]) := by
  refine { carries with halted := ?_, reported := ?_ }
  · rw [carries.halted]
    simp [QueueEvent.Fault, or_and_right, exists_or]
  · rw [UvLwip.completions_append, completions_append, carries.reported]
    rfl

theorem Carries.change (carries : Carries s past client trace) (f : UvlQueue → UvlQueue) :
    Carries (f s) past { client with queue := f client.queue } trace :=
  { carries with queue := congrArg f carries.queue }

end Carries

/-- Both sides change the queue. -/
theorem paired_onQueue (f : UvlQueue → UvlQueue) :
    Proc.Paired Carries (Proc.update f) (onQueue f) fun _ _ => Carries :=
  Proc.paired_update fun _ _ _ _ carries => carries.change f

theorem paired_modifyReq (req : Nat) (f : UvlWrite → UvlWrite) :
    Proc.Paired Carries (UvLwip.modifyReq req f) (modifyReq req f) fun _ _ => Carries :=
  (paired_onQueue _).emit_right fun _ _ _ _ carries => carries.touch req

/-- Both sides read the same queue. -/
theorem paired_read_queue {α β : Type} {next : UvlQueue → Proc UvlQueue QueueEvent α} {next' : UvlTcp → Life β}
    {after : α → β → UvlQueue → List QueueEvent → UvlTcp → List LifeEvent → Prop}
    (each : ∀ client : UvlTcp, client.closed = false → client.closing = false →
      Proc.Paired Carries (next client.queue) (next' client) after) :
    Proc.Paired Carries (Proc.read >>= next) (Proc.read >>= next') after := by
  intro s past client trace carries
  obtain rfl := carries.queue
  simpa using each client carries.opened carries.kept _ past client trace carries

/-! ## Writing -/

theorem paired_tcpWrite (bytes : Bytes) :
    Proc.Paired Carries (UvLwip.tcpWrite bytes) (tcpWrite bytes)
      (fun answer answer' s past client trace => answer' = some answer ∧ Carries s past client trace) := by
  intro s past client trace carries
  obtain rfl := carries.queue
  have accepts : client.writeFails 0 = false := congrFun carries.accepting 0
  have still : (fun call => client.writeFails (call + 1)) = fun _ => false := by
    rw [carries.accepting]
  have took := carries.change fun queue => { queue with results := fun call => queue.results (call + 1) }
  cases answer : client.queue.results 0 with
  | mem =>
      simpa [UvLwip.tcpWrite, tcpWrite, onQueue, accepts, answer] using { took with accepting := still }
  | ok =>
      have written := (took.change fun queue =>
        { queue with
          sndbuf := queue.sndbuf - bytes.length
          unacked := queue.unacked + bytes.length }).plain (.tcpWrite bytes) trivial
      simpa [UvLwip.tcpWrite, tcpWrite, onQueue, accepts, answer] using { written with accepting := still }

/-- The two results of the loop. -/
def Returns (mayNext : Bool) (ret : Option Int) : Prop := ret = if mayNext then none else some 0

theorem paired_writeLoop (req : Nat) (buf : Bytes) (room sent : Nat) :
    Proc.Paired Carries (UvLwip.writeLoop req buf room sent) (writeLoop req buf room sent)
      (fun mayNext ret s past client trace => Returns mayNext ret ∧ Carries s past client trace) := by
  induction room using Nat.strong_induction_on generalizing sent with
  | _ room ih =>
      rw [UvLwip.writeLoop, writeLoop]
      by_cases full : min (buf.length - sent) room = 0
      · rw [dif_pos full, dif_pos full]
        exact Proc.paired_pure fun _ _ _ _ carries => ⟨rfl, carries⟩
      rw [dif_neg full, dif_neg full]
      refine (paired_tcpWrite _).bind _ fun answer answer' => ?_
      refine Proc.Paired.of_fact (fun _ _ _ _ pre => pre.1) fun same => ?_
      subst same
      cases answer with
      | mem => exact Proc.paired_pure fun _ _ _ _ pre => ⟨rfl, pre.2⟩
      | ok =>
          refine ((paired_modifyReq req _).strengthen fun _ _ _ _ pre => pre.2).bind _ fun _ _ => ?_
          refine Proc.paired_ite Iff.rfl (fun _ => ih _ (by omega) _) fun _ => ?_
          exact Proc.paired_pure fun _ _ _ _ carries => ⟨rfl, carries⟩

theorem paired_uvlImpWriteBufToTcp (req : Nat) (buf : Bytes) :
    Proc.Paired Carries (UvLwip.uvlImpWriteBufToTcp req buf) (uvlImpWriteBufToTcp req buf)
      (fun advanced ret s past client trace => ret = (if advanced then 1 else 0) ∧ Carries s past client trace) := by
  refine Proc.Paired.emit_right ?_ fun _ _ _ _ carries => carries.touch req
  refine paired_read_queue fun client opened _ => ?_
  rw [opened, if_neg (by decide)]
  refine (paired_writeLoop req buf _ _).bind _ fun mayNext ret => ?_
  refine Proc.Paired.of_fact (fun _ _ _ _ pre => pre.1) fun same => ?_
  obtain rfl : ret = _ := same
  cases mayNext with
  | false => exact Proc.paired_pure fun _ _ _ _ pre => ⟨rfl, pre.2⟩
  | true =>
      refine Proc.Paired.strengthen ?_ fun _ _ _ _ pre => pre.2
      refine paired_read_queue fun client _ _ => Proc.paired_ite Iff.rfl (fun _ => ?_) fun _ => ?_
      · exact Proc.paired_pure fun _ _ _ _ carries => ⟨rfl, carries⟩
      · refine (paired_modifyReq req _).bind _ fun _ _ => ?_
        exact Proc.paired_pure fun _ _ _ _ carries => ⟨rfl, carries⟩

theorem paired_writeRequest (req : Nat) (bufs : List Bytes) :
    Proc.Paired Carries (UvLwip.writeRequest req bufs) (writeRequest req bufs)
      (Proc.Same Carries) := by
  induction bufs with
  | nil =>
      intro s past client trace carries
      have halts := carries.fault (.outsideArray req) trivial
      simpa [UvLwip.writeRequest, writeRequest, halt, Proc.Same] using halts
  | cons buf bufs ih =>
      refine (paired_uvlImpWriteBufToTcp req buf).bind _ fun advanced ret => ?_
      refine Proc.Paired.of_fact (fun _ _ _ _ pre => pre.1) fun same => ?_
      subst same
      cases advanced with
      | false => exact Proc.paired_pure fun _ _ _ _ pre => ⟨rfl, pre.2⟩
      | true =>
          refine Proc.Paired.emit_right ?_ fun _ _ _ _ pre => pre.2.touch req
          exact paired_read_queue fun client _ _ =>
            Proc.paired_ite Iff.rfl (fun _ => Proc.paired_return _) fun _ => ih

theorem paired_writeRequests (queue : List Nat) :
    Proc.Paired Carries (UvLwip.writeRequests queue) (writeRequests queue) fun _ _ => Carries := by
  induction queue with
  | nil => exact Proc.paired_done
  | cons req rest ih =>
      refine paired_read_queue fun client _ _ => (paired_writeRequest req _).bind_same fun goesOn => ?_
      exact Proc.paired_ite Iff.rfl (fun _ => ih) fun _ => Proc.paired_done

/-- The first loop of `uvl_imp_write_to_tcp` only looks at the requests. -/
theorem skipWritten_outcome (queue : List Nat) (client : UvlTcp) :
    (skipWritten queue client).value =
        queue.dropWhile (fun req => !decide ((client.queue.reqs req).sentBufs < (client.queue.reqs req).sendNbufs)) ∧
      (skipWritten queue client).state = client ∧ completions (skipWritten queue client).events = [] := by
  induction queue with
  | nil => exact ⟨rfl, rfl, rfl⟩
  | cons req rest ih =>
      by_cases left : (client.queue.reqs req).sentBufs < (client.queue.reqs req).sendNbufs
      · simp [skipWritten, left, completions]
      · simpa [skipWritten, left, completions] using ih

theorem paired_tcpOutput : Proc.Paired Carries (Proc.emit .tcpOutput) tcpOutput fun _ _ => Carries := by
  intro s past client trace carries
  have flushes : client.outputFails 0 = false := congrFun carries.flushing 0
  have still : (fun call => client.outputFails (call + 1)) = fun _ => false := by
    rw [carries.flushing]
  have put : Carries s (past ++ [.tcpOutput])
      { client with closed := false, outputFails := fun call => client.outputFails (call + 1) } trace :=
    { carries.plain .tcpOutput trivial with opened := rfl, flushing := still }
  simpa [tcpOutput, carries.opened, flushes] using put

theorem paired_uvlImpWriteToTcp :
    Proc.Paired Carries UvLwip.uvlImpWriteToTcp uvlImpWriteToTcp fun _ _ => Carries := by
  intro s past client trace carries
  obtain rfl := carries.queue
  obtain ⟨rest, unchanged, silent⟩ := skipWritten_outcome client.queue.queue client
  have skipped := carries.silent silent
  have wrote := (paired_writeRequests (skipWritten client.queue.queue client).value).bind _
    (fun _ _ => paired_tcpOutput) _ past client _ skipped
  rw [UvLwip.uvlImpWriteToTcp, Proc.read_bind, ← rest, uvlImpWriteToTcp, Proc.read_bind]
  simpa [unchanged] using wrote

/-! ## Callbacks -/

/-- No write callback closes the connection. -/
def neverCloses (_ : Nat) (_ : WriteStatus) : Bool := false

theorem paired_completeRequests (queue : List Nat) :
    Proc.Paired Carries (UvLwip.completeRequests queue) (completeRequests neverCloses queue) fun _ _ => Carries := by
  induction queue with
  | nil => exact Proc.paired_done
  | cons req rest ih =>
      refine Proc.Paired.emit_right ?_ fun _ _ _ _ carries => carries.touch req
      refine paired_read_queue fun client _ _ => Proc.paired_ite Iff.rfl (fun _ => ?_) fun _ => ?_
      · refine (paired_onQueue _).bind _ fun _ _ => ?_
        have reports : Proc.Paired Carries (Proc.emit (.writeCb req)) (writeCallback neverCloses req .ok)
            fun _ _ => Carries := by
          intro s past client trace carries
          simpa [writeCallback, Lifetime.report, neverCloses] using carries.report req .ok
        exact reports.bind _ fun _ _ => ih
      · exact Proc.paired_done

theorem afterLoop_of_some {client : UvlTcp} {req : Nat} (opened : client.closed = false)
    (cur : client.queue.curWrite = some req) : afterLoop neverCloses client = uvlImpWriteToTcp client := by
  have filled : ¬ client.queue.curWrite = none := by
    rw [cur]
    exact Option.some_ne_none req
  have kept : onQueue (fun queue => if queue.curWrite = none then { queue with tailWrite := none } else queue)
      client = ⟨(), client, []⟩ := by
    simp [onQueue, Proc.update, if_neg filled]
  rw [afterLoop, Proc.bind_of_silent kept, Proc.read_bind, opened, if_neg Bool.false_ne_true, if_neg filled]

theorem paired_uvlAsyncTcpWriteCb :
    Proc.Paired Carries UvLwip.uvlAsyncTcpWriteCb (uvlAsyncTcpWriteCb neverCloses) fun _ _ => Carries := by
  refine paired_read_queue fun client _ _ => (paired_completeRequests client.queue.queue).bind _ fun _ _ => ?_
  intro s past client trace carries
  obtain rfl := carries.queue
  rw [Proc.read_bind]
  cases cur : client.queue.curWrite with
  | none =>
      have ended := carries.change fun queue => { queue with tailWrite := none }
      simpa [afterLoop, onQueue, cur, carries.opened] using ended
  | some req =>
      rw [afterLoop_of_some carries.opened cur]
      exact paired_uvlImpWriteToTcp _ past client trace carries

theorem paired_consume (queue : List Nat) (len : Nat) :
    Proc.Paired Carries (UvLwip.consume queue len) (consume queue len) fun _ _ => Carries := by
  induction queue generalizing len with
  | nil =>
      refine Proc.paired_ite Iff.rfl (fun _ => Proc.paired_done) fun _ => ?_
      intro s past client trace carries
      simpa [halt] using carries.fault .nullRequest trivial
  | cons req rest ih =>
      refine Proc.paired_ite Iff.rfl (fun _ => Proc.paired_done) fun _ => ?_
      refine paired_read_queue fun client _ _ => ?_
      exact (paired_modifyReq req _).bind _ fun _ _ => ih _

theorem paired_uvlClientSentFunc (len : Nat) :
    Proc.Paired Carries (UvLwip.uvlClientSentFunc len) (uvlClientSentFunc len) fun _ _ => Carries := by
  refine Proc.Paired.emit_left ?_ fun _ _ _ _ carries => carries.plain (.acked len) trivial
  refine paired_read_queue fun client _ _ => ?_
  exact (paired_consume client.queue.queue len).bind _ fun _ _ => paired_onQueue _

/-! ## Runs -/

/-- What happens to the queue, as it happens to a connection. -/
def LifeInput.ofQueue : QueueInput → LifeInput
  | .write bufs nbufs within wide => .write bufs nbufs within wide
  | .asyncWrite => .asyncWrite neverCloses
  | .sent len => .sent len
  | .sndbuf room => .sndbuf room

theorem paired_liveStep (input : QueueInput) :
    Proc.Paired Carries (queueStep input) (liveStep (.ofQueue input)) fun _ _ => Carries := by
  cases input with
  | write bufs nbufs within wide =>
      intro s past client trace carries
      have pushed := carries.change fun queue => queue.uvlWrite bufs nbufs
      cases tail : client.queue.tailWrite with
      | none =>
          have submitted := pushed.submit client.queue.submitted
          simpa [queueStep, LifeInput.ofQueue, liveStep, uvlWrite, touchTail, onQueue, carries.kept, tail] using submitted
      | some last =>
          have submitted := (pushed.touch last).submit client.queue.submitted
          simpa [queueStep, LifeInput.ofQueue, liveStep, uvlWrite, touchTail, onQueue, carries.kept, tail] using submitted
  | asyncWrite =>
      refine paired_read_queue fun client opened kept => ?_
      refine Proc.paired_ite (by simp [kept]) (fun _ => ?_) fun _ => ?_
      · exact (paired_onQueue _).bind _ fun _ _ => paired_uvlAsyncTcpWriteCb
      · exact Proc.paired_done
  | sent len =>
      refine Proc.paired_read_right fun client => ?_
      refine Proc.Paired.of_fact (fun _ _ _ _ pre => pre.1 ▸ pre.2.opened) fun opened => ?_
      rw [opened, if_neg Bool.false_ne_true]
      refine Proc.Paired.strengthen ?_ fun _ _ _ _ pre => pre.2
      refine paired_read_queue fun client _ _ => Proc.paired_ite Iff.rfl (fun _ => ?_) fun _ => ?_
      · exact (paired_onQueue _).bind _ fun _ _ => paired_uvlClientSentFunc len.toNat
      · exact Proc.paired_done
  | sndbuf room => exact paired_onQueue _

/-- The connection carries the queue, or it is halted because the queue left an array or the list. -/
def Follows (s : UvlQueue) (past : List QueueEvent) (client : UvlTcp) (trace : List LifeEvent) : Prop :=
  Carries s past client trace ∨ client.halted = true ∧ ∃ event ∈ past, event.Fault

theorem paired_lifeStep (input : QueueInput) :
    Proc.Paired Follows (queueStep input) (lifeStep (.ofQueue input)) fun _ _ => Follows := by
  intro s past client trace follows
  by_cases halted : client.halted = true
  · have fault : ∃ event ∈ past, event.Fault := follows.elim (fun carries => carries.halted.mp halted) And.right
    obtain ⟨event, member, fault⟩ := fault
    rw [lifeStep, Proc.read_bind, if_pos halted]
    exact .inr ⟨halted, event, List.mem_append_left _ member, fault⟩
  · obtain carries | ⟨never, -⟩ := follows
    · rw [lifeStep, Proc.read_bind, if_neg halted]
      exact .inl (paired_liveStep input s past client trace carries)
    · exact absurd never halted

theorem carries_start (sndbuf : UInt16) (results : Nat → TcpErr) (closeFails : Nat → Bool) :
    Carries (.start sndbuf results) [] (.start sndbuf results (fun _ => false) (fun _ => false) closeFails) [] where
  queue := rfl
  opened := rfl
  kept := rfl
  accepting := rfl
  flushing := rfl
  halted := iff_of_false Bool.false_ne_true fun ⟨_, never, _⟩ => by cases never
  reported := rfl

/-- While no call of lwIP fails and nobody closes, the life of a connection is that of
its queue: it is halted exactly when the queue leaves an array or the list, and up to
there it has the same requests and calls back for the same of them. -/
theorem life_carries_queue (inputs : List QueueInput) (sndbuf : UInt16) (results : Nat → TcpErr)
    (closeFails : Nat → Bool) :
    let queue := Proc.runAll queueStep inputs (.start sndbuf results)
    let life := Proc.runAll lifeStep (inputs.map .ofQueue)
      (.start sndbuf results (fun _ => false) (fun _ => false) closeFails)
    (life.state.halted = true ↔ ∃ event ∈ queue.events, event.Fault) ∧
      (life.state.halted = false →
        life.state.queue = queue.state ∧ completions life.events = UvLwip.completions queue.events) := by
  have each : ∀ input, Proc.Paired (fun s past client trace => True ∧ Follows s past client trace)
      (queueStep input) ((some (LifeInput.ofQueue input)).elim (pure ()) lifeStep) fun _ _ => Follows :=
    fun input => (paired_lifeStep input).strengthen fun _ _ _ _ pre => pre.2
  have follows := Proc.paired_runAll (fun _ _ => True) (fun input => some (LifeInput.ofQueue input)) each inputs
    _ _ _ _ ⟨Proc.along_of_forall (fun _ _ _ => trivial) _, Or.inl (carries_start sndbuf results closeFails)⟩
  rw [List.filterMap_eq_map'] at follows
  intro queue life
  obtain carries | ⟨halted, fault⟩ := follows
  · exact ⟨carries.halted, fun _ => ⟨carries.queue, carries.reported⟩⟩
  · exact ⟨iff_of_true halted fault, fun running => absurd halted (by rw [running]; decide)⟩

end SwitchLanPlay.UvLwip.Lifetime
