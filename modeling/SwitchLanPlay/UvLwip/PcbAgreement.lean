import SwitchLanPlay.UvLwip.Pcb
import SwitchLanPlay.UvLwip.QueueAgreement

/-!
# The calls to lwIP and the life of a connection

`uv_lwip.c` is embedded for its calls to lwIP and for the uses of its requests.
With an owner that does nothing in its callbacks, both leave the same connection,
whatever fails and whoever closes.  What is left of the reading side is what the
reading side leaves by itself.
-/

namespace SwitchLanPlay.UvLwip.Pcb

open Library
open Lifetime (neverCloses)

/-- What the life of the connection has of it. -/
def UvlTcp.life (client : UvlTcp) : Lifetime.UvlTcp where
  queue := client.queue
  writeFails := client.writeFails
  outputFails := client.outputFails
  closeFails := client.closeFails
  closed := client.closed
  readCb := client.readCb
  closing := client.closing
  closedHandle := client.closedHandle
  openHandles := client.openHandles
  halted := client.halted

/-- The connection of a passive owner, whose life is this one. -/
structure Agrees (closing : Bool) (client : UvlTcp) (life : Lifetime.UvlTcp) : Prop where
  life : client.life = life
  phase : client.closing = closing
  pcb : closing = false → client.pcb = !client.closed
  silent : client.closed = true → client.readCb = false
  passive : client.reactions = fun _ => .nothing

/-- The traces of the two sides are about different things. -/
abbrev Beside (closing : Bool) (client : UvlTcp) (_ : List PcbEvent) (life : Lifetime.UvlTcp)
    (_ : List Lifetime.LifeEvent) : Prop := Agrees closing client life

/-- A callback of the owner that does nothing. -/
def Passive (own : Client Unit) : Prop :=
  ∀ client : UvlTcp, client.reactions = (fun _ => .nothing) → own client = ⟨(), client, []⟩

theorem passive_pure : Passive (pure ()) := fun _ _ => rfl

theorem passive_owner : Passive owner := by
  intro client passive
  rcases client with ⟨⟩
  subst passive
  rfl

section Rules

variable {α β : Type} {closing : Bool} {m : Client α} {m' : Lifetime.Life β}
  {after : α → β → UvlTcp → List PcbEvent → Lifetime.UvlTcp → List Lifetime.LifeEvent → Prop}

/-- The owner is called, or lwIP: nothing that the life of the connection has changes. -/
theorem paired_quiet_left {first : Client Unit}
    (quiet : ∀ client : UvlTcp, client.reactions = (fun _ => .nothing) → (first client).state = client)
    (paired : Proc.Paired (Beside closing) m m' after) :
    Proc.Paired (Beside closing) (first >>= fun _ => m) m' after := by
  intro client past life trace agrees
  have done := paired client (past ++ (first client).events) life trace agrees
  simpa [quiet client agrees.passive] using done

theorem paired_quiet_right {first : Lifetime.Life Unit} (quiet : ∀ life, (first life).state = life)
    (paired : Proc.Paired (Beside closing) m m' after) :
    Proc.Paired (Beside closing) m (first >>= fun _ => m') after := by
  intro client past life trace agrees
  have done := paired client past life (trace ++ (first life).events) agrees
  simpa [quiet life] using done

/-- Both sides read the same connection. -/
theorem paired_read_life {next : UvlTcp → Client α} {next' : Lifetime.UvlTcp → Lifetime.Life β}
    (each : ∀ client : UvlTcp, Agrees closing client client.life →
      Proc.Paired (Beside closing) (next client) (next' client.life) after) :
    Proc.Paired (Beside closing) (Proc.read >>= next) (Proc.read >>= next') after := by
  intro client past life trace agrees
  obtain rfl := agrees.life
  simpa using each client agrees client past client.life trace agrees

theorem paired_update_life {f : UvlTcp → UvlTcp} {g : Lifetime.UvlTcp → Lifetime.UvlTcp}
    (agree : ∀ client : UvlTcp, Agrees closing client client.life → Agrees closing (f client) (g client.life)) :
    Proc.Paired (Beside closing) (Proc.update f) (Proc.update g) fun _ _ => Beside closing := by
  refine Proc.paired_update fun client past life trace agrees => ?_
  obtain rfl := agrees.life
  exact agree client agrees

theorem paired_onQueue (f : UvlQueue → UvlQueue) :
    Proc.Paired (Beside closing) (onQueue f) (Lifetime.onQueue f) fun _ _ => Beside closing :=
  paired_update_life fun _ agrees => { agrees with life := rfl }

theorem paired_modifyReq (req : Nat) (f : UvlWrite → UvlWrite) :
    Proc.Paired (Beside closing) (modifyReq req f) (Lifetime.modifyReq req f) fun _ _ => Beside closing :=
  paired_quiet_right (fun _ => rfl) (paired_onQueue _)

theorem paired_halt :
    Proc.Paired (Beside closing) halt Lifetime.halt fun _ _ => Beside closing :=
  paired_update_life fun _ agrees => { agrees with life := rfl }

end Rules

theorem call_quiet (fn : LwipFn) (client : UvlTcp) : (call fn client).state = client := rfl

theorem removeCallbacks_quiet (client : UvlTcp) : (removeCallbacks client).state = client := rfl

/-! ## Closing -/

section Closing

variable {closing : Bool} {own : Client Unit} (passive : Passive own)
include passive

theorem paired_uvlClientFreed :
    Proc.Paired (Beside closing) (uvlClientFreed own) Lifetime.uvlClientFreed fun _ _ => Beside closing := by
  intro client past life trace agrees
  obtain rfl := agrees.life
  have freed : Agrees closing { client with pcb := false, closed := true, readCb := false }
      { client.life with closed := true, readCb := false } :=
    { agrees with life := rfl, pcb := fun _ => rfl, silent := fun _ => rfl }
  have idle := passive { client with pcb := false, closed := true, readCb := true } agrees.passive
  by_cases reads : client.readCb = true
  · have reads' : client.life.readCb = true := reads
    simpa [uvlClientFreed, Lifetime.uvlClientFreed, reads, reads', idle] using freed
  · have unread : client.readCb = false := Bool.eq_false_iff.mpr reads
    have unread' : client.life.readCb = false := unread
    simpa [uvlClientFreed, Lifetime.uvlClientFreed, unread, unread'] using freed

/-- Whether `tcp_close` fails is found at the same place. -/
theorem paired_uvlClientCloseFunc :
    Proc.Paired (Beside closing) (uvlClientCloseFunc own) Lifetime.uvlClientCloseFunc (Proc.Same (Beside closing)) := by
  refine paired_quiet_left (fun client _ => removeCallbacks_quiet client)
    (paired_quiet_left (fun client _ => call_quiet _ client) (paired_read_life fun client agrees => ?_))
  refine Proc.Paired.bind _ (paired_update_life fun _ agrees => { agrees with life := rfl }) fun _ _ => ?_
  by_cases fails : client.closeFails 0 = true
  · have fails' : client.life.closeFails 0 = true := fails
    rw [if_pos fails, if_pos fails']
    refine paired_quiet_left (fun client _ => removeCallbacks_quiet client)
      (paired_quiet_left (fun client _ => call_quiet _ client) ?_)
    refine (paired_uvlClientFreed passive).bind _ fun _ _ => ?_
    exact Proc.paired_return _
  · have fails' : ¬ client.life.closeFails 0 = true := fails
    rw [if_neg fails, if_neg fails']
    refine (paired_uvlClientFreed passive).bind _ fun _ _ => ?_
    exact Proc.paired_return _

theorem paired_cancelLoop {writeCb : Nat → Lifetime.WriteStatus → Lifetime.Life Unit}
    (quiet : ∀ req status life, (writeCb req status life).state = life) (queue : List Nat) :
    Proc.Paired (Beside closing) (cancelLoop own queue) (Lifetime.cancelLoop writeCb queue)
      fun _ _ => Beside closing := by
  induction queue with
  | nil => exact Proc.paired_done
  | cons req rest ih =>
      refine paired_quiet_left (fun client idle => by rw [passive client idle]) ?_
      exact paired_quiet_right (fun _ => rfl) (paired_quiet_right (quiet req .canceled) ih)

theorem paired_cancelRead :
    Proc.Paired (Beside closing) (cancelRead own) Lifetime.cancelRead fun _ _ => Beside closing := by
  refine paired_read_life fun client _ => Proc.paired_ite Iff.rfl (fun _ => ?_) fun _ => ?_
  · refine paired_quiet_left (fun client idle => by rw [passive client idle]) ?_
    refine paired_quiet_right (fun _ => rfl) (paired_update_life fun _ agrees => ?_)
    exact { agrees with life := rfl, silent := fun _ => rfl }
  · exact Proc.paired_done

theorem paired_uvlCancelReqs {writeCb : Nat → Lifetime.WriteStatus → Lifetime.Life Unit}
    (quiet : ∀ req status life, (writeCb req status life).state = life) :
    Proc.Paired (Beside closing) (uvlCancelReqs own) (Lifetime.uvlCancelReqs writeCb) fun _ _ => Beside closing :=
  paired_read_life fun _ _ => (paired_cancelLoop passive quiet _).bind _ fun _ _ =>
    (paired_onQueue _).bind _ fun _ _ => paired_cancelRead passive

theorem paired_closeIfOpen :
    Proc.Paired (Beside closing) (closeIfOpen own) Lifetime.closeIfOpen fun _ _ => Beside closing := by
  refine paired_read_life fun client _ => Proc.paired_ite Iff.rfl (fun _ => ?_) fun _ => ?_
  · exact Proc.paired_done
  · exact (paired_uvlClientCloseFunc passive).bind_same fun _ => Proc.paired_done

end Closing

/-- In any phase of the owner. -/
def Alongside (client : UvlTcp) (_ : List PcbEvent) (life : Lifetime.UvlTcp) (_ : List Lifetime.LifeEvent) : Prop :=
  ∃ closing, Agrees closing client life

theorem report_quiet (req : Nat) (status : Lifetime.WriteStatus) (life : Lifetime.UvlTcp) :
    (Lifetime.report req status life).state = life := rfl

theorem paired_uvlTcpClose : Proc.Paired Alongside uvlTcpClose Lifetime.uvlTcpClose fun _ _ => Alongside := by
  rintro client past life trace ⟨closing, agrees⟩
  obtain rfl := agrees.life
  by_cases closes : client.closing = true
  · have closes' : client.life.closing = true := closes
    rw [uvlTcpClose, Proc.read_bind, if_pos closes, Lifetime.uvlTcpClose, Proc.read_bind, if_pos closes']
    exact ⟨closing, agrees⟩
  · have closes' : ¬ client.life.closing = true := closes
    have marked : Agrees true { client with closing := true } { client.life with closing := true } :=
      { agrees with life := rfl, phase := rfl, pcb := fun never => by cases never }
    have freed : Proc.Paired (Beside true) (closeIfOpen (pure ())) Lifetime.closeIfOpen fun _ _ => Beside true :=
      paired_closeIfOpen passive_pure
    have closed := freed.bind _ (fun _ _ => paired_uvlCancelReqs passive_pure report_quiet) _ past _ trace marked
    rw [uvlTcpClose, Proc.read_bind, if_neg closes, Lifetime.uvlTcpClose, Proc.read_bind, if_neg closes']
    exact ⟨true, by simpa using closed⟩

/-! ## Writing -/

section Writing

variable {closing : Bool}

theorem paired_tcpWrite (bytes : Bytes) :
    Proc.Paired (Beside closing) (tcpWrite bytes) (Lifetime.tcpWrite bytes) (Proc.Same (Beside closing)) := by
  refine paired_quiet_left (fun client _ => call_quiet _ client) (paired_read_life fun client _ => ?_)
  refine Proc.Paired.bind _ (paired_update_life fun _ agrees => { agrees with life := rfl }) fun _ _ => ?_
  refine Proc.paired_ite Iff.rfl (fun _ => ?_) fun _ => ?_
  · refine paired_quiet_left (fun _ _ => rfl) ?_
    exact Proc.paired_return _
  · refine (paired_onQueue _).bind _ fun _ _ => ?_
    have same : client.life.queue.results 0 = client.queue.results 0 := rfl
    rw [same]
    cases client.queue.results 0 with
    | mem => exact Proc.paired_return _
    | ok =>
        refine (paired_onQueue _).bind _ fun _ _ => ?_
        exact Proc.paired_return _

theorem paired_writeLoop (req : Nat) (buf : Bytes) (room sent : Nat) :
    Proc.Paired (Beside closing) (writeLoop req buf room sent) (Lifetime.writeLoop req buf room sent)
      (Proc.Same (Beside closing)) := by
  induction room using Nat.strong_induction_on generalizing sent with
  | _ room ih =>
      rw [writeLoop, Lifetime.writeLoop]
      refine paired_quiet_left (fun client _ => call_quiet _ client) ?_
      by_cases full : min (buf.length - sent) room = 0
      · rw [dif_pos full, dif_pos full]
        exact Proc.paired_return _
      rw [dif_neg full, dif_neg full]
      refine (paired_tcpWrite _).bind_same fun answer => ?_
      rcases answer with none | answer
      · exact (paired_uvlClientCloseFunc passive_owner).bind_same fun err => Proc.paired_return _
      cases answer with
      | mem => exact Proc.paired_return _
      | ok =>
          refine (paired_modifyReq req _).bind _ fun _ _ => ?_
          exact Proc.paired_ite Iff.rfl (fun _ => ih _ (by omega) _) fun _ => Proc.paired_return _

theorem paired_mayNext (req : Nat) :
    Proc.Paired (Beside closing) (mayNext req) (Lifetime.mayNext req) (Proc.Same (Beside closing)) := by
  refine paired_quiet_left (fun client _ => call_quiet _ client) ?_
  refine paired_read_life fun client _ => Proc.paired_ite Iff.rfl (fun _ => ?_) fun _ => ?_
  · exact Proc.paired_return _
  · refine (paired_modifyReq req _).bind _ fun _ _ => ?_
    exact Proc.paired_return _

theorem Agrees.pcb_iff {client : UvlTcp} {life : Lifetime.UvlTcp} (agrees : Agrees false client life) :
    client.pcb = true ↔ ¬ client.closed = true := by
  rw [agrees.pcb rfl]
  simp

theorem paired_sndbufHalts : Proc.Paired (Beside closing) sndbufHalts Lifetime.halt fun _ _ => Beside closing :=
  paired_quiet_left (fun client _ => call_quiet _ client) paired_halt

theorem paired_uvlImpWriteBufToTcp (req : Nat) (buf : Bytes) :
    Proc.Paired (Beside false) (uvlImpWriteBufToTcp req buf) (Lifetime.uvlImpWriteBufToTcp req buf)
      (Proc.Same (Beside false)) := by
  refine paired_quiet_right (fun _ => rfl) (paired_read_life fun client agrees => ?_)
  by_cases closed : client.closed = true
  · have noPcb : ¬ client.pcb = true := fun pcb => agrees.pcb_iff.mp pcb closed
    have closed' : client.life.closed = true := closed
    rw [if_neg noPcb, if_pos closed']
    refine paired_sndbufHalts.bind _ fun _ _ => ?_
    exact Proc.paired_return _
  · have closed' : ¬ client.life.closed = true := closed
    rw [if_pos (agrees.pcb_iff.mpr closed), if_neg closed']
    refine (paired_writeLoop req buf _ _).bind_same fun ret => ?_
    cases ret with
    | some ret => exact Proc.paired_return _
    | none => exact paired_mayNext req

theorem paired_writeRequest (req : Nat) (bufs : List Bytes) :
    Proc.Paired (Beside false) (writeRequest req bufs) (Lifetime.writeRequest req bufs) (Proc.Same (Beside false)) := by
  induction bufs with
  | nil =>
      refine paired_sndbufHalts.bind _ fun _ _ => ?_
      exact Proc.paired_return _
  | cons buf bufs ih =>
      refine (paired_uvlImpWriteBufToTcp req buf).bind_same fun ret => ?_
      refine Proc.paired_ite Iff.rfl (fun _ => ?_) fun _ => ?_
      · exact Proc.paired_return _
      · refine paired_quiet_right (fun _ => rfl) (paired_read_life fun client _ => ?_)
        refine Proc.paired_ite Iff.rfl (fun _ => ?_) fun _ => ih
        exact Proc.paired_return _

theorem paired_writeRequests (queue : List Nat) :
    Proc.Paired (Beside false) (writeRequests queue) (Lifetime.writeRequests queue) fun _ _ => Beside false := by
  induction queue with
  | nil => exact Proc.paired_done
  | cons req rest ih =>
      refine paired_read_life fun client _ => (paired_writeRequest req _).bind_same fun goesOn => ?_
      exact Proc.paired_ite Iff.rfl (fun _ => ih) fun _ => Proc.paired_done

theorem paired_tcpOutput :
    Proc.Paired (Beside false) tcpOutput Lifetime.tcpOutput fun _ _ => Beside false := by
  refine paired_quiet_left (fun client _ => call_quiet _ client) (paired_read_life fun client agrees => ?_)
  by_cases closed : client.closed = true
  · have noPcb : ¬ client.pcb = true := fun pcb => agrees.pcb_iff.mp pcb closed
    have closed' : client.life.closed = true := closed
    rw [if_neg noPcb, if_pos closed']
    exact paired_halt
  · have closed' : ¬ client.life.closed = true := closed
    rw [if_pos (agrees.pcb_iff.mpr closed), if_neg closed']
    refine Proc.Paired.bind _ (paired_update_life fun _ agrees => { agrees with life := rfl }) fun _ _ => ?_
    refine Proc.paired_ite Iff.rfl (fun _ => ?_) fun _ => Proc.paired_done
    exact (paired_uvlClientCloseFunc passive_owner).bind_same fun _ => Proc.paired_done

theorem paired_uvlImpWriteToTcp :
    Proc.Paired (Beside false) uvlImpWriteToTcp Lifetime.uvlImpWriteToTcp fun _ _ => Beside false := by
  intro client past life trace agrees
  obtain rfl := agrees.life
  obtain ⟨rest, unchanged, -⟩ := Lifetime.skipWritten_outcome client.queue.queue client.life
  have wrote := (paired_writeRequests (Lifetime.skipWritten client.queue.queue client.life).value).bind _
    (fun _ _ => paired_tcpOutput) _ past _ (trace ++ (Lifetime.skipWritten client.queue.queue client.life).events) agrees
  have first : (Lifetime.skipWritten client.queue.queue client.life).value =
      client.queue.queue.dropWhile fun req =>
        !decide ((client.queue.reqs req).sentBufs < (client.queue.reqs req).sendNbufs) := rest
  have same : client.life.queue.queue = client.queue.queue := rfl
  rw [uvlImpWriteToTcp, Proc.read_bind, ← first, Lifetime.uvlImpWriteToTcp, Proc.read_bind, same]
  simpa [unchanged] using wrote

end Writing

/-! ## Callbacks -/

theorem writeCallback_quiet (req : Nat) (status : Lifetime.WriteStatus) (life : Lifetime.UvlTcp) :
    (Lifetime.writeCallback neverCloses req status life).state = life := rfl

theorem owner_quiet (client : UvlTcp) (passive : client.reactions = fun _ => .nothing) :
    (owner client).state = client := by
  rw [passive_owner client passive]

theorem paired_completeRequests (queue : List Nat) :
    Proc.Paired (Beside false) (completeRequests queue) (Lifetime.completeRequests neverCloses queue)
      fun _ _ => Beside false := by
  induction queue with
  | nil => exact Proc.paired_done
  | cons req rest ih =>
      refine paired_quiet_right (fun _ => rfl) (paired_read_life fun client _ => ?_)
      refine Proc.paired_ite Iff.rfl (fun _ => ?_) fun _ => Proc.paired_done
      refine (paired_onQueue _).bind _ fun _ _ => ?_
      exact paired_quiet_left owner_quiet (paired_quiet_right (writeCallback_quiet req .ok) ih)

theorem paired_afterLoop :
    Proc.Paired (Beside false) afterLoop (Lifetime.afterLoop neverCloses) fun _ _ => Beside false := by
  refine (paired_onQueue _).bind _ fun _ _ => paired_read_life fun client _ => ?_
  refine Proc.paired_ite Iff.rfl (fun _ => paired_uvlCancelReqs passive_owner writeCallback_quiet) fun _ => ?_
  exact Proc.paired_ite Iff.rfl (fun _ => Proc.paired_done) fun _ => paired_uvlImpWriteToTcp

theorem paired_uvlAsyncTcpWriteCb :
    Proc.Paired (Beside false) uvlAsyncTcpWriteCb (Lifetime.uvlAsyncTcpWriteCb neverCloses)
      fun _ _ => Beside false :=
  paired_read_life fun _ _ => (paired_completeRequests _).bind _ fun _ _ => paired_afterLoop

section Callbacks

variable {closing : Bool}

theorem paired_consume (queue : List Nat) (len : Nat) :
    Proc.Paired (Beside closing) (consume queue len) (Lifetime.consume queue len) fun _ _ => Beside closing := by
  induction queue generalizing len with
  | nil => exact Proc.paired_ite Iff.rfl (fun _ => Proc.paired_done) fun _ => paired_halt
  | cons req rest ih =>
      refine Proc.paired_ite Iff.rfl (fun _ => Proc.paired_done) fun _ => paired_read_life fun client _ => ?_
      exact (paired_modifyReq req _).bind _ fun _ _ => ih _

theorem paired_uvlClientSentFunc (len : Nat) :
    Proc.Paired (Beside closing) (uvlClientSentFunc len) (Lifetime.uvlClientSentFunc len) fun _ _ => Beside closing :=
  paired_read_life fun _ _ => (paired_consume _ len).bind _ fun _ _ => paired_onQueue _

theorem paired_whileOpen {callback : Client Unit} {callback' : Lifetime.Life Unit}
    (paired : Proc.Paired (Beside closing) callback callback' fun _ _ => Beside closing) :
    Proc.Paired (Beside closing) (whileOpen callback) (Lifetime.whileOpen callback') fun _ _ => Beside closing :=
  paired_read_life fun _ _ => Proc.paired_ite Iff.rfl (fun _ => Proc.paired_done) fun _ => paired

theorem paired_uvlTcpCloseHandleCb :
    Proc.Paired (Beside true) uvlTcpCloseHandleCb Lifetime.uvlTcpCloseHandleCb fun _ _ => Beside true := by
  refine Proc.Paired.bind _ (paired_update_life fun _ agrees => { agrees with life := rfl }) fun _ _ => ?_
  refine paired_read_life fun client _ => Proc.paired_ite Iff.rfl (fun _ => ?_) fun _ => Proc.paired_done
  intro client past life trace agrees
  obtain rfl := agrees.life
  have cleared : Agrees true (handlesClosed client).state (Lifetime.handlesClosed client.life).state :=
    { agrees with life := rfl, pcb := fun never => (by cases never), silent := fun _ => rfl }
  exact cleared

end Callbacks

/-! ## Runs -/

/-- What happens to a connection, as its life has it.  The read callback is no part of it. -/
def PcbInput.life : PcbInput → Option Lifetime.LifeInput
  | .write bufs nbufs within wide => some (.write bufs nbufs within wide)
  | .asyncWrite => some (.asyncWrite neverCloses)
  | .asyncRead _ => none
  | .sent len => some (.sent len)
  | .err => some .err
  | .recv buffer => some (.recv buffer)
  | .sndbuf room => some (.sndbuf room)
  | .readStart => some (.read true)
  | .readStop => some (.read false)
  | .close => some .close
  | .handleClosed => some .handleClosed

/-- The owner does not write after it closed the connection. -/
def PcbInput.Allowed (client : UvlTcp) : PcbInput → Prop
  | .write _ _ _ _ => client.closing = false
  | _ => True

section Steps

variable {closing : Bool}

/-- A step that leaves the phase of the owner as it is, allowed or not. -/
theorem paired_within {input : PcbInput} {m : Client Unit} {m' : Lifetime.Life Unit}
    (paired : Proc.Paired (Beside closing) m m' fun _ _ => Beside closing) :
    Proc.Paired (fun client _ life _ => input.Allowed client ∧ Agrees closing client life) m m'
      fun _ _ => Alongside :=
  fun client past life trace pre => ⟨closing, paired client past life trace pre.2⟩

theorem paired_uvlWrite (bufs : List Bytes) (nbufs : Nat) :
    Proc.Paired (Beside closing) (onQueue fun queue => queue.uvlWrite bufs nbufs) (Lifetime.uvlWrite bufs nbufs)
      fun _ _ => Beside closing := by
  refine Proc.paired_read_right fun life => Proc.Paired.strengthen ?_ fun _ _ _ _ pre => pre.2
  have tail : ∀ life', (Lifetime.touchTail life.queue.tailWrite life').state = life' := by
    intro life'
    cases life.queue.tailWrite <;> rfl
  exact paired_quiet_right tail (paired_quiet_right (fun _ => rfl) (paired_onQueue _))

/-- A write that is allowed is submitted on both sides. -/
theorem paired_write (bufs : List Bytes) (nbufs : Nat) (within : nbufs ≤ bufs.length) (wide : nbufs < 2 ^ 32) :
    Proc.Paired (fun client _ life _ => client.closing = false ∧ Agrees closing client life)
      (onQueue fun queue => queue.uvlWrite bufs nbufs) (Lifetime.liveStep (.write bufs nbufs within wide))
      fun _ _ => Alongside := by
  rintro client past life trace ⟨allowed, agrees⟩
  obtain rfl := agrees.life
  have kept : ¬ client.life.closing = true := fun closes => Bool.false_ne_true (allowed.symm.trans closes)
  rw [Lifetime.liveStep, Proc.read_bind, if_neg kept]
  exact ⟨closing, paired_uvlWrite bufs nbufs client past client.life trace agrees⟩

/-- What the read callback and data from lwIP change is no part of the life. -/
theorem Agrees.buffer {client : UvlTcp} {life : Lifetime.UvlTcp} (agrees : Agrees closing client life)
    (recvUsed : Nat) (readReq : Bool) :
    Agrees closing { client with recvUsed := recvUsed, readReq := readReq } life := { agrees with }

theorem Agrees.uvlAsyncTcpReadCb {client : UvlTcp} {life : Lifetime.UvlTcp} (agrees : Agrees closing client life)
    (alloc : Option Nat) : Agrees closing (uvlAsyncTcpReadCb alloc client).state life := by
  rw [Pcb.uvlAsyncTcpReadCb, Proc.read_bind]
  by_cases reads : client.readCb = true ∧ 0 < client.recvUsed
  · rw [if_pos reads]
    by_cases small : tooSmall alloc client.recvUsed = true
    · rw [if_pos small, owner_quiet client agrees.passive]
      exact agrees
    · have emptied := agrees.buffer 0 client.readReq
      have quiet := owner_quiet { client with recvUsed := 0 } agrees.passive
      rw [if_neg small]
      change Agrees closing (owner { client with recvUsed := 0 }).state life
      rw [quiet]
      exact emptied
  · rw [if_neg reads]
    exact agrees

theorem Agrees.uvlClientRecvFunc {client : UvlTcp} {life : Lifetime.UvlTcp} (agrees : Agrees closing client life)
    (bytes : Bytes) : Agrees closing (uvlClientRecvFunc (some bytes) client).state life := by
  rw [Pcb.uvlClientRecvFunc, Proc.read_bind]
  by_cases long : bytes.length > uvlTcpRecvBufLen - client.recvUsed
  · rw [if_pos long]
    exact agrees
  · rw [if_neg long]
    exact agrees.buffer (client.recvUsed + bytes.length) true

/-- A reader that is there already means that the connection is open. -/
theorem Agrees.uvlReadStart {client : UvlTcp} (agrees : Agrees closing client client.life) :
    Agrees closing (uvlReadStart client).state { client.life with readCb := true && !client.life.closed } := by
  rw [Pcb.uvlReadStart, Proc.read_bind]
  by_cases reads : client.readCb = true
  · have opened : client.closed = false :=
      Bool.eq_false_iff.mpr fun closed => Bool.false_ne_true ((agrees.silent closed).symm.trans reads)
    rw [if_pos reads]
    exact { agrees with life := by simp [UvlTcp.life, reads, opened] }
  rw [if_neg reads]
  by_cases closed : client.closed = true
  · rw [if_pos closed, owner_quiet client agrees.passive]
    exact { agrees with life := by simp [UvlTcp.life, closed, agrees.silent closed] }
  · rw [if_neg closed]
    exact { agrees with
      life := by simp [UvlTcp.life, Bool.eq_false_iff.mpr closed]
      silent := fun never => absurd never closed }

end Steps

theorem paired_liveStep (input : PcbInput) (closing : Bool) :
    Proc.Paired (fun client _ life _ => input.Allowed client ∧ Agrees closing client life) (liveStep input)
      (input.life.elim (pure ()) Lifetime.liveStep) fun _ _ => Alongside := by
  cases input with
  | write bufs nbufs within wide => exact paired_write bufs nbufs within wide
  | asyncWrite =>
      refine paired_within (paired_read_life fun client agrees => ?_)
      refine Proc.paired_ite Iff.rfl (fun runs => ?_) fun _ => Proc.paired_done
      obtain rfl : closing = false := agrees.phase.symm.trans (Bool.eq_false_iff.mpr runs.2)
      exact (paired_onQueue _).bind _ fun _ _ => paired_uvlAsyncTcpWriteCb
  | asyncRead alloc =>
      rintro client past life trace ⟨-, agrees⟩
      rw [liveStep, Proc.read_bind]
      by_cases runs : client.readReq = true ∧ ¬ client.closing = true
      · rw [if_pos runs]
        exact ⟨closing, (agrees.buffer client.recvUsed false).uvlAsyncTcpReadCb alloc⟩
      · rw [if_neg runs]
        exact ⟨closing, agrees⟩
  | sent len =>
      refine paired_within (paired_whileOpen (paired_read_life fun client _ => ?_))
      refine Proc.paired_ite Iff.rfl (fun _ => ?_) fun _ => Proc.paired_done
      exact (paired_onQueue _).bind _ fun _ _ => paired_uvlClientSentFunc len.toNat
  | err => exact paired_within (paired_whileOpen (paired_uvlClientFreed passive_owner))
  | recv buffer =>
      cases buffer with
      | none =>
          refine paired_within (paired_whileOpen ?_)
          exact (paired_uvlClientCloseFunc passive_owner).bind_same fun _ => Proc.paired_done
      | some bytes =>
          rintro client past life trace ⟨-, agrees⟩
          rw [liveStep, whileOpen, Proc.read_bind]
          by_cases closed : client.closed = true
          · rw [if_pos closed]
            exact ⟨closing, agrees⟩
          · rw [if_neg closed]
            exact ⟨closing, agrees.uvlClientRecvFunc bytes⟩
  | sndbuf room => exact paired_within (paired_onQueue _)
  | readStart =>
      rintro client past life trace ⟨-, agrees⟩
      obtain rfl := agrees.life
      exact ⟨closing, agrees.uvlReadStart⟩
  | readStop =>
      refine paired_within (paired_update_life fun _ agrees => ?_)
      exact { agrees with life := rfl, silent := fun _ => rfl }
  | close => exact paired_uvlTcpClose.strengthen fun _ _ _ _ pre => ⟨closing, pre.2⟩
  | handleClosed =>
      refine paired_within (paired_read_life fun client agrees => ?_)
      refine Proc.paired_ite Iff.rfl (fun runs => ?_) fun _ => Proc.paired_done
      obtain rfl : closing = true := agrees.phase.symm.trans runs.1
      refine Proc.Paired.bind _ (paired_update_life fun _ agrees => { agrees with life := rfl }) fun _ _ => ?_
      exact paired_uvlTcpCloseHandleCb

theorem paired_pcbStep (input : PcbInput) :
    Proc.Paired (fun client past life trace => input.Allowed client ∧ Alongside client past life trace) (pcbStep input)
      (input.life.elim (pure ()) Lifetime.lifeStep) fun _ _ => Alongside := by
  rintro client past life trace ⟨allowed, closing, agrees⟩
  have stepped := paired_liveStep input closing client past life trace ⟨allowed, agrees⟩
  obtain rfl := agrees.life
  rw [pcbStep, Proc.read_bind]
  by_cases halted : client.halted = true
  · have halted' : client.life.halted = true := halted
    rw [if_pos halted]
    cases mapped : input.life with
    | none => exact ⟨closing, agrees⟩
    | some input' =>
        rw [Option.elim, Lifetime.lifeStep, Proc.read_bind, if_pos halted']
        exact ⟨closing, agrees⟩
  · have halted' : ¬ client.life.halted = true := halted
    rw [if_neg halted]
    cases mapped : input.life with
    | none =>
        rw [mapped] at stepped
        exact stepped
    | some input' =>
        rw [mapped] at stepped
        rw [Option.elim, Lifetime.lifeStep, Proc.read_bind, if_neg halted']
        exact stepped

/-- With an owner that does nothing in its callbacks and does not write after it closed
the connection, the calls to lwIP leave the connection that its life leaves, whatever
fails and whoever closes. -/
theorem life_of_pcb (inputs : List PcbInput) (sndbuf : UInt16) (results : Nat → TcpErr)
    (writeFails outputFails closeFails : Nat → Bool)
    (allowed : Proc.Along pcbStep PcbInput.Allowed
      (.start sndbuf results writeFails outputFails closeFails fun _ => .nothing) inputs) :
    (Proc.runAll pcbStep inputs
        (.start sndbuf results writeFails outputFails closeFails fun _ => .nothing)).state.life =
      (Proc.runAll Lifetime.lifeStep (inputs.filterMap PcbInput.life)
        (.start sndbuf results writeFails outputFails closeFails)).state := by
  have fresh : Agrees false (.start sndbuf results writeFails outputFails closeFails fun _ => .nothing)
      (.start sndbuf results writeFails outputFails closeFails) :=
    ⟨rfl, rfl, fun _ => rfl, fun _ => rfl, rfl⟩
  obtain ⟨closing, agrees⟩ := Proc.paired_runAll PcbInput.Allowed PcbInput.life paired_pcbStep inputs
    _ [] _ [] ⟨allowed, false, fresh⟩
  exact agrees.life

/-! ## The reading side -/

/-- The connection of a passive owner, with this reading side. -/
structure ReadsAs (reading : UvlReading) (client : UvlTcp) : Prop where
  buffered : client.recvUsed = reading.recvBuf.length
  reader : client.readCb = reading.readCb.isSome
  closed : client.closed = reading.closed
  pcb : client.pcb = reading.pcb
  pending : client.readReq = reading.readReq
  hooked : reading.recvSet = !reading.closed
  kept : client.closing = false
  running : client.halted = false
  passive : client.reactions = fun _ => .nothing

/-- What happens to the reading side, as it happens to a connection. -/
def PcbInput.ofRead : ReadInput → PcbInput
  | .recv bytes => .recv (some bytes)
  | .fin _ => .recv none
  | .asyncRead alloc => .asyncRead alloc
  | .readStart _ => .readStart
  | .readStop => .readStop

section Reading

variable {reading : UvlReading} {client : UvlTcp} (same : ReadsAs reading client)
include same

theorem ReadsAs.uvlClientFreed {own : Client Unit} (passive : Passive own) :
    ReadsAs (UvLwip.uvlClientFreed { reading with recvSet := false }).state (uvlClientFreed own client).state := by
  have idle := passive { client with pcb := false, closed := true, readCb := true } same.passive
  have freed : ReadsAs { reading with recvSet := false, pcb := false, closed := true, readCb := none }
      { client with pcb := false, closed := true, readCb := false } :=
    { same with reader := rfl, closed := rfl, pcb := rfl, hooked := rfl }
  cases reader : reading.readCb with
  | none =>
      have unread : client.readCb = false := by rw [same.reader, reader]; rfl
      simpa [UvLwip.uvlClientFreed, Pcb.uvlClientFreed, reader, unread] using freed
  | some number =>
      have reads : client.readCb = true := by rw [same.reader, reader]; rfl
      simpa [UvLwip.uvlClientFreed, Pcb.uvlClientFreed, reader, reads, idle] using freed

theorem ReadsAs.uvlClientCloseFunc (closeErr : Int) :
    ReadsAs (UvLwip.uvlClientCloseFunc closeErr reading).state (uvlClientCloseFunc owner client).state := by
  have counted : ReadsAs reading { client with closeFails := fun n => client.closeFails (n + 1) } := { same with }
  have freed := counted.uvlClientFreed passive_owner
  have left : (UvLwip.uvlClientCloseFunc closeErr reading).state =
      (UvLwip.uvlClientFreed { reading with recvSet := false }).state := by
    by_cases ok : closeErr = errOk <;> simp [UvLwip.uvlClientCloseFunc, UvLwip.uvlClientAbort, ok]
  have right : (Pcb.uvlClientCloseFunc owner client).state =
      (Pcb.uvlClientFreed owner { client with closeFails := fun n => client.closeFails (n + 1) }).state := by
    by_cases fails : client.closeFails 0 = true <;>
      simp [Pcb.uvlClientCloseFunc, uvlClientAbort, removeCallbacks_quiet, call_quiet, fails]
  rw [left, right]
  exact freed

theorem ReadsAs.uvlClientRecvFunc (bytes : Bytes) :
    ReadsAs (UvLwip.uvlClientRecvFunc (some bytes) errOk reading).state
      (uvlClientRecvFunc (some bytes) client).state := by
  rw [UvLwip.uvlClientRecvFunc, Proc.read_bind, Pcb.uvlClientRecvFunc, Proc.read_bind, same.buffered]
  by_cases long : bytes.length > uvlTcpRecvBufLen - reading.recvBuf.length
  · rw [dif_pos long, if_pos long]
    exact same
  · rw [dif_neg long, if_neg long]
    exact { same with buffered := by simp [same.buffered], pending := rfl }

theorem ReadsAs.uvlAsyncTcpReadCb (alloc : Option Nat) :
    ReadsAs (UvLwip.uvlAsyncTcpReadCb alloc reading).state (uvlAsyncTcpReadCb alloc client).state := by
  rw [UvLwip.uvlAsyncTcpReadCb, Proc.read_bind, Pcb.uvlAsyncTcpReadCb, Proc.read_bind, same.buffered, same.reader]
  cases reader : reading.readCb with
  | none =>
      rw [Option.isSome_none, if_neg fun never => Bool.false_ne_true never.1]
      exact same
  | some number =>
      rw [Option.isSome_some]
      by_cases filled : 0 < reading.recvBuf.length
      · by_cases small : tooSmall alloc reading.recvBuf.length = true
        · simp only [gt_iff_lt, if_pos small, and_true, filled, if_true]
          rw [owner_quiet client same.passive]
          exact same
        · have emptied : ReadsAs { reading with recvBuf := [], recvFits := Nat.zero_le _ }
              { client with recvUsed := 0 } := { same with buffered := rfl }
          have quiet := owner_quiet { client with recvUsed := 0 } same.passive
          simp only [gt_iff_lt, if_neg small, and_true, filled, if_true]
          change ReadsAs _ (owner { client with recvUsed := 0 }).state
          rw [quiet]
          exact emptied
      · simp only [gt_iff_lt, and_false, filled, if_false]
        exact same

theorem ReadsAs.uvlReadStart (number : Nat) :
    ReadsAs (UvLwip.uvlReadStart number reading).state (uvlReadStart client).state := by
  rw [UvLwip.uvlReadStart, Proc.read_bind, Pcb.uvlReadStart, Proc.read_bind, same.reader, same.closed]
  by_cases reads : reading.readCb.isSome = true
  · rw [if_pos reads, if_pos reads]
    exact same
  rw [if_neg reads, if_neg reads]
  by_cases closed : reading.closed = true
  · rw [if_pos closed, if_pos closed, owner_quiet client same.passive]
    exact same
  · rw [if_neg closed, if_neg closed]
    exact { same with reader := rfl, pending := rfl }

theorem ReadsAs.step (input : ReadInput) :
    ReadsAs (readStep input reading).state (pcbStep (.ofRead input) client).state := by
  have running : ¬ client.halted = true := Bool.eq_false_iff.mp same.running
  have hooked : reading.recvSet = true ↔ ¬ client.closed = true := by
    rw [same.hooked, same.closed]
    simp
  rw [pcbStep, Proc.read_bind, if_neg running]
  cases input with
  | recv bytes =>
      rw [readStep, Proc.read_bind, PcbInput.ofRead, liveStep, whileOpen, Proc.read_bind]
      by_cases closed : client.closed = true
      · rw [if_neg fun set => hooked.mp set closed, if_pos closed]
        exact same
      · rw [if_pos (hooked.mpr closed), if_neg closed]
        exact same.uvlClientRecvFunc bytes
  | fin closeErr =>
      rw [readStep, Proc.read_bind, PcbInput.ofRead, liveStep, whileOpen, Proc.read_bind]
      by_cases closed : client.closed = true
      · rw [if_neg fun set => hooked.mp set closed, if_pos closed]
        exact same
      · rw [if_pos (hooked.mpr closed), if_neg closed]
        exact same.uvlClientCloseFunc closeErr
  | asyncRead alloc =>
      rw [readStep, Proc.read_bind, PcbInput.ofRead, liveStep, Proc.read_bind, same.pending, same.kept]
      by_cases runs : reading.readReq = true
      · have marked : ReadsAs { reading with readReq := false } { client with readReq := false } :=
          { same with pending := rfl }
        rw [if_pos runs, if_pos ⟨runs, Bool.false_ne_true⟩]
        exact marked.uvlAsyncTcpReadCb alloc
      · rw [if_neg runs, if_neg fun both => runs both.1]
        exact same
  | readStart number => exact same.uvlReadStart number
  | readStop => exact { same with reader := rfl }

theorem ReadsAs.run (inputs : List ReadInput) :
    ReadsAs (Proc.runAll readStep inputs reading).state (Proc.runAll pcbStep (inputs.map .ofRead) client).state := by
  induction inputs generalizing reading client with
  | nil => exact same
  | cons input rest ih => exact ih (same.step input)

end Reading

/-- The reading side of a connection whose owner does nothing in its callbacks is the
reading side by itself, whatever `tcp_close` answers. -/
theorem reading_of_pcb (inputs : List ReadInput) (sndbuf : UInt16) (results : Nat → TcpErr)
    (writeFails outputFails closeFails : Nat → Bool) :
    ReadsAs (Proc.runAll readStep inputs .start).state
      (Proc.runAll pcbStep (inputs.map .ofRead)
        (.start sndbuf results writeFails outputFails closeFails fun _ => .nothing)).state := by
  have fresh : ReadsAs .start (.start sndbuf results writeFails outputFails closeFails fun _ => .nothing) :=
    ⟨rfl, rfl, rfl, rfl, rfl, rfl, rfl, rfl, rfl⟩
  exact fresh.run inputs

end SwitchLanPlay.UvLwip.Pcb
