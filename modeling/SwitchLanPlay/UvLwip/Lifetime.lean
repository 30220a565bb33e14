import SwitchLanPlay.UvLwip.Queue

/-!
# From submission to the close callback

The write queue of `uv_lwip.c` together with everything that ends it:
`uvl_client_close_func`, `uvl_cancel_reqs`, `uvl_tcp_close`, the errors of lwIP,
and write callbacks that call `uvl_tcp_close` themselves.  Every use of a request
is an event.

The owner of a connection calls `uvl_tcp_close` once (`IConnection::close`) and
does not write after that.  lwIP calls back only while the connection is not
`closed`, and acknowledges only bytes that it took.  libuv does not run the
callback of an async handle that is being closed.  An execution that leaves an
array or the list, or that uses the pcb when it is NULL, has no meaning from
there on: it is `halted`.
-/

namespace SwitchLanPlay.UvLwip.Lifetime

open Library

/-- The status of a write callback: 0 or `UV_ECANCELED`. -/
inductive WriteStatus where
  | ok
  | canceled
  deriving DecidableEq

inductive LifeEvent where
  /-- `uvl_write` -/
  | submit (req : Nat)
  /-- A field of the request is read or written. -/
  | touch (req : Nat)
  | writeCb (req : Nat) (status : WriteStatus)
  /-- `read_cb` with `UV_EOF` -/
  | readEof
  /-- `read_cb` with `UV_ECANCELED` -/
  | readCanceled
  | closeCb
  deriving DecidableEq

/-- `struct uvl_tcp`.  The fields that writing works on are in `queue`; `pcb` is
NULL when `closed` is set.  The streams say which of the coming calls of
`tcp_write` fail with an error that is not `ERR_MEM`, and which of `tcp_output`
and of `tcp_close` fail.  `closing` is the flag of the owner, `openHandles` counts
the async handles whose close callback did not run. -/
structure UvlTcp where
  queue : UvlQueue
  writeFails : Nat → Bool
  outputFails : Nat → Bool
  closeFails : Nat → Bool
  closed : Bool
  readCb : Bool
  closing : Bool
  closedHandle : Nat
  openHandles : Nat
  halted : Bool

abbrev Life (α : Type) := Proc UvlTcp LifeEvent α

def halt : Life Unit := Proc.update fun client => { client with halted := true }

def onQueue (f : UvlQueue → UvlQueue) : Life Unit :=
  Proc.update fun client => { client with queue := f client.queue }

/-- Assign to the fields of a request. -/
def modifyReq (req : Nat) (f : UvlWrite → UvlWrite) : Life Unit := do
  Proc.emit (.touch req)
  onQueue fun queue => { queue with reqs := Function.update queue.reqs req (f (queue.reqs req)) }

/-! ## Closing -/

def uvlClientFreed : Life Unit := do
  Proc.update fun client => { client with closed := true }
  let client ← Proc.read
  if client.readCb then do
    Proc.emit .readEof
    Proc.update fun client => { client with readCb := false }
  else
    pure ()

abbrev errOk : Int := 0
abbrev errAbrt : Int := -13

/-- `uvl_client_close_func`; if `tcp_close` fails, `uvl_client_abort` frees the
connection. -/
def uvlClientCloseFunc : Life Int := do
  let client ← Proc.read
  Proc.update fun client => { client with closeFails := fun call => client.closeFails (call + 1) }
  uvlClientFreed
  pure (if client.closeFails 0 then errAbrt else errOk)

/-- The loop of `uvl_cancel_reqs`. -/
def cancelLoop (writeCb : Nat → WriteStatus → Life Unit) : List Nat → Life Unit
  | [] => pure ()
  | req :: rest => do
      Proc.emit (.touch req)
      writeCb req .canceled
      cancelLoop writeCb rest

/-- The end of `uvl_cancel_reqs`. -/
def cancelRead : Life Unit := do
  let client ← Proc.read
  if client.readCb then do
    Proc.emit .readCanceled
    Proc.update fun client => { client with readCb := false }
  else
    pure ()

/-- `uvl_cancel_reqs`.  The list is walked from the `cur_write` it starts with. -/
def uvlCancelReqs (writeCb : Nat → WriteStatus → Life Unit) : Life Unit := do
  let client ← Proc.read
  cancelLoop writeCb client.queue.queue
  onQueue fun queue => { queue with curWrite := none, tailWrite := none }
  cancelRead

/-- The first test of `uvl_tcp_close`. -/
def closeIfOpen : Life Unit := do
  let client ← Proc.read
  if client.closed then
    pure ()
  else do
    let _ ← uvlClientCloseFunc
    pure ()

/-- A write callback that does not close the connection. -/
def report (req : Nat) (status : WriteStatus) : Life Unit := Proc.emit (.writeCb req status)

/-- `IConnection::close` with `uvl_tcp_close`.  The callbacks that it invokes find
`closing` set and do not close again. -/
def uvlTcpClose : Life Unit := do
  let client ← Proc.read
  if client.closing then
    pure ()
  else do
    Proc.update fun client => { client with closing := true }
    closeIfOpen
    uvlCancelReqs report

/-- A write callback; `closes` says which of them call `uvl_tcp_close`. -/
def writeCallback (closes : Nat → WriteStatus → Bool) (req : Nat) (status : WriteStatus) : Life Unit := do
  report req status
  if closes req status then uvlTcpClose else pure ()

/-- The end of `uvl_tcp_close_handle_cb`. -/
def handlesClosed : Life Unit := do
  Proc.update fun client =>
    { client with
      queue := { client.queue with curWrite := none, tailWrite := none }
      readCb := false
      closedHandle := 0 }
  Proc.emit .closeCb

def uvlTcpCloseHandleCb : Life Unit := do
  Proc.update fun client => { client with closedHandle := client.closedHandle + 1 }
  let client ← Proc.read
  if client.closedHandle = 2 then handlesClosed else pure ()

/-! ## Writing -/

/-- `tcp_write`; none stands for an error that is not `ERR_MEM`. -/
def tcpWrite (bytes : Bytes) : Life (Option TcpErr) := do
  let client ← Proc.read
  Proc.update fun client => { client with writeFails := fun call => client.writeFails (call + 1) }
  if client.writeFails 0 then
    pure none
  else do
    onQueue fun queue => { queue with results := fun call => queue.results (call + 1) }
    match client.queue.results 0 with
    | .mem => pure (some .mem)
    | .ok => do
        onQueue fun queue =>
          { queue with
            sndbuf := queue.sndbuf - bytes.length
            unacked := queue.unacked + bytes.length }
        pure (some .ok)

/-- The `do` loop of `uvl_imp_write_buf_to_tcp`; a value when the function returns
from there. -/
def writeLoop (req : Nat) (buf : Bytes) (sndbuf sent : Nat) : Life (Option Int) :=
  if _full : min (buf.length - sent) sndbuf = 0 then
    pure none
  else do
    match ← tcpWrite (slice buf sent (min (buf.length - sent) sndbuf)) with
    | none => do
        let err ← uvlClientCloseFunc
        pure (some err)
    | some .mem => pure (some 0)
    | some .ok => do
        modifyReq req fun r => r.took (min (buf.length - sent) sndbuf)
        if (sent + min (buf.length - sent) sndbuf) % 2 ^ 32 < buf.length then
          writeLoop req buf (sndbuf - min (buf.length - sent) sndbuf)
            ((sent + min (buf.length - sent) sndbuf) % 2 ^ 32)
        else
          pure none
termination_by sndbuf
decreasing_by omega

/-- `uvl_imp_write_buf_to_tcp` from `may_next` on. -/
def mayNext (req : Nat) : Life Int := do
  let client ← Proc.read
  if client.queue.sndbuf = 0 then
    pure 0
  else do
    modifyReq req fun r => { r with sent := 0, sentBufs := (r.sentBufs + 1) % 2 ^ 32 }
    pure 1

/-- `uvl_imp_write_buf_to_tcp` for the buffer at `sent_bufs`. -/
def uvlImpWriteBufToTcp (req : Nat) (buf : Bytes) : Life Int := do
  Proc.emit (.touch req)
  let client ← Proc.read
  if client.closed then do
    halt
    pure 0
  else do
    match ← writeLoop req buf client.queue.sndbuf (client.queue.reqs req).sent with
    | some ret => pure ret
    | none => mayNext req

/-- The second loop of `uvl_imp_write_to_tcp` as long as it stays at one request,
over the entries of the array from `sent_bufs` on; true when it goes on to the
next request.  `uvl_client_close_func` never answers -1. -/
def writeRequest (req : Nat) : List Bytes → Life Bool
  | [] => do
      halt
      pure false
  | buf :: bufs => do
      let ret ← uvlImpWriteBufToTcp req buf
      if ret = 0 then
        pure false
      else do
        Proc.emit (.touch req)
        let client ← Proc.read
        if (client.queue.reqs req).sentBufs = (client.queue.reqs req).sendNbufs then
          pure true
        else
          writeRequest req bufs

/-- The second loop of `uvl_imp_write_to_tcp`. -/
def writeRequests : List Nat → Life Unit
  | [] => pure ()
  | req :: rest => do
      let client ← Proc.read
      let goesOn ← writeRequest req
        ((client.queue.reqs req).sendBufs.drop (client.queue.reqs req).sentBufs)
      if goesOn then writeRequests rest else pure ()

/-- The first loop of `uvl_imp_write_to_tcp`; its value is the list from the first
request with a buffer left on. -/
def skipWritten : List Nat → Life (List Nat)
  | [] => pure []
  | req :: rest => do
      Proc.emit (.touch req)
      let client ← Proc.read
      if (client.queue.reqs req).sentBufs < (client.queue.reqs req).sendNbufs then
        pure (req :: rest)
      else
        skipWritten rest

/-- The end of `uvl_imp_write_to_tcp`. -/
def tcpOutput : Life Unit := do
  let client ← Proc.read
  if client.closed then
    halt
  else do
    Proc.update fun client => { client with outputFails := fun call => client.outputFails (call + 1) }
    if client.outputFails 0 then do
      let _ ← uvlClientCloseFunc
      pure ()
    else
      pure ()

def uvlImpWriteToTcp : Life Unit := do
  let client ← Proc.read
  let rest ← skipWritten client.queue.queue
  writeRequests rest
  tcpOutput

/-! ## Callbacks -/

/-- The test of the loop of `uvl_async_tcp_write_cb`. -/
def Complete (queue : UvlQueue) (req : Nat) : Prop :=
  (queue.reqs req).totalSent = (queue.reqs req).totalLen ∧ (queue.reqs req).pending = 0

instance (queue : UvlQueue) (req : Nat) : Decidable (Complete queue req) :=
  inferInstanceAs (Decidable (_ ∧ _))

/-- The loop of `uvl_async_tcp_write_cb`; `next` is saved before the callback. -/
def completeRequests (closes : Nat → WriteStatus → Bool) : List Nat → Life Unit
  | [] => pure ()
  | req :: rest => do
      Proc.emit (.touch req)
      let client ← Proc.read
      if Complete client.queue req then do
        onQueue fun queue => { queue with curWrite := (queue.reqs req).next }
        writeCallback closes req .ok
        completeRequests closes rest
      else
        pure ()

/-- `uvl_async_tcp_write_cb` behind its loop. -/
def afterLoop (closes : Nat → WriteStatus → Bool) : Life Unit := do
  onQueue fun queue => if queue.curWrite = none then { queue with tailWrite := none } else queue
  let client ← Proc.read
  if client.closed then
    uvlCancelReqs (writeCallback closes)
  else if client.queue.curWrite = none then
    pure ()
  else
    uvlImpWriteToTcp

def uvlAsyncTcpWriteCb (closes : Nat → WriteStatus → Bool) : Life Unit := do
  let client ← Proc.read
  completeRequests closes client.queue.queue
  afterLoop closes

/-- The loop of `uvl_client_sent_func`. -/
def consume : List Nat → Nat → Life Unit
  | [], len => if len = 0 then pure () else halt
  | req :: rest, len =>
      if len = 0 then
        pure ()
      else do
        let client ← Proc.read
        modifyReq req fun r => { r with pending := r.pending - min (client.queue.reqs req).pending len }
        consume rest (len - min (client.queue.reqs req).pending len)

def uvlClientSentFunc (len : Nat) : Life Unit := do
  let client ← Proc.read
  consume client.queue.queue len
  onQueue fun queue => { queue with writeReq := true }

/-- `tail_write->next = req`, when there is a last request. -/
def touchTail (tail : Option Nat) : Life Unit :=
  match tail with
  | some req => Proc.emit (.touch req)
  | none => pure ()

def uvlWrite (bufs : List Bytes) (nbufs : Nat) : Life Unit := do
  let client ← Proc.read
  touchTail client.queue.tailWrite
  Proc.emit (.submit client.queue.submitted)
  onQueue fun queue => queue.uvlWrite bufs nbufs

/-! ## Steps -/

/-- What happens on a connection. -/
inductive LifeInput where
  | write (bufs : List Bytes) (nbufs : Nat) (within : nbufs ≤ bufs.length) (wide : nbufs < 2 ^ 32)
  /-- The loop runs the callback of `write_req`. -/
  | asyncWrite (closes : Nat → WriteStatus → Bool)
  | sent (len : UInt16)
  /-- `uvl_client_err_func` -/
  | err
  /-- `uvl_client_recv_func`; data goes to the buffer of the reader. -/
  | recv (data : Option Bytes)
  | sndbuf (room : UInt16)
  /-- `uvl_read_start` and `uvl_read_stop` -/
  | read (start : Bool)
  | close
  /-- libuv reports one of the two handles as closed. -/
  | handleClosed

/-- A callback that lwIP runs. -/
def whileOpen (callback : Life Unit) : Life Unit := do
  let client ← Proc.read
  if client.closed then pure () else callback

/-- An input while the execution has a meaning. -/
def liveStep : LifeInput → Life Unit
  | .write bufs nbufs _ _ => do
      let client ← Proc.read
      if client.closing then pure () else uvlWrite bufs nbufs
  | .asyncWrite closes => do
      let client ← Proc.read
      if client.queue.writeReq ∧ ¬ client.closing then do
        onQueue fun queue => { queue with writeReq := false }
        uvlAsyncTcpWriteCb closes
      else
        pure ()
  | .sent len => whileOpen do
      let client ← Proc.read
      if 0 < len.toNat ∧ len.toNat ≤ client.queue.unacked then do
        onQueue fun queue => { queue with unacked := queue.unacked - len.toNat }
        uvlClientSentFunc len.toNat
      else
        pure ()
  | .err => whileOpen uvlClientFreed
  | .recv none => whileOpen do
      let _ ← uvlClientCloseFunc
      pure ()
  | .recv (some _) => pure ()
  | .sndbuf room => onQueue fun queue => { queue with sndbuf := room.toNat }
  | .read start => Proc.update fun client => { client with readCb := start && !client.closed }
  | .close => uvlTcpClose
  | .handleClosed => do
      let client ← Proc.read
      if client.closing ∧ 0 < client.openHandles then do
        Proc.update fun client => { client with openHandles := client.openHandles - 1 }
        uvlTcpCloseHandleCb
      else
        pure ()

def lifeStep (input : LifeInput) : Life Unit := do
  let client ← Proc.read
  if client.halted then pure () else liveStep input

/-- The connection after `uvl_tcp_init` and `uvl_accept`. -/
def UvlTcp.start (sndbuf : UInt16) (results : Nat → TcpErr) (writeFails outputFails closeFails : Nat → Bool) :
    UvlTcp where
  queue := .start sndbuf results
  writeFails := writeFails
  outputFails := outputFails
  closeFails := closeFails
  closed := false
  readCb := false
  closing := false
  closedHandle := 0
  openHandles := 2
  halted := false

end SwitchLanPlay.UvLwip.Lifetime
