import SwitchLanPlay.Library.Hoare
import SwitchLanPlay.UvLwip.Queue
import SwitchLanPlay.UvLwip.Reading

/-!
# What is handed to lwIP

`uv_lwip.c` from `uvl_accept` to the close callback, seen by the calls that pass
`client->pcb` to lwIP.  `uvl_imp_write_buf_to_tcp` answers a failed `tcp_write`
with the result of `uvl_client_close_func`, 0 or `ERR_ABRT`; its caller takes 0 for
a full send buffer and stops only at -1, so it goes on with the pcb that was just
set to NULL.

The owner of a connection is an `IConnection`.  In a callback it does nothing,
stops reading, or closes, which it does once.  lwIP calls back only while the
connection is not `closed`, and acknowledges only bytes that it took.  libuv does
not run the callback of an async handle that is being closed.  An execution that
leaves an array or the list, or uses the pcb when it is NULL, has no meaning from
the next callback on: it is `halted`.
-/

namespace SwitchLanPlay.UvLwip.Pcb

open Library

/-! ## State -/

inductive LwipFn where
  | tcpSndbuf
  | tcpWrite
  | tcpOutput
  | tcpRecved
  | tcpClose
  | tcpAbort
  | tcpErr
  | tcpRecv
  | tcpSent
  deriving DecidableEq

inductive PcbEvent where
  /-- `client->pcb` is passed to lwIP; `pcb` says that it is not NULL. -/
  | lwip (fn : LwipFn) (pcb closed : Bool)
  /-- `tcp_write` returns an error that is not `ERR_MEM`. -/
  | writeFailed
  deriving DecidableEq

/-- What the owner does when it is called back. -/
inductive Reaction where
  | nothing
  | stop
  | close
  deriving DecidableEq

/-- `struct uvl_tcp`.  The fields that writing works on are in `queue`, and `pcb`
says that the pointer is not NULL.  The streams say which of the coming calls of
`tcp_write` fail with an error that is not `ERR_MEM`, which of `tcp_output` and of
`tcp_close` fail, and how the owner reacts to the coming callbacks.  `closing` is
the flag of the owner, `openHandles` counts the async handles whose close callback
did not run. -/
structure UvlTcp where
  queue : UvlQueue
  writeFails : Nat → Bool
  outputFails : Nat → Bool
  closeFails : Nat → Bool
  reactions : Nat → Reaction
  recvUsed : Nat
  pcb : Bool
  closed : Bool
  readCb : Bool
  readReq : Bool
  closing : Bool
  closedHandle : Nat
  openHandles : Nat
  halted : Bool

abbrev Client (α : Type) := Proc UvlTcp PcbEvent α

def halt : Client Unit := Proc.update fun client => { client with halted := true }

def onQueue (f : UvlQueue → UvlQueue) : Client Unit :=
  Proc.update fun client => { client with queue := f client.queue }

/-- Assign to the fields of a request. -/
def modifyReq (req : Nat) (f : UvlWrite → UvlWrite) : Client Unit :=
  onQueue fun queue => { queue with reqs := Function.update queue.reqs req (f (queue.reqs req)) }

/-- Pass `client->pcb` to a function of lwIP. -/
def call (fn : LwipFn) : Client Unit := do
  let client ← Proc.read
  Proc.emit (.lwip fn client.pcb client.closed)

/-! ## Closing -/

/-- Take the callbacks away from lwIP. -/
def removeCallbacks : Client Unit := do
  call .tcpErr
  call .tcpRecv
  call .tcpSent

/-- `uvl_client_freed`; `owner` is what the read callback does. -/
def uvlClientFreed (owner : Client Unit) : Client Unit := do
  Proc.update fun client => { client with pcb := false, closed := true }
  let client ← Proc.read
  if client.readCb then do
    owner
    Proc.update fun client => { client with readCb := false }
  else
    pure ()

def uvlClientAbort (owner : Client Unit) : Client Int := do
  removeCallbacks
  call .tcpAbort
  uvlClientFreed owner
  pure errAbrt

def uvlClientCloseFunc (owner : Client Unit) : Client Int := do
  removeCallbacks
  call .tcpClose
  let client ← Proc.read
  Proc.update fun client => { client with closeFails := fun n => client.closeFails (n + 1) }
  if client.closeFails 0 then
    uvlClientAbort owner
  else do
    uvlClientFreed owner
    pure errOk

/-- The loop of `uvl_cancel_reqs`. -/
def cancelLoop (owner : Client Unit) : List Nat → Client Unit
  | [] => pure ()
  | _ :: rest => do
      owner
      cancelLoop owner rest

/-- The end of `uvl_cancel_reqs`. -/
def cancelRead (owner : Client Unit) : Client Unit := do
  let client ← Proc.read
  if client.readCb then do
    owner
    Proc.update fun client => { client with readCb := false }
  else
    pure ()

/-- `uvl_cancel_reqs`.  The list is walked from the `cur_write` it starts with. -/
def uvlCancelReqs (owner : Client Unit) : Client Unit := do
  let client ← Proc.read
  cancelLoop owner client.queue.queue
  onQueue fun queue => { queue with curWrite := none, tailWrite := none }
  cancelRead owner

/-- The first test of `uvl_tcp_close`. -/
def closeIfOpen (owner : Client Unit) : Client Unit := do
  let client ← Proc.read
  if client.closed then
    pure ()
  else do
    let _ ← uvlClientCloseFunc owner
    pure ()

/-- `IConnection::close` with `uvl_tcp_close`.  The callbacks that it invokes find
`closing` set and do nothing. -/
def uvlTcpClose : Client Unit := do
  let client ← Proc.read
  if client.closing then
    pure ()
  else do
    Proc.update fun client => { client with closing := true }
    closeIfOpen (pure ())
    uvlCancelReqs (pure ())

def uvlReadStop : Client Unit := Proc.update fun client => { client with readCb := false }

/-- A callback of the owner. -/
def owner : Client Unit := do
  let client ← Proc.read
  Proc.update fun client => { client with reactions := fun n => client.reactions (n + 1) }
  match client.reactions 0 with
  | .nothing => pure ()
  | .stop => uvlReadStop
  | .close => do
      uvlReadStop
      uvlTcpClose

/-- The end of `uvl_tcp_close_handle_cb`. -/
def handlesClosed : Client Unit :=
  Proc.update fun client =>
    { client with
      queue := { client.queue with curWrite := none, tailWrite := none }
      readCb := false
      pcb := false
      closedHandle := 0 }

def uvlTcpCloseHandleCb : Client Unit := do
  Proc.update fun client => { client with closedHandle := client.closedHandle + 1 }
  let client ← Proc.read
  if client.closedHandle = 2 then handlesClosed else pure ()

/-! ## Reading -/

/-- `uvl_async_tcp_read_cb`, with the length of the buffer that `alloc_cb`
provides, if it provides one. -/
def uvlAsyncTcpReadCb (alloc : Option Nat) : Client Unit := do
  let client ← Proc.read
  if client.readCb ∧ 0 < client.recvUsed then
    if tooSmall alloc client.recvUsed then
      owner
    else do
      call .tcpRecved
      Proc.update fun client => { client with recvUsed := 0 }
      owner
  else
    pure ()

def uvlReadStart : Client Unit := do
  let client ← Proc.read
  if client.readCb then
    pure ()
  else if client.closed then
    owner
  else
    Proc.update fun client => { client with readCb := true, readReq := true }

/-- `uvl_client_recv_func`; without a buffer the peer has closed its side. -/
def uvlClientRecvFunc (buffer : Option Bytes) : Client Unit :=
  match buffer with
  | none => do
      let _ ← uvlClientCloseFunc owner
      pure ()
  | some bytes => do
      let client ← Proc.read
      if bytes.length > uvlTcpRecvBufLen - client.recvUsed then
        pure ()
      else
        Proc.update fun client =>
          { client with recvUsed := client.recvUsed + bytes.length, readReq := true }

/-! ## Writing -/

/-- `tcp_write`; none stands for an error that is not `ERR_MEM`. -/
def tcpWrite (bytes : Bytes) : Client (Option TcpErr) := do
  call .tcpWrite
  let client ← Proc.read
  Proc.update fun client => { client with writeFails := fun n => client.writeFails (n + 1) }
  if client.writeFails 0 then do
    Proc.emit .writeFailed
    pure none
  else do
    onQueue fun queue => { queue with results := fun n => queue.results (n + 1) }
    match client.queue.results 0 with
    | .mem => pure (some .mem)
    | .ok => do
        onQueue fun queue =>
          { queue with
            sndbuf := queue.sndbuf - bytes.length
            unacked := queue.unacked + bytes.length }
        pure (some .ok)

/-- The `do` loop of `uvl_imp_write_buf_to_tcp`; a value when the function returns
from there. -/
def writeLoop (req : Nat) (buf : Bytes) (sndbuf sent : Nat) : Client (Option Int) := do
  call .tcpSndbuf
  if _full : min (buf.length - sent) sndbuf = 0 then
    pure none
  else do
    match ← tcpWrite (slice buf sent (min (buf.length - sent) sndbuf)) with
    | none => do
        let err ← uvlClientCloseFunc owner
        pure (some err)
    | some .mem => pure (some 0)
    | some .ok => do
        modifyReq req fun r => r.took (min (buf.length - sent) sndbuf)
        if (sent + min (buf.length - sent) sndbuf) % 2 ^ 32 < buf.length then
          writeLoop req buf (sndbuf - min (buf.length - sent) sndbuf)
            ((sent + min (buf.length - sent) sndbuf) % 2 ^ 32)
        else
          pure none
termination_by sndbuf
decreasing_by omega

/-- `uvl_imp_write_buf_to_tcp` from `may_next` on. -/
def mayNext (req : Nat) : Client Int := do
  call .tcpSndbuf
  let client ← Proc.read
  if client.queue.sndbuf = 0 then
    pure 0
  else do
    modifyReq req fun r => { r with sent := 0, sentBufs := (r.sentBufs + 1) % 2 ^ 32 }
    pure 1

/-- The first thing done with the buffer is to compare its length with
`tcp_sndbuf`: without a pcb, or outside of the array, this is the last thing that
has a meaning. -/
def sndbufHalts : Client Unit := do
  call .tcpSndbuf
  halt

/-- `uvl_imp_write_buf_to_tcp` for the buffer at `sent_bufs`. -/
def uvlImpWriteBufToTcp (req : Nat) (buf : Bytes) : Client Int := do
  let client ← Proc.read
  if client.pcb then do
    match ← writeLoop req buf client.queue.sndbuf (client.queue.reqs req).sent with
    | some ret => pure ret
    | none => mayNext req
  else do
    sndbufHalts
    pure 0

/-- The second loop of `uvl_imp_write_to_tcp` as long as it stays at one request,
over the entries of the array from `sent_bufs` on; true when it goes on to the
next request.  `uvl_client_close_func` never answers -1. -/
def writeRequest (req : Nat) : List Bytes → Client Bool
  | [] => do
      sndbufHalts
      pure false
  | buf :: bufs => do
      let ret ← uvlImpWriteBufToTcp req buf
      if ret = 0 then
        pure false
      else do
        let client ← Proc.read
        if (client.queue.reqs req).sentBufs = (client.queue.reqs req).sendNbufs then
          pure true
        else
          writeRequest req bufs

/-- The second loop of `uvl_imp_write_to_tcp`. -/
def writeRequests : List Nat → Client Unit
  | [] => pure ()
  | req :: rest => do
      let client ← Proc.read
      let goesOn ← writeRequest req
        ((client.queue.reqs req).sendBufs.drop (client.queue.reqs req).sentBufs)
      if goesOn then writeRequests rest else pure ()

/-- The end of `uvl_imp_write_to_tcp`. -/
def tcpOutput : Client Unit := do
  call .tcpOutput
  let client ← Proc.read
  if client.pcb then do
    Proc.update fun client => { client with outputFails := fun n => client.outputFails (n + 1) }
    if client.outputFails 0 then do
      let _ ← uvlClientCloseFunc owner
      pure ()
    else
      pure ()
  else
    halt

/-- `uvl_imp_write_to_tcp`; the first loop skips the requests that have no buffer
left. -/
def uvlImpWriteToTcp : Client Unit := do
  let client ← Proc.read
  writeRequests (client.queue.queue.dropWhile fun req =>
    !decide ((client.queue.reqs req).sentBufs < (client.queue.reqs req).sendNbufs))
  tcpOutput

/-! ## Callbacks -/

/-- The loop of `uvl_async_tcp_write_cb`; `next` is saved before the callback. -/
def completeRequests : List Nat → Client Unit
  | [] => pure ()
  | req :: rest => do
      let client ← Proc.read
      if (client.queue.reqs req).totalSent = (client.queue.reqs req).totalLen ∧
          (client.queue.reqs req).pending = 0 then do
        onQueue fun queue => { queue with curWrite := (queue.reqs req).next }
        owner
        completeRequests rest
      else
        pure ()

/-- `uvl_async_tcp_write_cb` behind its loop. -/
def afterLoop : Client Unit := do
  onQueue fun queue => if queue.curWrite = none then { queue with tailWrite := none } else queue
  let client ← Proc.read
  if client.closed then
    uvlCancelReqs owner
  else if client.queue.curWrite = none then
    pure ()
  else
    uvlImpWriteToTcp

def uvlAsyncTcpWriteCb : Client Unit := do
  let client ← Proc.read
  completeRequests client.queue.queue
  afterLoop

/-- The loop of `uvl_client_sent_func`. -/
def consume : List Nat → Nat → Client Unit
  | [], len => if len = 0 then pure () else halt
  | req :: rest, len =>
      if len = 0 then
        pure ()
      else do
        let client ← Proc.read
        modifyReq req fun r => { r with pending := r.pending - min (client.queue.reqs req).pending len }
        consume rest (len - min (client.queue.reqs req).pending len)

def uvlClientSentFunc (len : Nat) : Client Unit := do
  let client ← Proc.read
  consume client.queue.queue len
  onQueue fun queue => { queue with writeReq := true }

/-! ## Steps -/

/-- What happens on a connection. -/
inductive PcbInput where
  | write (bufs : List Bytes) (nbufs : Nat) (within : nbufs ≤ bufs.length) (wide : nbufs < 2 ^ 32)
  /-- The loop runs the callback of `write_req`. -/
  | asyncWrite
  /-- The loop runs the callback of `read_req`. -/
  | asyncRead (alloc : Option Nat)
  | sent (len : UInt16)
  /-- `uvl_client_err_func` -/
  | err
  | recv (buffer : Option Bytes)
  | sndbuf (room : UInt16)
  | readStart
  | readStop
  | close
  /-- libuv reports one of the two handles as closed. -/
  | handleClosed

/-- A callback that lwIP runs. -/
def whileOpen (callback : Client Unit) : Client Unit := do
  let client ← Proc.read
  if client.closed then pure () else callback

/-- An input while the execution has a meaning. -/
def liveStep : PcbInput → Client Unit
  | .write bufs nbufs _ _ => onQueue fun queue => queue.uvlWrite bufs nbufs
  | .asyncWrite => do
      let client ← Proc.read
      if client.queue.writeReq ∧ ¬ client.closing then do
        onQueue fun queue => { queue with writeReq := false }
        uvlAsyncTcpWriteCb
      else
        pure ()
  | .asyncRead alloc => do
      let client ← Proc.read
      if client.readReq ∧ ¬ client.closing then do
        Proc.update fun client => { client with readReq := false }
        uvlAsyncTcpReadCb alloc
      else
        pure ()
  | .sent len => whileOpen do
      let client ← Proc.read
      if 0 < len.toNat ∧ len.toNat ≤ client.queue.unacked then do
        onQueue fun queue => { queue with unacked := queue.unacked - len.toNat }
        uvlClientSentFunc len.toNat
      else
        pure ()
  | .err => whileOpen (uvlClientFreed owner)
  | .recv buffer => whileOpen (uvlClientRecvFunc buffer)
  | .sndbuf room => onQueue fun queue => { queue with sndbuf := room.toNat }
  | .readStart => uvlReadStart
  | .readStop => uvlReadStop
  | .close => uvlTcpClose
  | .handleClosed => do
      let client ← Proc.read
      if client.closing ∧ 0 < client.openHandles then do
        Proc.update fun client => { client with openHandles := client.openHandles - 1 }
        uvlTcpCloseHandleCb
      else
        pure ()

def pcbStep (input : PcbInput) : Client Unit := do
  let client ← Proc.read
  if client.halted then pure () else liveStep input

/-- The connection after `uvl_tcp_init` and `uvl_accept`. -/
def UvlTcp.start (sndbuf : UInt16) (results : Nat → TcpErr) (writeFails outputFails closeFails : Nat → Bool)
    (reactions : Nat → Reaction) : UvlTcp where
  queue := .start sndbuf results
  writeFails := writeFails
  outputFails := outputFails
  closeFails := closeFails
  reactions := reactions
  recvUsed := 0
  pcb := true
  closed := false
  readCb := false
  readReq := false
  closing := false
  closedHandle := 0
  openHandles := 2
  halted := false

end SwitchLanPlay.UvLwip.Pcb
