import Mathlib.Logic.Function.Basic
import SwitchLanPlay.Library.Bytes
import SwitchLanPlay.Library.Proc

/-!
# The write queue of a connection

`uvl_write`, the coalesced write callback and `uvl_client_sent_func` of
`uv_lwip.c`, on an open connection.  Requests are linked through their `next`
pointers; `cur_write` and `tail_write` point to the first and the last one.

Of lwIP it is assumed that `tcp_write` answers `ERR_OK` or `ERR_MEM`, that a
successful call lowers `tcp_sndbuf` by the bytes it took, that `tcp_output`
succeeds, and that only bytes that were taken are acknowledged.  Between the
callbacks `tcp_sndbuf` may change in any way.
-/

namespace SwitchLanPlay.UvLwip

open Library

/-- The answers of `tcp_write`: `ERR_OK` and `ERR_MEM`. -/
inductive TcpErr where
  | ok
  | mem
  deriving DecidableEq

/-- `struct uvl_write`.  `sendBufs` is the array that `send_bufs` points to; the
request is for its first `sendNbufs` entries. -/
structure UvlWrite where
  sendBufs : List Bytes
  sendNbufs : Nat
  sentBufs : Nat
  sent : Nat
  pending : Nat
  totalSent : Nat
  totalLen : Nat
  next : Option Nat

/-- The fields of `struct uvl_tcp` and of its pcb that writing works on.  The
request that was submitted as number `i` lives at `reqs i`; `results` lists what
the coming calls of `tcp_write` return, `unacked` counts the bytes that lwIP
took and has not acknowledged. -/
structure UvlQueue where
  reqs : Nat → UvlWrite
  submitted : Nat
  curWrite : Option Nat
  tailWrite : Option Nat
  writeReq : Bool
  sndbuf : Nat
  unacked : Nat
  results : Nat → TcpErr

inductive QueueEvent where
  /-- Bytes that `tcp_write` took. -/
  | tcpWrite (bytes : Bytes)
  | tcpOutput
  /-- `uvl_client_sent_func` is called. -/
  | acked (len : Nat)
  /-- `write_cb(req, 0)` -/
  | writeCb (req : Nat)
  /-- An entry behind the end of a `send_bufs` array is read. -/
  | outsideArray (req : Nat)
  /-- `uvl_client_sent_func` steps past the last request. -/
  | nullRequest
  deriving DecidableEq

namespace UvlQueue

/-- The requests on the way from a pointer along `next`, `count` of them at most. -/
def chain (client : UvlQueue) : Nat → Option Nat → List Nat
  | 0, _ => []
  | _ + 1, none => []
  | count + 1, some req => req :: client.chain count (client.reqs req).next

/-- The requests that the loops from `cur_write` on pass. -/
def queue (client : UvlQueue) : List Nat := client.chain client.submitted client.curWrite

/-- A request after the assignments of `uvl_write`. -/
def freshRequest (bufs : List Bytes) (nbufs : Nat) : UvlWrite where
  sendBufs := bufs
  sendNbufs := nbufs
  sentBufs := 0
  sent := 0
  pending := 0
  totalSent := 0
  totalLen := ((bufs.take nbufs).map List.length).sum % 2 ^ 32
  next := none

/-- `tail_write->next = req`, when there is a last request. -/
def linkTail (client : UvlQueue) (req : Nat) : Nat → UvlWrite :=
  match client.tailWrite with
  | some tail => Function.update client.reqs tail { client.reqs tail with next := some req }
  | none => client.reqs

/-- `uvl_write` -/
def uvlWrite (client : UvlQueue) (bufs : List Bytes) (nbufs : Nat) : UvlQueue :=
  let req := client.submitted
  { client with
    reqs := Function.update (client.linkTail req) req (freshRequest bufs nbufs)
    submitted := req + 1
    tailWrite := some req
    curWrite := client.curWrite.or (some req)
    writeReq := true }

end UvlQueue

/-- Assign to the fields of a request. -/
def modifyReq (req : Nat) (f : UvlWrite → UvlWrite) : Proc UvlQueue QueueEvent Unit :=
  Proc.update fun client => { client with reqs := Function.update client.reqs req (f (client.reqs req)) }

def tcpWrite (bytes : Bytes) : Proc UvlQueue QueueEvent TcpErr := do
  let client ← Proc.read
  Proc.update fun client => { client with results := fun call => client.results (call + 1) }
  match client.results 0 with
  | .mem => pure .mem
  | .ok => do
      Proc.update fun client =>
        { client with
          sndbuf := client.sndbuf - bytes.length
          unacked := client.unacked + bytes.length }
      Proc.emit (.tcpWrite bytes)
      pure .ok

/-- The counters after `to_write` bytes were taken. -/
def UvlWrite.took (req : UvlWrite) (toWrite : Nat) : UvlWrite :=
  { req with
    sent := (req.sent + toWrite) % 2 ^ 32
    pending := (req.pending + toWrite) % 2 ^ 32
    totalSent := (req.totalSent + toWrite) % 2 ^ 32 }

/-- The `do` loop of `uvl_imp_write_buf_to_tcp`, entered with the given values of
`tcp_sndbuf` and `req->sent`; false when `tcp_write` answers `ERR_MEM`. -/
def writeLoop (req : Nat) (buf : Bytes) (sndbuf sent : Nat) : Proc UvlQueue QueueEvent Bool :=
  if _full : min (buf.length - sent) sndbuf = 0 then
    pure true
  else do
    match ← tcpWrite (slice buf sent (min (buf.length - sent) sndbuf)) with
    | .mem => pure false
    | .ok => do
        modifyReq req fun r => r.took (min (buf.length - sent) sndbuf)
        if (sent + min (buf.length - sent) sndbuf) % 2 ^ 32 < buf.length then
          writeLoop req buf (sndbuf - min (buf.length - sent) sndbuf)
            ((sent + min (buf.length - sent) sndbuf) % 2 ^ 32)
        else
          pure true
termination_by sndbuf
decreasing_by omega

/-- `uvl_imp_write_buf_to_tcp` for the buffer at `sent_bufs`; true when it returns 1. -/
def uvlImpWriteBufToTcp (req : Nat) (buf : Bytes) : Proc UvlQueue QueueEvent Bool := do
  let client ← Proc.read
  let mayNext ← writeLoop req buf client.sndbuf (client.reqs req).sent
  if mayNext then do
    let client ← Proc.read
    if client.sndbuf = 0 then
      pure false
    else do
      modifyReq req fun r => { r with sent := 0, sentBufs := (r.sentBufs + 1) % 2 ^ 32 }
      pure true
  else
    pure false

/-- The second loop of `uvl_imp_write_to_tcp` as long as it stays at one request,
over the entries of the array from `sent_bufs` on; true when it goes on to the
next request. -/
def writeRequest (req : Nat) : List Bytes → Proc UvlQueue QueueEvent Bool
  | [] => do
      Proc.emit (.outsideArray req)
      pure false
  | buf :: bufs => do
      let advanced ← uvlImpWriteBufToTcp req buf
      if advanced then do
        let client ← Proc.read
        if (client.reqs req).sentBufs = (client.reqs req).sendNbufs then
          pure true
        else
          writeRequest req bufs
      else
        pure false

/-- The second loop of `uvl_imp_write_to_tcp`.  Only the first loop asks whether
a request has buffers left. -/
def writeRequests : List Nat → Proc UvlQueue QueueEvent Unit
  | [] => pure ()
  | req :: rest => do
      let client ← Proc.read
      let goesOn ← writeRequest req ((client.reqs req).sendBufs.drop (client.reqs req).sentBufs)
      if goesOn then writeRequests rest else pure ()

def uvlImpWriteToTcp : Proc UvlQueue QueueEvent Unit := do
  let client ← Proc.read
  writeRequests (client.queue.dropWhile fun req =>
    !decide ((client.reqs req).sentBufs < (client.reqs req).sendNbufs))
  Proc.emit .tcpOutput

/-- The loop of `uvl_async_tcp_write_cb`. -/
def completeRequests : List Nat → Proc UvlQueue QueueEvent Unit
  | [] => pure ()
  | req :: rest => do
      let client ← Proc.read
      if (client.reqs req).totalSent = (client.reqs req).totalLen ∧ (client.reqs req).pending = 0 then do
        Proc.update fun client => { client with curWrite := (client.reqs req).next }
        Proc.emit (.writeCb req)
        completeRequests rest
      else
        pure ()

def uvlAsyncTcpWriteCb : Proc UvlQueue QueueEvent Unit := do
  let client ← Proc.read
  completeRequests client.queue
  let client ← Proc.read
  match client.curWrite with
  | none => Proc.update fun client => { client with tailWrite := none }
  | some _ => uvlImpWriteToTcp

/-- The loop of `uvl_client_sent_func`. -/
def consume : List Nat → Nat → Proc UvlQueue QueueEvent Unit
  | [], len => if len = 0 then pure () else Proc.emit .nullRequest
  | req :: rest, len =>
      if len = 0 then
        pure ()
      else do
        let client ← Proc.read
        modifyReq req fun r => { r with pending := r.pending - min (client.reqs req).pending len }
        consume rest (len - min (client.reqs req).pending len)

def uvlClientSentFunc (len : Nat) : Proc UvlQueue QueueEvent Unit := do
  Proc.emit (.acked len)
  let client ← Proc.read
  consume client.queue len
  Proc.update fun client => { client with writeReq := true }

/-- What happens on a connection, as far as writing is concerned. -/
inductive QueueInput where
  | write (bufs : List Bytes) (nbufs : Nat) (within : nbufs ≤ bufs.length) (wide : nbufs < 2 ^ 32)
  | asyncWrite
  | sent (len : UInt16)
  /-- The send buffer of the pcb has room for so many bytes from now on. -/
  | sndbuf (room : UInt16)

def queueStep : QueueInput → Proc UvlQueue QueueEvent Unit
  | .write bufs nbufs _ _ => Proc.update fun client => client.uvlWrite bufs nbufs
  | .asyncWrite => do
      let client ← Proc.read
      if client.writeReq then do
        Proc.update fun client => { client with writeReq := false }
        uvlAsyncTcpWriteCb
      else
        pure ()
  | .sent len => do
      let client ← Proc.read
      if 0 < len.toNat ∧ len.toNat ≤ client.unacked then do
        Proc.update fun client => { client with unacked := client.unacked - len.toNat }
        uvlClientSentFunc len.toNat
      else
        pure ()
  | .sndbuf room => Proc.update fun client => { client with sndbuf := room.toNat }

/-- The queue after `uvl_tcp_init` and `uvl_accept`. -/
def UvlQueue.start (sndbuf : UInt16) (results : Nat → TcpErr) : UvlQueue where
  reqs := fun _ => UvlQueue.freshRequest [] 0
  submitted := 0
  curWrite := none
  tailWrite := none
  writeReq := false
  sndbuf := sndbuf.toNat
  unacked := 0
  results := results

end SwitchLanPlay.UvLwip
