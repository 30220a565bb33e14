import SwitchLanPlay.Library.Bytes
import SwitchLanPlay.Library.Proc

/-!
# RPC connections

The line reader (`read-line.hpp`), the parts that both kinds of connections share,
and `TCPConnection` (`rpc-tcp-server.hpp`).  A connection is a state and the bytes
of each data event are an input; `server` is the state that
`RPCServerSession::onMessage` works on.

The handle of a connection is alive while one of its data events is handled, so
`weak_tcp.lock()` succeeds there.
-/

namespace SwitchLanPlay.Rpc

open Library

/-- The bytes of a C string. -/
def ascii (text : String) : Bytes := text.toList.map fun c => UInt8.ofNat c.toNat

/-- `WSFrame` -/
structure WSFrame where
  fin : Bool
  rsv1 : Bool
  rsv2 : Bool
  rsv3 : Bool
  mask : Bool
  opcode : UInt8
  length : Nat
  maskBytes : Bytes
  data : Bytes
  deriving DecidableEq

/-- `WSFrame::clear` -/
def WSFrame.clear : WSFrame := ⟨false, false, false, false, false, 0, 0, [0, 0, 0, 0], []⟩

inductive RpcEvent where
  /-- A complete line of a TCP connection, or a text frame. -/
  | message (text : Bytes)
  /-- `RPCServerSession::onMessage` is invoked. -/
  | onMessage (text : Bytes)
  /-- `client->write` -/
  | write (data : Bytes)
  /-- `bl.add` -/
  | add (data : Bytes)
  /-- `onFrame` is invoked. -/
  | frame (frame : WSFrame)
  | close
  /-- A file is opened, to be sent. -/
  | openFile (name : Bytes)
  deriving DecidableEq

/-- The configured token, the session, the digest of `sha1.c`, the encoder of
`base64.hpp`, and what `byte << amount` is for the amounts that C++ gives no
meaning to on an `int`. -/
structure RpcEnv (σ : Type) where
  token : Bytes
  onMessage : Bytes → σ → Bytes × σ
  sha1 : Bytes → Bytes
  base64Encode : Bytes → Bytes
  wideShift : UInt8 → Nat → Nat

/-- `session->onMessage(line)` -/
def callOnMessage {σ : Type} (env : RpcEnv σ) (line : Bytes) : Proc σ RpcEvent Bytes := do
  Proc.emit (.onMessage line)
  let server ← Proc.read
  Proc.update fun server => (env.onMessage line server).2
  pure (env.onMessage line server).1

/-- `sendStr` -/
def sendStr {τ : Type} (str : Bytes) : Proc τ RpcEvent Unit :=
  if str.length > 0 then Proc.emit (.write str) else pure ()

def authorized : Bytes := ascii "success=\"authorized\""

def invalidToken : Bytes := ascii "error=\"authorized failed: invalid token\""

/-! ## ReadLine -/

abbrev lineFeed : UInt8 := 10
abbrev carriageReturn : UInt8 := 13

/-- The test of `line[len - 1]`.  On an empty line it reads outside the string,
but whatever it finds there the line stays empty. -/
def stripCr (line : Bytes) : Bytes :=
  if line.getLast? = some carriageReturn then line.dropLast else line

/-- The loop of `ReadLine::feed`; its value is what stays in `buffer`. -/
def feedLoop {τ ε : Type} (callback : Bytes → Proc τ ε Unit) (buffer : Bytes) : Proc τ ε Bytes :=
  match found : buffer.findIdx? (· = lineFeed) with
  | none => pure buffer
  | some index => do
      callback (stripCr (buffer.take index))
      feedLoop callback (buffer.drop (index + 1))
termination_by buffer.length
decreasing_by
  cases buffer with
  | nil => cases found
  | cons first rest => simp only [List.length_drop, List.length_cons]; omega

section FeedLoop

variable {τ ε : Type} (callback : Bytes → Proc τ ε Unit) {buffer : Bytes}

theorem feedLoop_none (noLine : buffer.findIdx? (· = lineFeed) = none) :
    feedLoop callback buffer = pure buffer := by
  rw [feedLoop]
  split
  · rfl
  · simp_all

theorem feedLoop_some {index : Nat} (found : buffer.findIdx? (· = lineFeed) = some index) :
    feedLoop callback buffer = (do
      callback (stripCr (buffer.take index))
      feedLoop callback (buffer.drop (index + 1))) := by
  rw [feedLoop]
  split
  · simp_all
  · simp_all

end FeedLoop

/-! ## TCPConnection -/

structure TCPConnection (σ : Type) where
  rl : Bytes
  authed : Bool
  server : σ

/-- The connection that `TCPConnection`'s constructor leaves. -/
def TCPConnection.start {σ : Type} (server : σ) : TCPConnection σ := ⟨[], false, server⟩

/-- The answer to a line. -/
def tcpReply {σ : Type} (env : RpcEnv σ) (line : Bytes) (authed : Bool) :
    Proc (TCPConnection σ) RpcEvent Bytes :=
  if authed then
    Proc.zoom TCPConnection.server (fun server conn => { conn with server }) (callOnMessage env line)
  else if line = env.token then do
    Proc.update fun conn => { conn with authed := true }
    pure authorized
  else
    pure invalidToken

/-- The callback for a line. -/
def tcpLine {σ : Type} (env : RpcEnv σ) (line : Bytes) : Proc (TCPConnection σ) RpcEvent Unit := do
  Proc.emit (.message line)
  let conn ← Proc.read
  let result ← tcpReply env line conn.authed
  sendStr (result ++ ascii "\n# end\n")

/-- `BaseTCPConnection::onData` -/
def tcpOnData {σ : Type} (env : RpcEnv σ) (data : Bytes) : Proc (TCPConnection σ) RpcEvent Unit := do
  let conn ← Proc.read
  let buffer ← feedLoop (tcpLine env) (conn.rl ++ data)
  Proc.update fun conn => { conn with rl := buffer }

end SwitchLanPlay.Rpc
