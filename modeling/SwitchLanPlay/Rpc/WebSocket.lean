import Mathlib.Logic.Function.Basic
import SwitchLanPlay.Rpc.Connection

/-!
# WebSocket connections

`WSConnection` (`rpc-ws-server.cpp`): the HTTP upgrade request, read line by line,
and then the frames.  The class is modelled over any byte queue in the place of
`BufferList`.

Files are sent by callbacks that run later; only that a file is opened is
modelled.  Memory does not run out.
-/

namespace SwitchLanPlay.Rpc

open Library

inductive WSCState where
  | doHeader
  | waitHttp
  | waitDecodeHeader
  | waitingFor16BitLength
  | waitingFor64BitLength
  | waitingForMaskKey
  | waitingForPayload
  | dead
  deriving DecidableEq

/-- The operations of `BufferList`.  `passes` bounds how often the loop of
`onData` is taken; a pass that starts with a frame takes two bytes at least. -/
structure ByteQueue (β : Type) where
  empty : β
  add : β → Bytes → β
  size : β → Nat
  get : β → Nat → UInt8
  advance : β → Nat → β
  passes : β → Nat

/-- A correct byte queue. -/
def listQueue : ByteQueue Bytes where
  empty := []
  add := fun queue data => queue ++ data
  size := List.length
  get := byteAt
  advance := fun queue n => queue.drop n
  passes := fun queue => queue.length + 2

/-- `copyTo(0, ...)` -/
def ByteQueue.copyTo {β : Type} (queue : ByteQueue β) (bl : β) (n : Nat) : Bytes :=
  (List.range n).map (queue.get bl)

structure WSConnection (β σ : Type) where
  wsState : WSCState
  authed : Bool
  path : Bytes
  headers : Bytes → Bytes
  rl : Bytes
  bl : β
  frame : WSFrame
  server : σ

/-- The connection that `WSConnection`'s constructor leaves. -/
def WSConnection.start {β σ : Type} (queue : ByteQueue β) (server : σ) : WSConnection β σ where
  wsState := .doHeader
  authed := false
  path := []
  headers := fun _ => []
  rl := []
  bl := queue.empty
  frame := .clear
  server := server

/-! ## Texts -/

def httpResp400 : Bytes :=
  ascii "HTTP/1.1 400 Bad Request\r\nContent-Length: 0\r\nConnection: Close\r\n\r\n"

def httpResp101Part : Bytes :=
  ascii "HTTP/1.1 101 Switching Protocols\r\nUpgrade: websocket\r\nConnection: Upgrade\r\n" ++
    ascii "Sec-WebSocket-Protocol: switch-lan-play-rpc\r\nSec-WebSocket-Accept: "

def webSocketGuid : Bytes := ascii "258EAFA5-E914-47DA-95CA-C5AB0DC85B11"

abbrev space : UInt8 := 32
abbrev colon : UInt8 := 58

/-- A string up to the first `byte`, and what comes after it. -/
def cutAt (byte : UInt8) (text : Bytes) : Option (Bytes × Bytes) :=
  (text.findIdx? (· = byte)).map fun index => (text.take index, text.drop (index + 1))

/-- `getPath` -/
def getPath (line : Bytes) : Bytes :=
  match cutAt space line with
  | none => []
  | some (_, line) =>
      match cutAt space line with
      | none => []
      | some (path, line) => if line ≠ ascii "HTTP/1.1" then [] else path

def toLower (text : Bytes) : Bytes :=
  text.map fun byte => if 65 ≤ byte ∧ byte ≤ 90 then byte + 32 else byte

/-- `filename.find("..") != std::string::npos` -/
def hasDots (name : Bytes) : Bool := name.tails.any fun tail => (ascii "..").isPrefixOf tail

/-! ## The upgrade request -/

section Connection

variable {β σ : Type} (env : RpcEnv σ) (queue : ByteQueue β)

/-- `sendFile`, up to the opening of the file. -/
def sendFile (path : Bytes) : Proc (WSConnection β σ) RpcEvent Bytes :=
  if hasDots path then
    pure httpResp400
  else do
    Proc.emit (.openFile (ascii "http_root/" ++ if path.length = 0 then ascii "index.html" else path))
    pure []

/-- The test of the blank line. -/
def WSConnection.isUpgrade (conn : WSConnection β σ) : Bool :=
  decide (conn.path = ascii "/") &&
    decide (conn.headers (ascii "upgrade") = ascii "websocket") &&
    decide (conn.headers (ascii "connection") = ascii "Upgrade") &&
    decide (conn.headers (ascii "sec-websocket-version") = ascii "13") &&
    decide (conn.headers (ascii "sec-websocket-protocol") = ascii "switch-lan-play-rpc") &&
    decide ((conn.headers (ascii "sec-websocket-key")).length > 0)

/-- The value of `Sec-WebSocket-Accept` and the rest of the response. -/
def acceptance (key : Bytes) : Bytes :=
  httpResp101Part ++ env.base64Encode (env.sha1 (key ++ webSocketGuid)) ++ ascii "\r\n\r\n"

/-- The callback that the constructor hands to `BaseTCPConnection`. -/
def httpLine (line : Bytes) : Proc (WSConnection β σ) RpcEvent Bytes := do
  let conn ← Proc.read
  match conn.wsState with
  | .doHeader =>
      let path := getPath line
      if path.length = 0 then do
        Proc.update fun conn => { conn with path, wsState := .dead }
        pure httpResp400
      else do
        Proc.update fun conn => { conn with path, wsState := .waitHttp }
        pure []
  | .waitHttp =>
      if line.length > 0 then
        match cutAt colon line with
        | none => do
            Proc.update fun conn => { conn with wsState := .dead }
            pure httpResp400
        | some (key, value) => do
            Proc.update fun conn =>
              { conn with
                headers := Function.update conn.headers (toLower key) (value.dropWhile (· = space)) }
            pure []
      else if conn.isUpgrade then do
        Proc.update fun conn => { conn with wsState := .waitDecodeHeader }
        pure (acceptance env (conn.headers (ascii "sec-websocket-key")))
      else do
        Proc.update fun conn => { conn with wsState := .dead }
        sendFile (conn.path.drop 1)
  | _ => pure []

/-- `rl.callback` -/
def wsLine (line : Bytes) : Proc (WSConnection β σ) RpcEvent Unit := do
  let result ← httpLine env line
  sendStr result

/-! ## Frames -/

/-- `sendText`; a text of 65536 bytes or more is not sent. -/
def sendText (str : Bytes) : Proc (WSConnection β σ) RpcEvent Unit :=
  if str.length < 126 then do
    Proc.emit (.write [0x81, UInt8.ofNat str.length])
    Proc.emit (.write str)
  else if str.length < 65536 then do
    Proc.emit (.write ([0x81, 126] ++ net16 str.length))
    Proc.emit (.write str)
  else
    pure ()

/-- The answer to a text. -/
def wsReply (line : Bytes) (authed : Bool) : Proc (WSConnection β σ) RpcEvent Bytes :=
  if authed then
    Proc.zoom WSConnection.server (fun server conn => { conn with server }) (callOnMessage env line)
  else if line = env.token then do
    Proc.update fun conn => { conn with authed := true }
    pure authorized
  else
    pure invalidToken

/-- The part of `onFrame` for a text. -/
def onText (line : Bytes) : Proc (WSConnection β σ) RpcEvent Unit := do
  Proc.emit (.message line)
  let conn ← Proc.read
  let result ← wsReply env line conn.authed
  if result.length > 0 then sendText result else pure ()

def onFrame : Proc (WSConnection β σ) RpcEvent Unit := do
  let conn ← Proc.read
  Proc.emit (.frame conn.frame)
  if conn.frame.opcode = 8 then
    Proc.emit .close
  else if conn.frame.opcode ≠ 1 then
    pure ()
  else do
    Proc.update fun conn => { conn with frame.data := [] }
    onText env conn.frame.data

/-- The state after the two first bytes of a frame. -/
def lengthState (length : Nat) : WSCState :=
  if length = 126 then .waitingFor16BitLength
  else if length = 127 then .waitingFor64BitLength
  else .waitingForMaskKey

/-- The fields in the two first bytes of a frame. -/
def headerFrame (firstByte secondByte : UInt8) : WSFrame :=
  { WSFrame.clear with
    fin := firstByte &&& 0x80 ≠ 0
    rsv1 := firstByte &&& 0x40 ≠ 0
    rsv2 := firstByte &&& 0x20 ≠ 0
    rsv3 := firstByte &&& 0x10 ≠ 0
    mask := secondByte &&& 0x80 ≠ 0
    opcode := firstByte &&& 0x0F
    length := (secondByte &&& 0x7F).toNat }

/-- `((unsigned char)byte) << amount`, as it is added to a `uint64_t`.  The byte
is promoted to `int`: a shift by 24 may reach the sign bit, and larger shifts
have no meaning. -/
def shifted (byte : UInt8) (amount : Nat) : Nat :=
  if amount < 24 then byte.toNat * 2 ^ amount
  else if amount = 24 then
    if byte.toNat < 128 then byte.toNat * 2 ^ 24 else byte.toNat * 2 ^ 24 + (2 ^ 64 - 2 ^ 32)
  else env.wideShift byte amount % 2 ^ 64

/-- The loop over the eight length bytes. -/
def length64 (get : Nat → UInt8) : Nat :=
  (List.range 8).foldl (fun length i => length ||| shifted env (get i) (64 - 8 * i - 8)) 0

/-- The bytes of a payload without their mask. -/
def unmask (maskBytes data : Bytes) : Bytes :=
  data.mapIdx fun i byte => byte ^^^ byteAt maskBytes (i % 4)

/-- The first `if` of the loop; false stands for its `break`. -/
def decodeHeader : Proc (WSConnection β σ) RpcEvent Bool := do
  let conn ← Proc.read
  if conn.wsState = .waitDecodeHeader then
    if queue.size conn.bl ≥ 2 then do
      let frame := headerFrame (queue.get conn.bl 0) (queue.get conn.bl 1)
      Proc.update fun conn =>
        { conn with frame, wsState := lengthState frame.length, bl := queue.advance conn.bl 2 }
      pure true
    else
      pure false
  else
    pure true

def decode16BitLength : Proc (WSConnection β σ) RpcEvent Unit := do
  let conn ← Proc.read
  if conn.wsState = .waitingFor16BitLength ∧ queue.size conn.bl ≥ 2 then
    Proc.update fun conn =>
      { conn with
        frame.length := 256 * (queue.get conn.bl 0).toNat + (queue.get conn.bl 1).toNat
        bl := queue.advance conn.bl 2
        wsState := .waitingForMaskKey }
  else
    pure ()

def decode64BitLength : Proc (WSConnection β σ) RpcEvent Unit := do
  let conn ← Proc.read
  if conn.wsState = .waitingFor64BitLength ∧ queue.size conn.bl ≥ 8 then
    Proc.update fun conn =>
      { conn with
        frame.length := length64 env (queue.get conn.bl)
        bl := queue.advance conn.bl 8
        wsState := .waitingForMaskKey }
  else
    pure ()

def decodeMaskKey : Proc (WSConnection β σ) RpcEvent Unit := do
  let conn ← Proc.read
  if conn.wsState = .waitingForMaskKey then
    if conn.frame.mask then
      if queue.size conn.bl ≥ 4 then
        Proc.update fun conn =>
          { conn with
            frame.maskBytes := queue.copyTo conn.bl 4
            bl := queue.advance conn.bl 4
            wsState := .waitingForPayload }
      else
        pure ()
    else
      Proc.update fun conn => { conn with wsState := .waitingForPayload }
  else
    pure ()

/-- The payload of the frame at the front of the queue. -/
def WSConnection.payload (conn : WSConnection β σ) : Bytes :=
  if conn.frame.mask then unmask conn.frame.maskBytes (queue.copyTo conn.bl conn.frame.length)
  else queue.copyTo conn.bl conn.frame.length

def decodePayload : Proc (WSConnection β σ) RpcEvent Unit := do
  let conn ← Proc.read
  if conn.wsState = .waitingForPayload ∧ queue.size conn.bl ≥ conn.frame.length then do
    Proc.update fun conn =>
      { conn with
        frame.data := conn.payload queue
        bl := queue.advance conn.bl conn.frame.length
        wsState := .waitDecodeHeader }
    onFrame env
  else
    pure ()

/-- The `do` loop of `onData`. -/
def decodeLoop : Nat → Proc (WSConnection β σ) RpcEvent Unit
  | 0 => pure ()
  | passes + 1 => do
      if ← decodeHeader queue then do
        decode16BitLength queue
        decode64BitLength env queue
        decodeMaskKey queue
        decodePayload env queue
        let conn ← Proc.read
        if conn.wsState = .waitDecodeHeader then decodeLoop passes else pure ()
      else
        pure ()

/-- `WSConnection::onData` -/
def wsOnData (data : Bytes) : Proc (WSConnection β σ) RpcEvent Unit := do
  let conn ← Proc.read
  if conn.wsState = .doHeader ∨ conn.wsState = .waitHttp then do
    let buffer ← feedLoop (wsLine env) (conn.rl ++ data)
    Proc.update fun conn => { conn with rl := buffer }
  else if conn.wsState = .dead then
    pure ()
  else do
    Proc.emit (.add data)
    Proc.update fun conn => { conn with bl := queue.add conn.bl data }
    decodeLoop env queue (queue.passes (queue.add conn.bl data))

end Connection

end SwitchLanPlay.Rpc
