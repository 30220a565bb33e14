import Mathlib.Data.List.AList
import SwitchLanPlay.Android.Protocol
import SwitchLanPlay.Library.Proc

/-!
# The relay of the Android client

`UdpRelayServer.kt` and `ServerRedirector.kt`, wired as in
`LanPlayVpnService.kt`.  Packets that are read from the TUN are opened, and their
payloads go to the server; what the server sends is wrapped into packets that are
written to the TUN.  The handlers run one at a time.  The log is left out.

The system decides which ports can be bound, what the clock says and in which
order the entries of the socket table are iterated.
-/

namespace SwitchLanPlay.Android

open Library

/-- An `InetAddress`; only IPv4 ones occur. -/
@[ext]
structure InetAddress where
  first : UInt8
  second : UInt8
  third : UInt8
  fourth : UInt8
  deriving DecidableEq

def InetAddress.address (ip : InetAddress) : Bytes := [ip.first, ip.second, ip.third, ip.fourth]

/-- The address in the four bytes from `offset` on. -/
def inetAddressAt (packet : Bytes) (offset : Nat) : InetAddress :=
  ⟨byteAt packet offset, byteAt packet (offset + 1), byteAt packet (offset + 2), byteAt packet (offset + 3)⟩

/-- `IDLE_TIMEOUT_MS` -/
abbrev idleTimeoutMs : Int := 60000

/-- `ManagedSocket`, with the port its `DatagramSocket` is bound to. -/
structure ManagedSocket where
  localPort : Nat
  lastSourceIp : InetAddress
  lastSourcePort : Nat
  lastActivity : Int
  deriving DecidableEq

/-- The map from gateway ports to sockets, in the order of its iteration. -/
abbrev SocketTable := AList fun _ : Nat => ManagedSocket

/-- `sockets.values` -/
def SocketTable.values (sockets : SocketTable) : List ManagedSocket :=
  sockets.entries.map Sigma.snd

/-- The relay and its redirector.  `gatewayIp` is null for the empty string;
`connected` says whether the redirector has resolved the server and opened its socket. -/
structure Relay where
  gatewayIp : Option InetAddress
  sockets : SocketTable
  connected : Bool

inductive RelayEvent where
  /-- `forwardToServer` sends a datagram for a payload that came in at a gateway port. -/
  | forwarded (sourcePort : Nat) (datagram : Bytes)
  /-- `onTunWrite` -/
  | tunWrite (packet : Bytes)
  /-- A `DatagramSocket` is bound. -/
  | opened (localPort : Nat)
  | closed (localPort : Nat)
  deriving DecidableEq

/-! ## Raw packets -/

/-- `while (sum shr 16 != 0) sum = (sum and 0xFFFF) + (sum shr 16)` -/
def foldCarry (sum : Nat) : Nat :=
  if sum < 2 ^ 16 then sum else foldCarry (sum % 2 ^ 16 + sum / 2 ^ 16)
termination_by sum
decreasing_by omega

/-- `calculateChecksum`: the word at `offset + 10`, the checksum itself, is left out. -/
def calculateChecksum (data : Bytes) (offset length : Nat) : Nat :=
  let words := (List.range ((length + 1) / 2)).filter fun word => word ≠ 5
  2 ^ 16 - 1 - foldCarry (words.map fun word => net16At data (offset + 2 * word)).sum

def calculateUdpChecksum (packet : Bytes) (udpOffset udpLen : Nat) (srcIp dstIp : InetAddress) : Nat :=
  let pseudo := net16At srcIp.address 0 + net16At dstIp.address 0 +
    net16At srcIp.address 2 + net16At dstIp.address 2 + 17 + udpLen
  let words := (List.range (udpLen / 2)).map fun word => net16At packet (udpOffset + 2 * word)
  let last := if udpLen % 2 = 1 then 256 * (byteAt packet (udpOffset + udpLen - 1)).toNat else 0
  let result := 2 ^ 16 - 1 - foldCarry (pseudo + words.sum + last)
  if result = 0 then 0xFFFF else result

def ipHeader (totalLength checksum : Nat) (srcIp dstIp : InetAddress) : Bytes :=
  [0x45, 0] ++ net16 totalLength ++ [0, 0, 0x40, 0, 64, 17] ++ net16 checksum ++
    srcIp.address ++ dstIp.address

def udpHeader (srcPort dstPort udpLen checksum : Nat) : Bytes :=
  net16 srcPort ++ net16 dstPort ++ net16 udpLen ++ net16 checksum

/-- `buildRawUdpPacket`.  The UDP checksum is taken before the payload is copied
into the packet. -/
def buildRawUdpPacket (srcIp : InetAddress) (srcPort : Nat) (dstIp : InetAddress) (dstPort : Nat)
    (payload : Bytes) : Bytes :=
  let totalLength := 20 + 8 + payload.length
  let ipChecksum := calculateChecksum (ipHeader totalLength 0 srcIp dstIp) 0 20
  let ip := ipHeader totalLength ipChecksum srcIp dstIp
  let udpLen := 8 + payload.length
  let udpChecksum := calculateUdpChecksum
    (ip ++ udpHeader srcPort dstPort udpLen 0 ++ List.replicate payload.length 0) 20 udpLen srcIp dstIp
  ip ++ udpHeader srcPort dstPort udpLen udpChecksum ++ payload

/-! ## To the server -/

/-- `ServerRedirector.forwardToServer`; a payload that does not fit `sendBuffer`
ends in an exception that is logged. -/
def forwardToServer (payload : Bytes) (sourcePort : Nat) : Proc Relay RelayEvent Unit := do
  let relay ← Proc.read
  if relay.connected ∧ payload.length ≤ 2048 then
    let header : Header :=
      { magic := magicNumber
        type := .connect
        compressed := 0
        length := payload.length
        decompressLength := payload.length }
    Proc.emit (.forwarded sourcePort (header.toBytes ++ payload))
  else
    pure ()

/-- `DatagramSocket(port)`, null when it throws.  A port that an open socket has
is not free; for port 0 the system chooses one. -/
def bindPort (sockets : SocketTable) (port : Nat) (answer : Option Nat) : Option Nat :=
  answer.bind fun free =>
    let bound := if port = 0 then free else port
    if bound = 0 ∨ 2 ^ 16 ≤ bound ∨ sockets.values.any (fun managed => managed.localPort = bound) then
      none
    else
      some bound

/-- `handleInterceptedPacket`.  Only this handler adds entries, so `putIfAbsent`
finds none. -/
def handleInterceptedPacket (srcIp : InetAddress) (srcPort dstPort : Nat) (payload : Bytes)
    (answer : Option Nat) (now : Int) : Proc Relay RelayEvent Unit := do
  let relay ← Proc.read
  let record (localPort : Nat) : Proc Relay RelayEvent Unit := do
    Proc.update fun relay =>
      { relay with sockets := relay.sockets.insert dstPort ⟨localPort, srcIp, srcPort, now⟩ }
    forwardToServer payload dstPort
  match relay.sockets.lookup dstPort with
  | some managed => record managed.localPort
  | none =>
      match bindPort relay.sockets dstPort answer with
      | none => pure ()
      | some localPort => do
          Proc.emit (.opened localPort)
          record localPort

/-- What `input.read(buffer)` leaves in the buffer of the TUN thread: `length`
new bytes, and behind them those of earlier packets. -/
structure TunRead where
  buffer : Bytes
  length : Nat
  sized : buffer.length = 32767
  within : length ≤ 32767

/-- The fields of a UDP packet as `processFromTun` reads them. -/
structure Intercepted where
  srcIp : InetAddress
  srcPort : Nat
  dstPort : Nat
  payload : Bytes

def broadcastIp : InetAddress := ⟨255, 255, 255, 255⟩

/-- The checks and reads of `processFromTun`, null where it returns false. -/
def parseFromTun (gatewayIp : Option InetAddress) (read : TunRead) : Option Intercepted :=
  let packet := read.buffer
  if read.length < 28 then none
  else if (byteAt packet 0).toNat / 16 ≠ 4 then none
  else if byteAt packet 9 ≠ 17 then none
  else
    let dstIp := inetAddressAt packet 16
    if gatewayIp ≠ none ∧ some dstIp ≠ gatewayIp ∧ dstIp ≠ broadcastIp then none
    else
      let ihl := (byteAt packet 0).toNat % 16 * 4
      let payloadOffset := ihl + 8
      if read.length ≤ payloadOffset then none
      else
        some
          { srcIp := inetAddressAt packet 12
            srcPort := net16At packet ihl
            dstPort := net16At packet (ihl + 2)
            payload := slice packet payloadOffset (read.length - payloadOffset) }

/-- `UdpRelayServer.processFromTun` -/
def processFromTun (read : TunRead) (answer : Option Nat) (now : Int) : Proc Relay RelayEvent Bool := do
  let relay ← Proc.read
  match parseFromTun relay.gatewayIp read with
  | none => pure false
  | some packet => do
      handleInterceptedPacket packet.srcIp packet.srcPort packet.dstPort packet.payload answer now
      pure true

/-! ## From the server -/

/-- The address that stands in for an unknown gateway: 192.168.43.1. -/
def defaultGateway : InetAddress := ⟨192, 168, 43, 1⟩

/-- `maxByOrNull`: an element with the largest key, the first of them. -/
def maxByOrNull {α β : Type} [LT β] [DecidableLT β] (key : α → β) : List α → Option α
  | [] => none
  | first :: rest =>
      some (rest.foldl (fun best element => if key best < key element then element else best) first)

/-- The entry that `processFromServer` answers to. -/
def Relay.managedFor (relay : Relay) (gatewayPort : Nat) : Option ManagedSocket :=
  if gatewayPort ≠ 0 then relay.sockets.lookup gatewayPort
  else maxByOrNull ManagedSocket.lastActivity relay.sockets.values

/-- `UdpRelayServer.processFromServer` -/
def processFromServer (payload : Bytes) (gatewayPort : Nat) : Proc Relay RelayEvent Unit := do
  let relay ← Proc.read
  match relay.managedFor gatewayPort with
  | none => pure ()
  | some managed =>
      Proc.emit (.tunWrite (buildRawUdpPacket (relay.gatewayIp.getD defaultGateway)
        (if gatewayPort ≠ 0 then gatewayPort else managed.localPort)
        managed.lastSourceIp managed.lastSourcePort payload))

/-- A datagram in the receive buffer of the redirector. -/
structure Received where
  buffer : Bytes
  length : Nat
  sized : buffer.length = 4096
  within : length ≤ 4096

/-- The payload that `handleServerPacket` finds in a datagram. -/
def Received.payload (received : Received) : Option Bytes :=
  if received.length < headerSize then
    none
  else
    match Header.fromBytes received.buffer with
    | none => none
    | some header =>
        if header.magic = magicNumber then
          some (slice received.buffer headerSize (received.length - headerSize))
        else
          none

/-- `ServerRedirector.handleServerPacket`, with the relay set. -/
def handleServerPacket (received : Received) : Proc Relay RelayEvent Unit :=
  match received.payload with
  | none => pure ()
  | some payload => processFromServer payload 0

/-! ## The watchdog -/

/-- The test of `cleanupIdleSockets`. -/
def idle (now : Int) (managed : ManagedSocket) : Bool := idleTimeoutMs < now - managed.lastActivity

/-- The entries that `cleanupIdleSockets` leaves. -/
def SocketTable.active (sockets : SocketTable) (now : Int) : SocketTable where
  entries := sockets.entries.filter fun entry => !idle now entry.2
  nodupKeys := sockets.nodupKeys.sublist List.filter_sublist

def closeAll : List ManagedSocket → Proc Relay RelayEvent Unit
  | [] => pure ()
  | managed :: rest => do
      Proc.emit (.closed managed.localPort)
      closeAll rest

def cleanupIdleSockets (now : Int) : Proc Relay RelayEvent Unit := do
  let relay ← Proc.read
  closeAll (relay.sockets.values.filter (idle now))
  Proc.update fun relay => { relay with sockets := relay.sockets.active now }

/-- `UdpRelayServer.stop` -/
def stop : Proc Relay RelayEvent Unit := do
  let relay ← Proc.read
  closeAll relay.sockets.values
  Proc.update fun relay => { relay with sockets := ∅ }

/-! ## Steps -/

/-- What the threads of the service handle, and what the system changes in between. -/
inductive RelayInput where
  | tun (read : TunRead) (answer : Option Nat) (now : Int)
  | server (received : Received)
  | watchdog (now : Int)
  /-- The map iterates its entries in this order from now on. -/
  | rehash (entries : List (Sigma fun _ : Nat => ManagedSocket))
  /-- The redirector opened or closed its socket. -/
  | connected (up : Bool)

/-- The same entries in another order. -/
def SocketTable.reorder (sockets : SocketTable) (entries : List (Sigma fun _ : Nat => ManagedSocket)) :
    SocketTable :=
  if same : entries.Perm sockets.entries then
    ⟨entries, (List.perm_nodupKeys same).mpr sockets.nodupKeys⟩
  else
    sockets

def relayStep : RelayInput → Proc Relay RelayEvent Unit
  | .tun read answer now => do
      let _ ← processFromTun read answer now
      pure ()
  | .server received => handleServerPacket received
  | .watchdog now => cleanupIdleSockets now
  | .rehash entries =>
      Proc.update fun relay => { relay with sockets := relay.sockets.reorder entries }
  | .connected up => Proc.update fun relay => { relay with connected := up }

/-- The relay after its constructor. -/
def Relay.start (gatewayIp : Option InetAddress) : Relay := ⟨gatewayIp, ∅, false⟩

end SwitchLanPlay.Android
