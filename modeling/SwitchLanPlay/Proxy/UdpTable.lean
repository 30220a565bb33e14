import Mathlib.Data.List.AList
import SwitchLanPlay.Lan.State

/-!
# The UDP proxy

`ProxyBase` of `proxy_common.hpp` with the two kinds of items it is used with,
`DirectProxyUdp` (`proxy_direct.cpp`) and `Socks5ProxyUdp` (`proxy_socks5.cpp`).
The table maps a source address and port to an item that owns one UDP handle.
An item lives as long as it is in the table; its destructor closes the handle,
and a closed handle delivers nothing.

The table is an `unordered_map`: a map under `UdpCacheKey::operator==`.  The
negotiation with a SOCKS5 server is `Socks5`; here it ends in `udpReady`.
-/

namespace SwitchLanPlay.Proxy

open Library

/-- `PROXY_UDP_TABLE_TTL` -/
abbrev proxyUdpTableTtl : Int := 30

/-- `UDPHeaderSize` -/
abbrev udpHeaderSize : Nat := 10

structure UdpCacheKey where
  src : Ip
  srcport : Nat
  deriving DecidableEq

structure SockAddr where
  ip : Ip
  port : Nat
  deriving DecidableEq

/-- The class an item is of; `Socks5ProxyUdp` gets the address of its server. -/
inductive ProxyKind where
  | direct
  | socks5 (server : SockAddr)

/-- An item with its handle.  `server`, `isReady` and `waitingData` are fields of
`Socks5ProxyUdp`; a direct item receives from the start. -/
structure ProxyUdp where
  handle : Nat
  expireAt : Int
  src : Ip
  srcport : Nat
  server : SockAddr
  isReady : Bool
  waitingData : Option Bytes

inductive ProxyEvent where
  /-- `newUdp` and `init` for a source. -/
  | opened (key : UdpCacheKey) (handle : Nat)
  | closed (handle : Nat)
  /-- The `send` of an item, on behalf of a source. -/
  | sent (key : UdpCacheKey) (handle : Nat)
  /-- A datagram handed to `udp->send`. -/
  | datagram (handle : Nat) (peer : SockAddr) (data : Bytes)
  /-- A datagram that the handle delivered. -/
  | received (handle : Nat)
  /-- `send_udp_ex`, with `len` bytes of the datagram from `offset` on. -/
  | sendUdpEx (handle : Nat) (fromIp : Ip) (fromPort : Nat) (dst : Ip) (dstport : Nat)
      (data : Bytes) (offset len : Nat)
  deriving DecidableEq

/-! ## Items -/

namespace ProxyUdp

def visit (now : Int) (item : ProxyUdp) : ProxyUdp :=
  { item with expireAt := now + proxyUdpTableTtl }

def isExpire (now : Int) (item : ProxyUdp) : Bool := item.expireAt < now

/-- The constructor and `init`.  `expire_at` of a SOCKS5 item has no value before
the first `visit`, which `udpSend` makes right after. -/
def init (kind : ProxyKind) (now : Int) (key : UdpCacheKey) (handle : Nat) : ProxyUdp :=
  match kind with
  | .direct => visit now ⟨handle, 0, key.src, key.srcport, ⟨noneIp, 0⟩, true, none⟩
  | .socks5 server => ⟨handle, 0, key.src, key.srcport, server, false, none⟩

/-- The datagram `Socks5ProxyUdp::send` packs. -/
def packed (dst : SockAddr) (data : Bytes) : Bytes :=
  [0, 0, 0, 1] ++ List.ofFn dst.ip ++ net16 dst.port ++ data

/-- `DirectProxyUdp::send` and `Socks5ProxyUdp::send`. -/
def send {σ : Type} (kind : ProxyKind) (now : Int) (dst : SockAddr) (data : Bytes) (item : ProxyUdp) :
    Proc σ ProxyEvent ProxyUdp :=
  match kind with
  | .direct => do
      Proc.emit (.datagram item.handle dst data)
      pure (item.visit now)
  | .socks5 _ =>
      if item.isReady then do
        Proc.emit (.datagram item.handle item.server (packed dst data))
        pure (item.visit now)
      else
        pure ({ item with waitingData := some (packed dst data) }.visit now)

/-- The callback of `onUDPReady`. -/
def udpReady {σ : Type} (now : Int) (addr : SockAddr) (item : ProxyUdp) : Proc σ ProxyEvent ProxyUdp :=
  match item.waitingData with
  | some data => do
      Proc.emit (.datagram item.handle addr data)
      pure ({ item with server := addr, isReady := true, waitingData := none }.visit now)
  | none => pure ({ item with server := addr, isReady := true }.visit now)

end ProxyUdp

/-! ## Received datagrams -/

/-- The variables the SOCKS5 header is read into. -/
structure Socks5Header where
  rev : Nat
  frag : UInt8
  atyp : UInt8
  addr : Ip
  port : Nat

/-- A `UDPDataEvent`.  `stack` is what the variables of the handler hold before
they are assigned. -/
structure UdpDataEvent where
  data : Bytes
  sender : SockAddr
  stack : Socks5Header

/-- `ProtocolUnpacker::readAny`: the variable keeps its value when the datagram
is too short. -/
def readAny {α : Type} (data : Bytes) (offset size : Nat) (read : Nat → α) (old : α) : α × Nat :=
  if offset + size > data.length then (old, offset) else (read offset, offset + size)

/-- The calls of the unpacker in the data handler of `Socks5ProxyUdp`. -/
def unpack (data : Bytes) (stack : Socks5Header) : Socks5Header :=
  let (rev, offset) := readAny data 0 2 (net16At data) stack.rev
  let (frag, offset) := readAny data offset 1 (byteAt data) stack.frag
  let (atyp, offset) := readAny data offset 1 (byteAt data) stack.atyp
  let (addr, offset) := readAny data offset 4 (octetsAt 4 data) stack.addr
  let (port, _) := readAny data offset 2 (net16At data) stack.port
  ⟨rev, frag, atyp, addr, port⟩

/-- The data handlers of the two kinds of items. -/
def ProxyUdp.onData {σ : Type} (kind : ProxyKind) (now : Int) (event : UdpDataEvent) (item : ProxyUdp) :
    Proc σ ProxyEvent ProxyUdp :=
  match kind with
  | .direct => do
      Proc.emit (.sendUdpEx item.handle event.sender.ip event.sender.port item.src item.srcport
        event.data 0 (event.data.length % 2 ^ 16))
      pure (item.visit now)
  | .socks5 _ =>
      let header := unpack event.data event.stack
      if header.atyp ≠ 1 then
        pure item
      else do
        Proc.emit (.sendUdpEx item.handle header.addr header.port item.src item.srcport
          event.data udpHeaderSize (((event.data.length : Int) - udpHeaderSize) % 2 ^ 16).toNat)
        pure (item.visit now)

/-! ## The table -/

abbrev CacheTable := AList fun _ : UdpCacheKey => ProxyUdp

/-- `ProxyBase`; `handles` counts the handles created so far. -/
structure ProxyBase where
  cacheTable : CacheTable
  handles : Nat

def ProxyBase.start : ProxyBase := ⟨∅, 0⟩

/-- `cacheTable[key] = item` -/
def setItem (key : UdpCacheKey) (item : ProxyUdp) : Proc ProxyBase ProxyEvent Unit :=
  Proc.update fun base => { base with cacheTable := base.cacheTable.insert key item }

/-- `newUdp` and `init` -/
def newUdp (kind : ProxyKind) (now : Int) (key : UdpCacheKey) : Proc ProxyBase ProxyEvent ProxyUdp := do
  let base ← Proc.read
  Proc.update fun base => { base with handles := base.handles + 1 }
  Proc.emit (.opened key base.handles)
  pure (.init kind now key base.handles)

def getUdp (kind : ProxyKind) (now : Int) (key : UdpCacheKey) : Proc ProxyBase ProxyEvent ProxyUdp := do
  let base ← Proc.read
  match base.cacheTable.lookup key with
  | some item =>
      if item.isExpire now then do
        let fresh ← newUdp kind now key
        setItem key fresh
        Proc.emit (.closed item.handle)
        pure fresh
      else do
        setItem key item
        pure item
  | none => do
      let item ← newUdp kind now key
      setItem key item
      pure item

/-- `udpSend`.  The item is shared with the table, so what `send` changes in it
is changed in the table. -/
def udpSend (kind : ProxyKind) (now : Int) (key : UdpCacheKey) (dst : SockAddr) (data : Bytes) :
    Proc ProxyBase ProxyEvent Unit := do
  let item ← getUdp kind now key
  Proc.emit (.sent key item.handle)
  let item ← item.send kind now dst data
  setItem key item

/-- The entries that the garbage collector leaves. -/
def CacheTable.alive (table : CacheTable) (now : Int) : CacheTable where
  entries := table.entries.filter fun entry => !entry.2.isExpire now
  nodupKeys := table.nodupKeys.sublist List.filter_sublist

/-- The handler of the `gc` timer. -/
def collectGarbage (now : Int) : Proc ProxyBase ProxyEvent Unit := do
  let base ← Proc.read
  Proc.emitAll ((base.cacheTable.entries.filter fun entry => entry.2.isExpire now).map fun entry =>
    .closed entry.2.handle)
  Proc.update fun base => { base with cacheTable := base.cacheTable.alive now }

/-- The entry whose item owns a handle. -/
def ProxyBase.owner (base : ProxyBase) (handle : Nat) : Option (Sigma fun _ : UdpCacheKey => ProxyUdp) :=
  base.cacheTable.entries.find? fun entry => entry.2.handle = handle

/-- A datagram arrives on a handle; only an open handle that `recv` was called on
delivers it. -/
def receiveOn (kind : ProxyKind) (now : Int) (handle : Nat) (event : UdpDataEvent) :
    Proc ProxyBase ProxyEvent Unit := do
  let base ← Proc.read
  match base.owner handle with
  | none => pure ()
  | some ⟨key, item⟩ =>
      if item.isReady then do
        Proc.emit (.received item.handle)
        let item ← item.onData kind now event
        setItem key item
      else
        pure ()

/-- The SOCKS5 server is ready to relay for an item. -/
def readyOn (kind : ProxyKind) (now : Int) (handle : Nat) (addr : SockAddr) :
    Proc ProxyBase ProxyEvent Unit := do
  let base ← Proc.read
  match kind, base.owner handle with
  | .socks5 _, some ⟨key, item⟩ => do
      let item ← item.udpReady now addr
      setItem key item
  | _, _ => pure ()

inductive ProxyInput where
  | udpSend (key : UdpCacheKey) (dst : SockAddr) (data : Bytes)
  | gc
  | received (handle : Nat) (event : UdpDataEvent)
  | udpReady (handle : Nat) (addr : SockAddr)

/-- One input at a value of the clock. -/
def proxyStep (kind : ProxyKind) (input : Int × ProxyInput) : Proc ProxyBase ProxyEvent Unit :=
  match input.2 with
  | .udpSend key dst data => udpSend kind input.1 key dst data
  | .gc => collectGarbage input.1
  | .received handle event => receiveOn kind input.1 handle event
  | .udpReady handle addr => readyOn kind input.1 handle addr

end SwitchLanPlay.Proxy
