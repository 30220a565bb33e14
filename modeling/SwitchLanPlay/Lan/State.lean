import SwitchLanPlay.Library.Bytes
import SwitchLanPlay.Library.Proc
import SwitchLanPlay.Library.SlotTable

/-!
# State, events and memory accesses of the client

The records of `lan-play.h`, `packet.h` and `arp.h`, and the constants of
`config.h` and `packet.h`.  Handlers are computations over `LanPlay` whose
trace lists every access to the received bytes and to the fixed-size buffers,
every call of `lan_client_process`, and everything handed to the network.

A handler runs at one value `now` of the one-second clock `time(NULL)`.
-/

namespace SwitchLanPlay

open Library

/-! ## Constants -/

abbrev bufferSize : Nat := 2048
abbrev etherMtu : Nat := 1500
abbrev minFragPayloadLen : Nat := 500
abbrev lcFragCount : Nat := 100
abbrev clientRecvBufLen : Nat := 4096
abbrev arpCacheLen : Nat := 100

abbrev etherHeaderLen : Nat := 14
abbrev etherOffDst : Nat := 0
abbrev etherOffSrc : Nat := 6
abbrev etherOffType : Nat := 12
abbrev etherOffEnd : Nat := 14
abbrev etherTypeArp : Nat := 0x0806
abbrev etherTypeIpv4 : Nat := 0x0800

abbrev ipv4HeaderLen : Nat := 20
abbrev ipv4OffVerLen : Nat := 0
abbrev ipv4OffDscpEcn : Nat := 1
abbrev ipv4OffTotalLen : Nat := 2
abbrev ipv4OffId : Nat := 4
abbrev ipv4OffFlagsFragOffset : Nat := 6
abbrev ipv4OffTtl : Nat := 8
abbrev ipv4OffProtocol : Nat := 9
abbrev ipv4OffSrc : Nat := 12
abbrev ipv4OffDst : Nat := 16
abbrev ipv4OffEnd : Nat := 20
abbrev ipv4ProtocolIcmp : Nat := 1
abbrev ipv4ProtocolUdp : Nat := 17

abbrev udpOffSrcport : Nat := 0
abbrev udpOffDstport : Nat := 2
abbrev udpOffEnd : Nat := 8

/-! ## Addresses -/

abbrev Ip := Octets 4
abbrev Mac := Octets 6

def noneIp : Ip := fun _ => 0
def noneMac : Mac := fun _ => 0
def broadcastMac : Mac := fun _ => 0xff

/-- `CMP_MAC`: the macro hands `memcmp` a length of four. -/
def cmpMac (first second : Mac) : Bool :=
  decide (∀ index : Fin 4, first (index.castLE (by decide)) = second (index.castLE (by decide)))

def isSubnet (ip net mask : Ip) : Bool := decide ((fun index => ip index &&& mask index) = net)

def isBroadcast (ip net mask : Ip) : Bool :=
  decide ((fun index => net index ||| ~~~ mask index) = ip)

/-! ## Events -/

/-- The memory an access goes to. -/
inductive Region where
  /-- `lan_play->client_buf`, the datagram received last. -/
  | clientBuf
  /-- The `buffer` of a reassembly slot. -/
  | slot
  /-- A captured frame. -/
  | frame
  /-- A datagram received by the proxy. -/
  | proxy
  /-- The buffer a packet of the TCP stack is gathered in. -/
  | lwip
  /-- The stack buffer `payload[BUFFER_SIZE]` of `process_icmp`. -/
  | icmp
  /-- A header built on the stack, or the reply to a login request. -/
  | header
  deriving DecidableEq

inductive Event where
  | load (region : Region) (offset size : Nat)
  | store (region : Region) (offset size : Nat)
  /-- A length obtained by subtraction, before it is narrowed to its C type. -/
  | derivedLen (value : Int)
  /-- `lan_client_process` is entered. -/
  | process (packet : Bytes) (len : Nat)
  /-- "fragment buffer is full, ignore it" -/
  | fragmentIgnored
  /-- `lan_play_send_packet` -/
  | sendPacket (frame : Bytes)
  /-- The branch of `send_payloads` that ends in `assert(0)`. -/
  | tooLarge (wanted : Nat)
  /-- A datagram accepted by `uv_udp_send`. -/
  | datagram (bytes : Bytes)
  /-- `udpSend` of the proxy. -/
  | udpSend (src : Ip) (srcport : Nat) (dst : Ip) (dstport : Nat) (data : Bytes)
  /-- A packet handed to the TCP stack. -/
  | lwipInput (packet : Bytes)
  /-- A text of the relay server, printed on the console. -/
  | serverInfo (text : Bytes)
  deriving DecidableEq

/-! ## Records -/

structure ArpItem where
  ip : Ip
  mac : Mac
  expireAt : Int

structure PacketCtx where
  bufferLen : Nat
  ip : Ip
  subnetNet : Ip
  subnetMask : Ip
  mac : Mac
  identification : Nat
  arpList : Fin arpCacheLen → ArpItem
  arpTtl : Int
  uploadByte : Nat
  downloadByte : Nat
  uploadPacket : Nat
  downloadPacket : Nat

/-- `struct lan_client_fragment`; the buffer always has its full size. -/
structure LanClientFragment where
  localId : Nat
  src : Ip
  id : Nat
  part : Nat
  used : Bool
  totalLen : Nat
  buffer : Bytes
  bufferSized : buffer.length = etherMtu

/-- The fields of `struct lan_play` that reassembly works on. -/
structure Reassembly where
  frags : Fin lcFragCount → LanClientFragment
  localId : Int

/-- The fields of `struct lan_play` that sending to the relay works on.
`fragId` is the bit pattern of the `int` counter; `sendResults` lists what the
coming calls of `uv_udp_send` return. -/
structure Uplink where
  pmtu : Int
  fragId : Nat
  sendResults : Nat → Int
  uploadByte : Nat
  uploadPacket : Nat

structure LanPlay where
  packetCtx : PacketCtx
  uplink : Uplink
  reassembly : Reassembly
  clientBuf : Bytes
  nextRealBroadcast : Bool
  username : Option Bytes
  key : Octets 20
  downloadByte : Nat
  downloadPacket : Nat

/-- What a handler takes from outside: the clock, the digest of `sha1.c`, and
the packets the TCP stack answers an input with. -/
structure Env where
  now : Int
  sha1 : Bytes → Bytes
  lwipInput : Bytes → List Bytes

/-- `memset(&lan_play->frags, 0, ...)` and `local_id = 0` in `lan_client_init`. -/
def Reassembly.zero : Reassembly where
  frags := fun _ => ⟨0, noneIp, 0, 0, false, 0, List.replicate etherMtu 0, List.length_replicate⟩
  localId := 0

/-- `packet_init` -/
def packetInit (bufferLen : Nat) (ip subnetNet subnetMask : Ip) (arpTtl : Int) : PacketCtx where
  bufferLen := bufferLen
  ip := ip
  subnetNet := subnetNet
  subnetMask := subnetMask
  mac := broadcastMac
  identification := 0
  arpList := fun _ => ⟨noneIp, noneMac, 0⟩
  arpTtl := arpTtl
  uploadByte := 0
  downloadByte := 0
  uploadPacket := 0
  downloadPacket := 0

def serverIp : Ip := octetsAt 4 [10, 13, 37, 1] 0
def subnetNet : Ip := octetsAt 4 [10, 13, 0, 0] 0
def subnetMask : Ip := octetsAt 4 [255, 255, 0, 0] 0

/-- The fields that `lan_play_init` and `lan_client_init` set. -/
def lanPlayStart (pmtu : Int) (username : Option Bytes) (key : Octets 20)
    (sendResults : Nat → Int) : LanPlay where
  packetCtx := packetInit bufferSize serverIp subnetNet subnetMask 30
  uplink := ⟨pmtu, 0, sendResults, 0, 0⟩
  reassembly := .zero
  clientBuf := List.replicate clientRecvBufLen 0
  nextRealBroadcast := true
  username := username
  key := key
  downloadByte := 0
  downloadPacket := 0

/-- `lan_client_init` ends the program when the `pmtu` is set but too small. -/
def lanPlayInit (pmtu : Int) (username : Option Bytes) (key : Octets 20)
    (sendResults : Nat → Int) : Option LanPlay :=
  if pmtu ≠ 0 ∧ pmtu < minFragPayloadLen then none
  else some (lanPlayStart pmtu username key sendResults)

/-! ## Pointers and accesses -/

/-- A pointer into a region, with the contents of the region. -/
structure Ptr where
  region : Region
  memory : Bytes
  offset : Nat

def Ptr.plus (pointer : Ptr) (count : Nat) : Ptr :=
  { pointer with offset := pointer.offset + count }

@[simp] theorem Ptr.region_plus (pointer : Ptr) (count : Nat) :
    (pointer.plus count).region = pointer.region := rfl

/-- `struct payload` and `uv_buf_t`: a pointer and a length. -/
structure Payload where
  ptr : Ptr
  len : Nat

/-- A header that was filled in on the stack. -/
def Payload.ofBytes (bytes : Bytes) : Payload := ⟨⟨.header, bytes, 0⟩, bytes.length⟩

section Access

variable {σ : Type}

def readNet8 (pointer : Ptr) (offset : Nat) : Proc σ Event Nat := do
  Proc.emit (.load pointer.region (pointer.offset + offset) 1)
  pure (byteAt pointer.memory (pointer.offset + offset)).toNat

def readNet16 (pointer : Ptr) (offset : Nat) : Proc σ Event Nat := do
  Proc.emit (.load pointer.region (pointer.offset + offset) 2)
  pure (net16At pointer.memory (pointer.offset + offset))

def cpyIpv4 (pointer : Ptr) : Proc σ Event Ip := do
  Proc.emit (.load pointer.region pointer.offset 4)
  pure (octetsAt 4 pointer.memory pointer.offset)

def cpyMac (pointer : Ptr) : Proc σ Event Mac := do
  Proc.emit (.load pointer.region pointer.offset 6)
  pure (octetsAt 6 pointer.memory pointer.offset)

/-- The bytes `memcpy` takes from its source. -/
def loadBytes (pointer : Ptr) (size : Nat) : Proc σ Event Bytes := do
  Proc.emit (.load pointer.region pointer.offset size)
  pure (slice pointer.memory pointer.offset size)

/-- Copy a chain of parts one after the other. -/
def gather : List Payload → Proc σ Event Bytes
  | [] => pure []
  | part :: rest => do
      let first ← loadBytes part.ptr part.len
      let others ← gather rest
      pure (first ++ others)

variable (pointer : Ptr) (offset : Nat) (s : σ)

@[simp] theorem readNet8_value : (readNet8 pointer offset s).value =
    (byteAt pointer.memory (pointer.offset + offset)).toNat := rfl

@[simp] theorem readNet8_state : (readNet8 pointer offset s).state = s := rfl

@[simp] theorem readNet16_value : (readNet16 pointer offset s).value =
    net16At pointer.memory (pointer.offset + offset) := rfl

@[simp] theorem readNet16_state : (readNet16 pointer offset s).state = s := rfl

@[simp] theorem cpyIpv4_value :
    (cpyIpv4 pointer s).value = octetsAt 4 pointer.memory pointer.offset := rfl

@[simp] theorem cpyIpv4_state : (cpyIpv4 pointer s).state = s := rfl

@[simp] theorem cpyMac_value :
    (cpyMac pointer s).value = octetsAt 6 pointer.memory pointer.offset := rfl

@[simp] theorem cpyMac_state : (cpyMac pointer s).state = s := rfl

@[simp] theorem loadBytes_value (size : Nat) :
    (loadBytes pointer size s).value = slice pointer.memory pointer.offset size := rfl

@[simp] theorem loadBytes_state (size : Nat) : (loadBytes pointer size s).state = s := rfl

section Emits

variable {Q : Event → Prop}

@[simp] theorem emits_readNet8 : (readNet8 pointer offset).Emits Q s ↔
    Q (.load pointer.region (pointer.offset + offset) 1) := by
  simp [readNet8]

@[simp] theorem emits_readNet16 : (readNet16 pointer offset).Emits Q s ↔
    Q (.load pointer.region (pointer.offset + offset) 2) := by
  simp [readNet16]

@[simp] theorem emits_cpyIpv4 :
    (cpyIpv4 pointer).Emits Q s ↔ Q (.load pointer.region pointer.offset 4) := by
  simp [cpyIpv4]

@[simp] theorem emits_cpyMac :
    (cpyMac pointer).Emits Q s ↔ Q (.load pointer.region pointer.offset 6) := by
  simp [cpyMac]

@[simp] theorem emits_loadBytes (size : Nat) :
    (loadBytes pointer size).Emits Q s ↔ Q (.load pointer.region pointer.offset size) := by
  simp [loadBytes]

end Emits

/-- The bytes a part of a chain stands for. -/
def Payload.bytes (part : Payload) : Bytes := slice part.ptr.memory part.ptr.offset part.len

@[simp] theorem gather_value (chain : List Payload) :
    (gather chain s).value = (chain.map Payload.bytes).flatten := by
  induction chain with
  | nil => rfl
  | cons part rest ih => simp [gather, Payload.bytes, ih]

@[simp] theorem gather_state (chain : List Payload) : (gather chain s).state = s := by
  induction chain with
  | nil => rfl
  | cons part rest ih => simp [gather, ih]

@[simp] theorem gather_events (chain : List Payload) :
    (gather chain s).events =
      chain.map fun part => Event.load part.ptr.region part.ptr.offset part.len := by
  induction chain with
  | nil => rfl
  | cons part rest ih => simp [gather, loadBytes, ih]

end Access

@[simp] theorem Payload.bytes_mk (ptr : Ptr) (len : Nat) :
    Payload.bytes ⟨ptr, len⟩ = slice ptr.memory ptr.offset len := rfl

@[simp] theorem Payload.bytes_ofBytes (bytes : Bytes) : (Payload.ofBytes bytes).bytes = bytes :=
  slice_full bytes

@[simp] theorem Payload.len_ofBytes (bytes : Bytes) : (Payload.ofBytes bytes).len = bytes.length :=
  rfl

end SwitchLanPlay
