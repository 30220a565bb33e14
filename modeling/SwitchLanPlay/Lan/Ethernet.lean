import SwitchLanPlay.Lan.State

/-!
# Frames to the local network

`send_payloads`, the layers that prepend headers to a payload chain, and the
ARP cache they consult (`packet.c`, `arp.c`, `ipv4.c`, `udp.c`).
-/

namespace SwitchLanPlay

open Library SlotTable

/-! ## Payload chains -/

/-- The loop of `send_payloads`: copy the parts one after the other, or stop
at the first one that does not fit. -/
def copyParts {σ : Type} (bufferLen : Nat) : Nat → List Payload → Proc σ Event (Option Bytes)
  | _, [] => pure (some [])
  | offset, part :: rest =>
      if offset + part.len ≥ bufferLen then do
        Proc.emit (.tooLarge (offset + part.len))
        pure none
      else do
        let first ← loadBytes part.ptr part.len
        let others ← copyParts bufferLen (offset + part.len) rest
        pure (others.map (first ++ ·))

/-- `send_payloads`; `lan_play_send_packet` always returns zero. -/
def sendPayloads (payload : List Payload) : Proc LanPlay Event Int := do
  let lanPlay ← Proc.read
  match ← copyParts lanPlay.packetCtx.bufferLen 0 payload with
  | none => pure (-1)
  | some frame => do
      let totalLen := frame.length % 2 ^ 16
      Proc.update fun lanPlay =>
        { lanPlay with
          packetCtx.uploadPacket := (lanPlay.packetCtx.uploadPacket + 1) % 2 ^ 64
          packetCtx.uploadByte := (lanPlay.packetCtx.uploadByte + totalLen) % 2 ^ 64 }
      Proc.emit (.sendPacket (frame.take totalLen))
      pure 0

def payloadTotalLen (payload : List Payload) : Nat := (payload.map Payload.len).sum % 2 ^ 16

def sendEtherEx (dst src : Mac) (type : Nat) (payload : List Payload) : Proc LanPlay Event Int :=
  sendPayloads (.ofBytes (List.ofFn dst ++ List.ofFn src ++ net16 type) :: payload)

def sendEther (dst : Mac) (type : Nat) (payload : List Payload) : Proc LanPlay Event Int := do
  let lanPlay ← Proc.read
  sendEtherEx dst lanPlay.packetCtx.mac type payload

/-! ## ARP -/

abbrev arpHardtypeEther : Nat := 1
abbrev arpOpcodeRequest : Nat := 1
abbrev arpOpcodeReply : Nat := 2

def sendArpEx (dstMac : Mac) (opcode : Nat) (senderMac : Mac) (senderIp : Ip) (targetMac : Mac)
    (targetIp : Ip) : Proc LanPlay Event Int :=
  sendEther dstMac etherTypeArp
    [.ofBytes (net16 arpHardtypeEther ++ net16 etherTypeIpv4 ++ [6, 4] ++ net16 opcode ++
      List.ofFn senderMac ++ List.ofFn senderIp ++ List.ofFn targetMac ++ List.ofFn targetIp)]

def sendArp (opcode : Nat) (senderMac : Mac) (senderIp : Ip) (targetMac : Mac) (targetIp : Ip) :
    Proc LanPlay Event Int :=
  sendArpEx targetMac opcode senderMac senderIp targetMac targetIp

def sendArpRequest (targetIp : Ip) : Proc LanPlay Event Int := do
  let lanPlay ← Proc.read
  sendArpEx broadcastMac arpOpcodeRequest lanPlay.packetCtx.mac lanPlay.packetCtx.ip noneMac targetIp

/-- The scan that `arp_has_ip` and `arp_get_mac_by_ip` share. -/
def PacketCtx.arpFind (ctx : PacketCtx) (now : Int) (ip : Ip) : Option (Fin arpCacheLen) :=
  firstIndex fun i => decide ((ctx.arpList i).ip = ip) && decide (now < (ctx.arpList i).expireAt)

def arpHasIp (now : Int) (ip : Ip) : Proc LanPlay Event Bool := do
  let lanPlay ← Proc.read
  pure (lanPlay.packetCtx.arpFind now ip).isSome

def arpGetMacByIp (now : Int) (ip : Ip) : Proc LanPlay Event (Option Mac) := do
  let lanPlay ← Proc.read
  match lanPlay.packetCtx.arpFind now ip with
  | some i => pure (some (lanPlay.packetCtx.arpList i).mac)
  | none => do
      let _ ← sendArpRequest ip
      pure none

/-- The slot that `arp_set` overwrites: the first one that is empty, holds the
address already, or has expired. -/
def PacketCtx.arpSlot (ctx : PacketCtx) (now : Int) (ip : Ip) : Option (Fin arpCacheLen) :=
  firstIndex fun i =>
    decide ((ctx.arpList i).ip = noneIp) || decide ((ctx.arpList i).ip = ip) ||
      decide ((ctx.arpList i).expireAt < now)

def PacketCtx.arpSet (ctx : PacketCtx) (now : Int) (mac : Mac) (ip : Ip) : PacketCtx :=
  { ctx with
    arpList :=
      match ctx.arpSlot now ip with
      | some i => Function.update ctx.arpList i ⟨ip, mac, now + ctx.arpTtl⟩
      | none => ctx.arpList }

def arpSet (now : Int) (mac : Mac) (ip : Ip) : Proc LanPlay Event Bool := do
  let lanPlay ← Proc.read
  Proc.update fun lanPlay => { lanPlay with packetCtx := lanPlay.packetCtx.arpSet now mac ip }
  pure (lanPlay.packetCtx.arpSlot now ip).isSome

/-- The loop of `arp_for_each` over the given slots. -/
def arpForEachFrom (now : Int) (cb : ArpItem → Proc LanPlay Event Int) :
    List (Fin arpCacheLen) → Proc LanPlay Event Unit
  | [] => pure ()
  | i :: rest => do
      let lanPlay ← Proc.read
      if now < (lanPlay.packetCtx.arpList i).expireAt then
        let ret ← cb (lanPlay.packetCtx.arpList i)
        if ret ≠ 0 then pure () else arpForEachFrom now cb rest
      else
        arpForEachFrom now cb rest

def arpForEach (now : Int) (cb : ArpItem → Proc LanPlay Event Int) : Proc LanPlay Event Unit :=
  arpForEachFrom now cb (List.finRange arpCacheLen)

/-! ## Checksums -/

/-- The `while (sum > 0xffff) sum -= 0xffff` loop. -/
def foldSum (sum : Nat) : Nat :=
  if sum > 0xffff then foldSum (sum - 0xffff) else sum
termination_by sum
decreasing_by omega

/-- The sum of `count` words in network order. -/
def sumWords {σ : Type} (buf : Ptr) : Nat → Proc σ Event Nat
  | 0 => pure 0
  | count + 1 => do
      let word ← readNet16 buf 0
      let rest ← sumWords (buf.plus 2) count
      pure (word + rest)

/-- The byte that an odd length leaves over. -/
def leftOver {σ : Type} (buffer : Ptr) (len : Int) : Proc σ Event Nat :=
  if len ≠ 2 * (len / 2).toNat then readNet8 (buffer.plus (2 * (len / 2).toNat)) 0 else pure 0

/-- `calc_checksum`: the byte left over by an odd length is added as the low
byte of a word.  The division rounds down, so a negative length reads no word
and leaves one byte over, as the two `len` tests of the source do. -/
def calcChecksum {σ : Type} (buffer : Ptr) (len : Int) : Proc σ Event Nat := do
  let sum ← sumWords buffer (len / 2).toNat
  let last ← leftOver buffer len
  pure (0xffff - foldSum ((sum + last) % 2 ^ 32))

/-- The loop of `calc_payload_checksum`.  `offset` is 1 when the first byte of
the part was already added; it advances a `uint16_t` pointer. -/
def payloadSum {σ : Type} : Nat → List Payload → Proc σ Event Nat
  | _, [] => pure 0
  | offset, part :: rest => do
      let len : Int := part.len - offset
      let count := (len / 2).toNat
      let buf := part.ptr.plus (2 * offset)
      let sum ← sumWords buf count
      if len ≠ 2 * count then do
        let high ← readNet8 (buf.plus (2 * count)) 0
        let low ← match rest with
          | [] => pure 0
          | next :: _ => readNet8 next.ptr 0
        let others ← payloadSum 1 rest
        pure (sum + (256 * high + low) + others)
      else do
        let others ← payloadSum 0 rest
        pure (sum + others)

def calcPayloadChecksum {σ : Type} (payload : List Payload) : Proc σ Event Nat := do
  let sum ← payloadSum 0 payload
  pure (0xffff - foldSum (sum % 2 ^ 32))

/-! ## IPv4 and UDP -/

/-- The bytes `send_ipv4_ex` writes, with the given checksum field. -/
def ipv4Header (totalLen identification protocol checksum : Nat) (src dst : Ip) : Bytes :=
  [0x45, 0x00] ++ net16 totalLen ++ net16 identification ++ net16 0 ++
    [128, UInt8.ofNat protocol] ++ net16 checksum ++ List.ofFn src ++ List.ofFn dst

def sendIpv4Ex (now : Int) (src dst : Ip) (protocol : Nat) (payload : List Payload) :
    Proc LanPlay Event Int := do
  let lanPlay ← Proc.read
  let header := fun checksum =>
    ipv4Header (ipv4HeaderLen + payloadTotalLen payload) lanPlay.packetCtx.identification protocol
      checksum src dst
  Proc.update fun lanPlay =>
    { lanPlay with
      packetCtx.identification := (lanPlay.packetCtx.identification + 1) % 2 ^ 16 }
  let checksum ← calcChecksum ⟨.header, header 0, 0⟩ ipv4HeaderLen
  match ← arpGetMacByIp now dst with
  | none => pure 0
  | some dstMac => sendEther dstMac etherTypeIpv4 (.ofBytes (header checksum) :: payload)

def sendIpv4 (now : Int) (dst : Ip) (protocol : Nat) (payload : List Payload) :
    Proc LanPlay Event Int := do
  let lanPlay ← Proc.read
  sendIpv4Ex now lanPlay.packetCtx.ip dst protocol payload

/-- The bytes of a UDP header, with the given checksum field. -/
def udpHeader (srcport dstport length checksum : Nat) : Bytes :=
  net16 srcport ++ net16 dstport ++ net16 length ++ net16 checksum

def udpPseudoHeader (src dst : Ip) (length : Nat) : Bytes :=
  List.ofFn src ++ List.ofFn dst ++ [0, UInt8.ofNat ipv4ProtocolUdp] ++ net16 length

def sendUdpEx (now : Int) (src : Ip) (srcport : Nat) (dst : Ip) (dstport : Nat)
    (payload : List Payload) : Proc LanPlay Event Int := do
  let udpLength := (udpOffEnd + payloadTotalLen payload) % 2 ^ 16
  let checksum ← calcPayloadChecksum
    (.ofBytes (udpPseudoHeader src dst udpLength) ::
      .ofBytes (udpHeader srcport dstport udpLength 0) :: payload)
  sendIpv4Ex now src dst ipv4ProtocolUdp
    (.ofBytes (udpHeader srcport dstport udpLength checksum) :: payload)

end SwitchLanPlay
