import SwitchLanPlay.Client.Downlink

/-!
# Captured frames

`get_packet` and the handlers below it: ARP, IPv4, ICMP echo, forwarding to
the relay and the gateway (`packet.c`, `arp.c`, `ipv4.c`, `icmp.c`,
`gateway.cpp`).
-/

namespace SwitchLanPlay

open Library SlotTable

/-! ## Headers -/

structure EtherFrame where
  raw : Ptr
  rawLen : Nat
  dst : Mac
  src : Mac
  type : Nat
  payload : Ptr

def parseEther (packet : Ptr) (len : Nat) : Proc LanPlay Event EtherFrame := do
  let dst ← cpyMac (packet.plus etherOffDst)
  let src ← cpyMac (packet.plus etherOffSrc)
  let type ← readNet16 packet etherOffType
  pure { raw := packet, rawLen := len, dst, src, type, payload := packet.plus etherOffEnd }

structure Arp where
  hardwareType : Nat
  protocolType : Nat
  hardwareSize : Nat
  protocolSize : Nat
  opcode : Nat
  senderMac : Mac
  senderIp : Ip
  targetMac : Mac
  targetIp : Ip

def parseArp (ether : EtherFrame) : Proc LanPlay Event Arp := do
  let packet := ether.payload
  let hardwareType ← readNet16 packet 0
  let protocolType ← readNet16 packet 2
  let hardwareSize ← readNet8 packet 4
  let protocolSize ← readNet8 packet 5
  let opcode ← readNet16 packet 6
  let senderMac ← cpyMac (packet.plus 8)
  let senderIp ← cpyIpv4 (packet.plus 14)
  let targetMac ← cpyMac (packet.plus 18)
  let targetIp ← cpyIpv4 (packet.plus 24)
  pure { hardwareType, protocolType, hardwareSize, protocolSize, opcode,
         senderMac, senderIp, targetMac, targetIp }

structure Ipv4 where
  ether : EtherFrame
  version : Nat
  /-- In bytes. -/
  headerLen : Nat
  dscp : Nat
  ecn : Nat
  totalLen : Nat
  identification : Nat
  flags : Nat
  fragmentOffset : Nat
  ttl : Nat
  protocol : Nat
  checksum : Nat
  src : Ip
  dst : Ip
  payload : Ptr

/-- `parse_ipv4`; the source reads the checksum at the offset of the protocol. -/
def parseIpv4 (ether : EtherFrame) : Proc LanPlay Event Ipv4 := do
  let packet := ether.payload
  let verLen ← readNet8 packet ipv4OffVerLen
  let dscpEcn ← readNet8 packet ipv4OffDscpEcn
  let totalLen ← readNet16 packet ipv4OffTotalLen
  let identification ← readNet16 packet ipv4OffId
  let flagsOffset ← readNet16 packet ipv4OffFlagsFragOffset
  let ttl ← readNet8 packet ipv4OffTtl
  let protocol ← readNet8 packet ipv4OffProtocol
  let checksum ← readNet16 packet ipv4OffProtocol
  let src ← cpyIpv4 (packet.plus ipv4OffSrc)
  let dst ← cpyIpv4 (packet.plus ipv4OffDst)
  pure { ether, version := verLen / 16, headerLen := verLen % 16 * 4, dscp := dscpEcn / 4,
         ecn := dscpEcn % 4, totalLen, identification, flags := flagsOffset / 2 ^ 13,
         fragmentOffset := flagsOffset % 2 ^ 13, ttl, protocol, checksum, src, dst,
         payload := packet.plus (verLen % 16 * 4) }

/-! ## ARP -/

def arpRequest (now : Int) (arp : Arp) : Proc LanPlay Event Int := do
  let lanPlay ← Proc.read
  let ctx := lanPlay.packetCtx
  if isSubnet arp.targetIp ctx.subnetNet ctx.subnetMask then
    if arp.targetIp = arp.senderIp then
      pure 0
    else if arp.senderIp = noneIp then
      pure 0
    else do
      let known ← arpHasIp now arp.targetIp
      if known then
        pure 0
      else
        sendArp arpOpcodeReply ctx.mac arp.targetIp arp.senderMac arp.senderIp
  else
    pure 0

def processArp (now : Int) (ether : EtherFrame) : Proc LanPlay Event Int := do
  let arp ← parseArp ether
  if arp.hardwareType ≠ arpHardtypeEther ∨ arp.protocolType ≠ etherTypeIpv4 ∨
      arp.hardwareSize ≠ 6 ∨ arp.protocolSize ≠ 4 then
    pure (-1)
  else do
    let _ ← arpSet now arp.senderMac arp.senderIp
    if arp.opcode = arpOpcodeRequest then
      arpRequest now arp
    else if arp.opcode = arpOpcodeReply then
      pure 0
    else
      pure (-1)

/-! ## ICMP -/

/-- `process_icmp`.  The copy takes its length as a `size_t`; what does not
fit lies behind the buffer, so only the part inside it is kept here. -/
def processIcmp (now : Int) (ipv4 : Ipv4) : Proc LanPlay Event Int := do
  let icmpLen : Int := ipv4.totalLen - ipv4.headerLen
  Proc.emit (.derivedLen icmpLen)
  let size := (icmpLen % 2 ^ 64).toNat
  Proc.emit (.load ipv4.payload.region ipv4.payload.offset size)
  Proc.emit (.store .icmp 0 size)
  let copied := slice ipv4.payload.memory ipv4.payload.offset (min size bufferSize)
  let buffer := overwrite (List.replicate bufferSize 0) 0 copied
  let reply := overwrite (overwrite buffer 0 [0]) 2 (net16 0)
  let sum ← calcChecksum ⟨.icmp, reply, 0⟩ icmpLen
  let payload := overwrite reply 2 (net16 sum)
  let _ ← sendIpv4 now ipv4.src ipv4ProtocolIcmp [⟨⟨.icmp, payload, 0⟩, (icmpLen % 2 ^ 16).toNat⟩]
  pure 0

/-! ## Gateway -/

/-- The version field, or zero for an empty packet. -/
def ipVersion (data : Ptr) (dataLen : Int) : Proc LanPlay Event Nat :=
  if 0 < dataLen then do
    let first ← readNet8 data 0
    pure (first / 16)
  else
    pure 0

/-- `processUdp` of the gateway: true when the packet was taken by the proxy. -/
def processUdp (data : Ptr) (dataLen : Int) : Proc LanPlay Event Bool := do
  let version ← ipVersion data dataLen
  if version = 4 ∧ ¬ dataLen < ipv4OffEnd then do
    let protocol ← readNet8 data ipv4OffProtocol
    if protocol ≠ ipv4ProtocolUdp then
      pure false
    else do
      let verLen ← readNet8 data 0
      let headerLen := verLen % 16 * 4
      let udpBase := data.plus headerLen
      let src ← cpyIpv4 (data.plus ipv4OffSrc)
      let dst ← cpyIpv4 (data.plus ipv4OffDst)
      let srcport ← readNet16 udpBase udpOffSrcport
      let dstport ← readNet16 udpBase udpOffDstport
      Proc.emit (.derivedLen (dataLen - headerLen - udpOffEnd))
      let len := ((dataLen - headerLen - udpOffEnd) % 2 ^ 16).toNat
      let payload ← loadBytes (udpBase.plus udpOffEnd) len
      Proc.emit (.udpSend src srcport dst dstport payload)
      pure true
  else
    pure false

/-- The data handler that `DirectProxyUdp::init` installs for the flow of
`src` and `srcport`. -/
def directProxyOnData (now : Int) (src : Ip) (srcport : Nat) (fromIp : Ip) (fromPort : Nat)
    (data : Bytes) : Proc LanPlay Event Int :=
  sendUdpEx now fromIp fromPort src srcport [⟨⟨.proxy, data, 0⟩, data.length % 2 ^ 16⟩]

/-- `lan_play_gateway_send_packet`, for a packet gathered from the TCP stack. -/
def lanPlayGatewaySendPacket (now : Int) (data : Bytes) : Proc LanPlay Event Int := do
  let packet : Ptr := ⟨.lwip, data, 0⟩
  let dst ← cpyIpv4 (packet.plus ipv4OffDst)
  match ← arpGetMacByIp now dst with
  | none => pure 0
  | some dstMac => sendEther dstMac etherTypeIpv4 [⟨packet, data.length % 2 ^ 16⟩]

/-- The packets the TCP stack puts out, one after the other. -/
def uvlOutputs (now : Int) : List Bytes → Proc LanPlay Event Unit
  | [] => pure ()
  | packet :: rest => do
      let _ ← lanPlayGatewaySendPacket now packet
      uvlOutputs now rest

/-- `gateway_on_packet`; the TCP stack takes the length as a `u16_t`. -/
def gatewayOnPacket (env : Env) (raw : Ptr) (rawLen : Nat) : Proc LanPlay Event Unit := do
  let data := raw.plus etherOffEnd
  let dataLen : Int := rawLen - etherOffEnd
  let taken ← processUdp data dataLen
  if taken then
    pure ()
  else do
    let packet ← loadBytes data (dataLen % 2 ^ 16).toNat
    Proc.emit (.lwipInput packet)
    uvlOutputs env.now (env.lwipInput packet)

/-! ## IPv4 -/

def processIpv4 (env : Env) (ether : EtherFrame) : Proc LanPlay Event Int := do
  let ipv4 ← parseIpv4 ether
  let _ ← arpSet env.now ether.src ipv4.src
  let lanPlay ← Proc.read
  let ctx := lanPlay.packetCtx
  if ipv4.dst = ctx.ip then
    if ipv4.protocol = ipv4ProtocolIcmp then
      processIcmp env.now ipv4
    else
      pure 0
  else if isSubnet ipv4.dst ctx.subnetNet ctx.subnetMask then
    if isBroadcast ipv4.dst ctx.subnetNet ctx.subnetMask then do
      let _ ← onUplink (lanClientSendIpv4 ether.payload ipv4.totalLen)
      sendEther ether.src etherTypeIpv4 [⟨ether.payload, ipv4.totalLen⟩]
    else do
      let known ← arpHasIp env.now ipv4.dst
      if known then do
        match ← arpGetMacByIp env.now ipv4.dst with
        | some dstMac => sendEther dstMac etherTypeIpv4 [⟨ether.payload, ipv4.totalLen⟩]
        | none => pure 0
      else
        onUplink (lanClientSendIpv4 ether.payload ipv4.totalLen)
  else if cmpMac ctx.mac ether.dst then do
    gatewayOnPacket env ether.raw ether.rawLen
    pure 0
  else
    pure 0

/-! ## Entry -/

def processEther (env : Env) (packet : Ptr) (len : Nat) : Proc LanPlay Event Int := do
  let ether ← parseEther packet len
  let lanPlay ← Proc.read
  if cmpMac ether.src lanPlay.packetCtx.mac then
    pure 0
  else if ether.type = etherTypeArp then
    processArp env.now ether
  else if ether.type = etherTypeIpv4 then
    processIpv4 env ether
  else
    pure 0

/-- The counters that `get_packet` advances. -/
def LanPlay.captured (lanPlay : LanPlay) (len : Nat) : LanPlay :=
  { lanPlay with
    packetCtx.downloadPacket := (lanPlay.packetCtx.downloadPacket + 1) % 2 ^ 64
    packetCtx.downloadByte := (lanPlay.packetCtx.downloadByte + len) % 2 ^ 64 }

/-- `get_packet` on a frame of `len` bytes at the start of `memory`. -/
def getPacket (env : Env) (memory : Bytes) (len : Nat) : Proc LanPlay Event Unit := do
  if len ≥ 65536 then
    pure ()
  else do
    Proc.update fun lanPlay => lanPlay.captured len
    let _ ← processEther env ⟨.frame, memory, 0⟩ len
    pure ()

end SwitchLanPlay
