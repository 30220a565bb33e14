import SwitchLanPlay.Lan.State

/-!
# Sending to the relay

`lan_client_send` and its helpers.  An IPv4 packet longer than the configured
`pmtu` leaves as a sequence of fragment datagrams; everything else leaves as
one datagram.
-/

namespace SwitchLanPlay

open Library

abbrev lcFragHeaderLen : Nat := 16
abbrev lcFragSrc : Nat := 0
abbrev lcFragDst : Nat := 4
abbrev lcFragId : Nat := 8
abbrev lcFragPart : Nat := 10
abbrev lcFragTotalPart : Nat := 11
abbrev lcFragLen : Nat := 12
abbrev lcFragPmtu : Nat := 14

abbrev lanClientTypeIpv4 : UInt8 := 0x01
abbrev lanClientTypeIpv4Frag : UInt8 := 0x03
abbrev lanClientTypeAuthMe : UInt8 := 0x04
abbrev lanClientTypeInfo : UInt8 := 0x10

/-- `struct lan_client_fragment_header` -/
structure LanClientFragmentHeader where
  src : Ip
  dst : Ip
  id : Nat
  part : Nat
  totalPart : Nat
  len : Nat
  pmtu : Nat

/-- The bytes of a header after all of its fields are written. -/
def LanClientFragmentHeader.toBytes (header : LanClientFragmentHeader) : Bytes :=
  List.ofFn header.src ++ List.ofFn header.dst ++ net16 header.id ++
    [UInt8.ofNat header.part, UInt8.ofNat header.totalPart] ++ net16 header.len ++ net16 header.pmtu

/-- `uv_udp_send`: a datagram leaves only when the call returns zero. -/
def uvUdpSend (packet : Bytes) : Proc Uplink Event Int := do
  let uplink ← Proc.read
  Proc.update fun uplink => { uplink with sendResults := fun call => uplink.sendResults (call + 1) }
  if uplink.sendResults 0 = 0 then
    Proc.emit (.datagram packet)
  pure (uplink.sendResults 0)

def lanClientSendRaw (bufs : List Payload) : Proc Uplink Event Int := do
  let totalLen := (bufs.map Payload.len).sum
  if totalLen = 0 then
    pure 0
  else
    let packet ← gather bufs
    let ret ← uvUdpSend packet
    Proc.update fun uplink =>
      { uplink with
        uploadPacket := (uplink.uploadPacket + 1) % 2 ^ 64
        uploadByte := (uplink.uploadByte + totalLen) % 2 ^ 64 }
    pure ret

/-- The loop of `lan_client_send`: part `i` starts at `pos`. -/
def sendParts (packet : Ptr) (len pmtu : Nat) (positive : 0 < pmtu)
    (header : LanClientFragmentHeader) (i pos : Nat) : Proc Uplink Event Int :=
  if _more : pos < len then do
    let partLen := min pmtu (len - pos)
    let ret ← lanClientSendRaw
      [.ofBytes [lanClientTypeIpv4Frag],
        .ofBytes { header with part := i, len := partLen }.toBytes,
        ⟨packet.plus pos, partLen⟩]
    if ret ≠ 0 then
      pure ret
    else
      sendParts packet len pmtu positive header (i + 1) (pos + min pmtu (len - pos))
  else
    pure 0
termination_by len - pos
decreasing_by omega

/-- The number of parts `lan_client_send` computes. -/
def totalPart (len pmtu : Nat) : Nat :=
  if pmtu * (len / pmtu) < len then len / pmtu + 1 else len / pmtu

def lanClientSend (type : UInt8) (packet : Ptr) (len : Nat) : Proc Uplink Event Int := do
  let uplink ← Proc.read
  if fragmenting : type = lanClientTypeIpv4 ∧ 0 < uplink.pmtu ∧ 1 < totalPart len uplink.pmtu.toNat then
    Proc.update fun uplink => { uplink with fragId := (uplink.fragId + 1) % 2 ^ 32 }
    let src ← cpyIpv4 (packet.plus ipv4OffSrc)
    let dst ← cpyIpv4 (packet.plus ipv4OffDst)
    sendParts packet len uplink.pmtu.toNat (by omega)
      { src, dst, id := uplink.fragId, part := 0, totalPart := totalPart len uplink.pmtu.toNat,
        len := 0, pmtu := uplink.pmtu.toNat } 0 0
  else
    lanClientSendRaw [.ofBytes [type], ⟨packet, len⟩]

def lanClientSendIpv4 (packet : Ptr) (len : Nat) : Proc Uplink Event Int :=
  lanClientSend lanClientTypeIpv4 packet len

end SwitchLanPlay
