import SwitchLanPlay.Lan.Datagrams

/-!
# The fields of an IPv4 header

`send_ipv4_ex` writes thirteen fields and `parse_ipv4` reads thirteen fields, with
offsets of its own.  They agree on all of them but one: the checksum is read where
the protocol stands.
-/

namespace SwitchLanPlay

open Library

/-! ## The header that is written -/

/-- The header that `send_ipv4_ex` leaves in its buffer. -/
def writtenHeader (s : LanPlay) (src dst : Ip) (protocol : Nat) (payload : List Payload) : Bytes :=
  let header := fun checksum =>
    ipv4Header (ipv4HeaderLen + payloadTotalLen payload) s.packetCtx.identification protocol checksum src dst
  header (calcChecksum ⟨.header, header 0, 0⟩ ipv4HeaderLen s).value

abbrev ipv4OffChecksum : Nat := 10

/-- Each field of a header without options as it was written. -/
structure Ipv4.Recovers (ipv4 : Ipv4) (totalLen identification protocol checksum : Nat) (src dst : Ip) :
    Prop where
  version : ipv4.version = 4
  headerLen : ipv4.headerLen = ipv4HeaderLen
  dscp : ipv4.dscp = 0
  ecn : ipv4.ecn = 0
  totalLen : ipv4.totalLen = totalLen
  identification : ipv4.identification = identification
  flags : ipv4.flags = 0
  fragmentOffset : ipv4.fragmentOffset = 0
  ttl : ipv4.ttl = 128
  protocol : ipv4.protocol = protocol
  checksum : ipv4.checksum = checksum
  src : ipv4.src = src
  dst : ipv4.dst = dst

section Written

variable (s : LanPlay) (now : Int) (src dst : Ip) (protocol : Nat) (payload : List Payload)

/-- The state after a header was written: the counter of the identifications has advanced. -/
def LanPlay.counted (s : LanPlay) : LanPlay :=
  { s with packetCtx.identification := (s.packetCtx.identification + 1) % 2 ^ 16 }

theorem writtenHeader_eq :
    writtenHeader s src dst protocol payload =
      sealedIpv4Header (ipv4HeaderLen + payloadTotalLen payload) s.packetCtx.identification protocol src dst := by
  unfold writtenHeader sealedIpv4Header
  dsimp only
  rw [calcChecksum_ipv4Header]

/-- What `send_ipv4_ex` hands to `send_ether` starts with the written header. -/
theorem sendIpv4Ex_writes :
    sendIpv4Ex now src dst protocol payload s =
      (do
        Proc.update LanPlay.counted
        let _ ← calcChecksum ⟨.header, ipv4Header (ipv4HeaderLen + payloadTotalLen payload)
          s.packetCtx.identification protocol 0 src dst, 0⟩ ipv4HeaderLen
        match ← arpGetMacByIp now dst with
        | none => pure 0
        | some dstMac =>
            sendEther dstMac etherTypeIpv4 (.ofBytes (writtenHeader s src dst protocol payload) :: payload) :
        Proc LanPlay Event Int) s := by
  have same := (calcChecksum_value ⟨.header, ipv4Header (ipv4HeaderLen + payloadTotalLen payload)
    s.packetCtx.identification protocol 0 src dst, 0⟩ ipv4HeaderLen s.counted).trans
      (calcChecksum_value _ _ s).symm
  unfold sendIpv4Ex
  rw [Proc.read_bind]
  refine Proc.bind_congr_at s rfl ?_
  refine Proc.bind_congr_at s.counted rfl ?_
  dsimp only
  rewrite [writtenHeader, ← same]
  rfl

end Written

/-! ## The identification -/

theorem sendEther_identification (dst : Mac) (type : Nat) (chain : List Payload) (s : LanPlay) :
    (sendEther dst type chain s).state.packetCtx.identification = s.packetCtx.identification := by
  change (sendPayloads (.ofBytes (etherHeader dst s.packetCtx.mac type) :: chain) s).state.packetCtx.identification
    = _
  unfold sendPayloads
  rw [Proc.read_bind, Proc.bind_state, copyParts_state]
  generalize (copyParts _ _ _ s).value = copied
  cases copied with
  | none => rfl
  | some frame => rfl

theorem arpGetMacByIp_identification (now : Int) (ip : Ip) (s : LanPlay) :
    (arpGetMacByIp now ip s).state.packetCtx.identification = s.packetCtx.identification := by
  unfold arpGetMacByIp
  rw [Proc.read_bind]
  cases s.packetCtx.arpFind now ip with
  | some slot => rfl
  | none => exact sendEther_identification _ _ _ s

theorem sendIpv4Ex_identification (now : Int) (src dst : Ip) (protocol : Nat) (payload : List Payload)
    (s : LanPlay) :
    (sendIpv4Ex now src dst protocol payload s).state.packetCtx.identification =
      (s.packetCtx.identification + 1) % 2 ^ 16 := by
  have asked := arpGetMacByIp_identification now dst s.counted
  rw [sendIpv4Ex_writes, Proc.bind_state, Proc.bind_state, calcChecksum_state, Proc.bind_state, Proc.update_state]
  cases (arpGetMacByIp now dst s.counted).value with
  | none => exact asked
  | some dstMac => exact (sendEther_identification _ _ _ _).trans asked

/-- The arguments of one call of `send_ipv4_ex`. -/
structure Ipv4Send where
  now : Int
  src : Ip
  dst : Ip
  protocol : UInt8
  payload : List Payload

namespace Ipv4Send

def perform (send : Ipv4Send) : Proc LanPlay Event Unit := do
  let _ ← sendIpv4Ex send.now send.src send.dst send.protocol.toNat send.payload
  pure ()

def header (send : Ipv4Send) (s : LanPlay) : Bytes :=
  writtenHeader s send.src send.dst send.protocol.toNat send.payload

end Ipv4Send

/-- The identification counts the packets, whether or not they leave. -/
theorem identification_after_sends (sends : List Ipv4Send) (s : LanPlay) :
    (Proc.runAll Ipv4Send.perform sends s).state.packetCtx.identification % 2 ^ 16 =
      (s.packetCtx.identification + sends.length) % 2 ^ 16 := by
  induction sends generalizing s with
  | nil => rfl
  | cons send rest ih =>
      have one : (send.perform s).state.packetCtx.identification = (s.packetCtx.identification + 1) % 2 ^ 16 := by
        rw [Ipv4Send.perform, Proc.bind_state, Proc.pure_state, sendIpv4Ex_identification]
      rw [Proc.runAll_cons_state, ih, one, List.length_cons]
      omega

/-! ## Reading a written header -/

/-- A frame whose payload starts with the given bytes. -/
def EtherFrame.carrying (ether : EtherFrame) (region : Region) (before header after : Bytes) : EtherFrame :=
  { ether with payload := ⟨region, before ++ (header ++ after), before.length⟩ }

section Reading

variable (ether : EtherFrame) (region : Region) (before after : Bytes)
  (totalLen identification : Nat) (protocol : UInt8) (checksum : Nat) (src dst : Ip)

theorem byteAt_carried (header : Bytes) (offset : Nat) (inside : offset < header.length) :
    byteAt (before ++ (header ++ after)) (before.length + offset) = byteAt header offset := by
  rw [byteAt_append_right, byteAt_append_left _ _ _ inside]

theorem net16At_carried (header : Bytes) (offset : Nat) (inside : offset + 1 < header.length) :
    net16At (before ++ (header ++ after)) (before.length + offset) = net16At header offset := by
  unfold net16At
  rw [byteAt_carried before after header offset (by omega), Nat.add_assoc,
    byteAt_carried before after header (offset + 1) inside]

theorem octetsAt_carried (n : Nat) (header : Bytes) (offset : Nat) (inside : offset + n ≤ header.length) :
    octetsAt n (before ++ (header ++ after)) (before.length + offset) = octetsAt n header offset := by
  funext index
  have below := index.isLt
  unfold octetsAt
  rw [Nat.add_assoc, byteAt_carried before after header (offset + index) (by omega)]

/-- Twelve fields are read as they were written; for the checksum, the parser finds the
protocol and the high byte of the checksum. -/
theorem parseIpv4_recovers (s : LanPlay) :
    (parseIpv4 (ether.carrying region before
        (ipv4Header totalLen identification protocol.toNat checksum src dst) after) s).value.Recovers
      (totalLen % 2 ^ 16) (identification % 2 ^ 16) protocol.toNat
      (256 * protocol.toNat + checksum / 256 % 256) src dst := by
  let header := ipv4Header totalLen identification protocol.toNat checksum src dst
  have size : header.length = ipv4HeaderLen := by simp [header, ipv4Header, net16]
  have byte (offset : Nat) (inside : offset < ipv4HeaderLen) :=
    congrArg UInt8.toNat (byteAt_carried before after header offset (by rwa [size]))
  have net16 (offset : Nat) (inside : offset + 1 < ipv4HeaderLen) :=
    net16At_carried before after header offset (by rwa [size])
  have ip (offset : Nat) (inside : offset + 4 ≤ ipv4HeaderLen) :=
    octetsAt_carried before after 4 header offset (by rwa [size])
  have verLen : _ = 0x45 := byte ipv4OffVerLen (by decide)
  have dscpEcn : _ = 0 := byte ipv4OffDscpEcn (by decide)
  have flagsOffset : _ = 0 := (net16 ipv4OffFlagsFragOffset (by decide)).trans (net16_toNat 0)
  have kept : UInt8.ofNat protocol.toNat = protocol := UInt8.ofNat_toNat
  rw [parseIpv4_value]
  constructor
  case version => exact congrArg (· / 16) verLen
  case headerLen => exact congrArg (· % 16 * 4) verLen
  case dscp => exact congrArg (· / 4) dscpEcn
  case ecn => exact congrArg (· % 4) dscpEcn
  case totalLen => exact (net16 ipv4OffTotalLen (by decide)).trans (net16_toNat totalLen)
  case identification => exact (net16 ipv4OffId (by decide)).trans (net16_toNat identification)
  case flags => exact congrArg (· / 2 ^ 13) flagsOffset
  case fragmentOffset => exact congrArg (· % 2 ^ 13) flagsOffset
  case ttl => exact byte ipv4OffTtl (by decide)
  case protocol => exact (byte ipv4OffProtocol (by decide)).trans (congrArg UInt8.toNat kept)
  case checksum =>
    have bytes : net16At header ipv4OffProtocol =
        256 * (UInt8.ofNat protocol.toNat).toNat + (UInt8.ofNat (checksum / 256)).toNat := rfl
    rw [kept, UInt8.toNat_ofNat'] at bytes
    exact (net16 ipv4OffProtocol (by decide)).trans bytes
  case src =>
    have octets : octetsAt 4 header ipv4OffSrc = src := by
      funext index
      fin_cases index <;> rfl
    exact (ip ipv4OffSrc (by decide)).trans octets
  case dst =>
    have octets : octetsAt 4 header ipv4OffDst = dst := by
      funext index
      fin_cases index <;> rfl
    exact (ip ipv4OffDst (by decide)).trans octets

end Reading

/-- Both bytes of the checksum have to equal the protocol. -/
theorem checksum_misread_iff {protocol checksum : Nat} (checksumFits : checksum < 2 ^ 16) :
    256 * protocol + checksum / 256 % 256 = checksum ↔ checksum = 257 * protocol := by
  have high : checksum / 256 < 256 := Nat.div_lt_of_lt_mul checksumFits
  rw [Nat.mod_eq_of_lt high]
  omega

/-- After any packets before it, the header of a packet is read back with the next
identification and all its fields exactly if its checksum repeats the protocol. -/
theorem written_header_recovered_iff (s t : LanPlay) (earlier : List Ipv4Send) (send : Ipv4Send)
    (short : (send.payload.map Payload.len).sum ≤ 65515) (ether : EtherFrame) (region : Region)
    (before after : Bytes) :
    (parseIpv4 (ether.carrying region before (send.header (Proc.runAll Ipv4Send.perform earlier s).state)
        after) t).value.Recovers
        (ipv4HeaderLen + (send.payload.map Payload.len).sum)
        ((s.packetCtx.identification + earlier.length) % 2 ^ 16) send.protocol.toNat
        (net16At (send.header (Proc.runAll Ipv4Send.perform earlier s).state) ipv4OffChecksum)
        send.src send.dst ↔
      net16At (send.header (Proc.runAll Ipv4Send.perform earlier s).state) ipv4OffChecksum =
        257 * send.protocol.toNat := by
  let sent := (Proc.runAll Ipv4Send.perform earlier s).state
  have identification : sent.packetCtx.identification % 2 ^ 16 = _ := identification_after_sends earlier s
  have total : payloadTotalLen send.payload = (send.payload.map Payload.len).sum := Nat.mod_eq_of_lt (by omega)
  have length : (ipv4HeaderLen + (send.payload.map Payload.len).sum) % 2 ^ 16 =
      ipv4HeaderLen + (send.payload.map Payload.len).sum := Nat.mod_eq_of_lt (by simp only [ipv4HeaderLen]; omega)
  obtain ⟨checksum, header⟩ : ∃ checksum, send.header sent =
      ipv4Header (ipv4HeaderLen + (send.payload.map Payload.len).sum) sent.packetCtx.identification
        send.protocol.toNat checksum send.src send.dst := ⟨_, by rw [← total]; rfl⟩
  have written : net16At (send.header sent) ipv4OffChecksum = checksum % 2 ^ 16 := by
    rw [header]
    exact net16_toNat checksum
  have found := parseIpv4_recovers ether region before after (ipv4HeaderLen + (send.payload.map Payload.len).sum)
    sent.packetCtx.identification send.protocol checksum send.src send.dst t
  rw [← header, length, identification] at found
  have high : checksum / 256 % 256 = checksum % 2 ^ 16 / 256 % 256 := by omega
  rw [written, ← checksum_misread_iff (Nat.mod_lt _ (by decide)), ← high]
  constructor
  · intro recovered
    exact found.checksum.symm.trans recovered.checksum
  · intro same
    rwa [same] at found

/-- A packet without payload. -/
def bareSend (dst : Ip) (protocol : UInt8) : Ipv4Send := ⟨0, noneIp, dst, protocol, []⟩

theorem written_header_recovered_repeated :
    net16At ((bareSend (octetsAt 4 [57, 233, 0, 0] 0) 1).header oneStation) ipv4OffChecksum = 257 * 1 ∧
      (parseIpv4 ((etherAt ⟨.frame, [], 0⟩ 0).carrying .frame []
        ((bareSend (octetsAt 4 [57, 233, 0, 0] 0) 1).header oneStation) []) oneStation).value.Recovers 20 0 1
        (net16At ((bareSend (octetsAt 4 [57, 233, 0, 0] 0) 1).header oneStation) ipv4OffChecksum) noneIp
        (octetsAt 4 [57, 233, 0, 0] 0) := by
  have repeats : net16At ((bareSend (octetsAt 4 [57, 233, 0, 0] 0) 1).header oneStation) ipv4OffChecksum =
      257 * 1 := by
    rw [Ipv4Send.header, writtenHeader_eq]
    decide
  exact ⟨repeats, (written_header_recovered_iff oneStation oneStation []
    (bareSend (octetsAt 4 [57, 233, 0, 0] 0) 1) (by decide) (etherAt ⟨.frame, [], 0⟩ 0) .frame [] []).mpr repeats⟩

/-- The checksum of a UDP packet is `0x0bcc`, and `0x110b` is read. -/
theorem written_checksum_misread :
    net16At ((bareSend serverIp 17).header oneStation) ipv4OffChecksum = 0x0bcc ∧
      (parseIpv4 ((etherAt ⟨.frame, [], 0⟩ 0).carrying .frame []
        ((bareSend serverIp 17).header oneStation) []) oneStation).value.checksum = 0x110b := by
  rw [Ipv4Send.header, writtenHeader_eq, parseIpv4_value]
  decide

end SwitchLanPlay
