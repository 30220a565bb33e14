import SwitchLanPlay.Lan.SendBuffer

/-!
# Captured frames and their bounds

The handlers of a captured frame trust the lengths inside it.  `FrameInside` is
the condition on a frame, and on the state it meets, under which no byte
outside the frame is read, the copy of `process_icmp` fits its buffer, and no
length derived by subtraction is negative.
-/

namespace SwitchLanPlay

open Library SlotTable

/-- An event of a handler that stays inside a frame of `len` bytes and inside
the buffer of `process_icmp`. -/
def FrameInBounds (len : Nat) : Event → Prop
  | .load .frame offset size => 0 < size → offset + size ≤ len
  | .store .icmp offset size => offset + size ≤ bufferSize
  | .derivedLen value => 0 ≤ value ∧ value < 2 ^ 16
  | _ => True

/-! ## The condition -/

/-- What `lan_client_send` takes of a packet of `totalLen` bytes behind the
Ethernet header: all of it, or the parts up to the first one whose datagram
`uv_udp_send` refuses. -/
def RelayInside (uplink : Uplink) (totalLen len : Nat) : Prop :=
  if 0 < uplink.pmtu ∧ 1 < totalPart totalLen uplink.pmtu.toNat then
    ∀ k, (∀ call < k, uplink.sendResults call = 0) → k * uplink.pmtu.toNat < totalLen →
      etherHeaderLen + k * uplink.pmtu.toNat +
        min uplink.pmtu.toNat (totalLen - k * uplink.pmtu.toNat) ≤ len
  else etherHeaderLen + totalLen ≤ len

/-- An IPv4 packet of a captured frame of `len` bytes, in the state that knows its sender. -/
def Ipv4Inside (env : Env) (s : LanPlay) (ipv4 : Ipv4) (len : Nat) : Prop :=
  let ctx := s.packetCtx
  let forwarded := etherHeaderLen + ipv4.totalLen < bufferSize → etherHeaderLen + ipv4.totalLen ≤ len
  if ipv4.dst = ctx.ip then
    ipv4.protocol = ipv4ProtocolIcmp →
      ipv4.headerLen ≤ ipv4.totalLen ∧ ipv4.totalLen - ipv4.headerLen ≤ bufferSize ∧
        (ipv4.headerLen < ipv4.totalLen → etherHeaderLen + ipv4.totalLen ≤ len)
  else if isSubnet ipv4.dst ctx.subnetNet ctx.subnetMask = true then
    if isBroadcast ipv4.dst ctx.subnetNet ctx.subnetMask = true then
      RelayInside s.uplink ipv4.totalLen len ∧ forwarded
    else if (ctx.arpFind env.now ipv4.dst).isSome = true then forwarded
    else RelayInside s.uplink ipv4.totalLen len
  else
    cmpMac ctx.mac ipv4.ether.dst = true →
      isUdp (ipv4.ether.raw.plus etherOffEnd) (len - etherOffEnd) = true →
        etherHeaderLen + ipv4.headerLen + udpOffEnd ≤ len

/-- The condition on a frame. -/
def FrameInside (env : Env) (s : LanPlay) (frame : Bytes) : Prop :=
  let ether := etherAt ⟨.frame, frame, 0⟩ frame.length
  etherHeaderLen ≤ frame.length ∧
    (cmpMac ether.src s.packetCtx.mac = false →
      (ether.type = etherTypeArp → etherHeaderLen + 28 ≤ frame.length) ∧
        (ether.type = etherTypeIpv4 → etherHeaderLen + ipv4HeaderLen ≤ frame.length ∧
          Ipv4Inside env (s.learned env.now ether.src (ipv4At ether).src) (ipv4At ether)
            frame.length))

/-! ## The handlers -/

theorem transmits_frameInBounds (len : Nat) : Transmits (FrameInBounds len) := by
  constructor <;> intros <;> trivial

/-- The events of `processUdp` on a packet with room for an IPv4 header. -/
def UdpOk (Q : Event → Prop) (data : Ptr) (dataLen : Int) : Prop :=
  let headerLen := verLenAt data % 16 * 4
  let rest := dataLen - headerLen - udpOffEnd
  Q (.load data.region (data.offset + ipv4OffVerLen) 1) ∧
    (verLenAt data / 16 = 4 → Q (.load data.region (data.offset + ipv4OffProtocol) 1) ∧
      ((byteAt data.memory (data.offset + ipv4OffProtocol)).toNat = ipv4ProtocolUdp →
        Q (.load data.region (data.offset + ipv4OffVerLen) 1) ∧
        Q (.load data.region (data.offset + ipv4OffSrc) 4) ∧
        Q (.load data.region (data.offset + ipv4OffDst) 4) ∧
        Q (.load data.region (data.offset + headerLen + udpOffSrcport) 2) ∧
        Q (.load data.region (data.offset + headerLen + udpOffDstport) 2) ∧
        Q (.derivedLen rest) ∧
        Q (.load data.region (data.offset + headerLen + udpOffEnd) (rest % 2 ^ 16).toNat)))

theorem emits_processUdp {Q : Event → Prop} (data : Ptr) (dataLen : Int)
    (long : ipv4OffEnd ≤ dataLen) (s : LanPlay)
    (sent : ∀ src srcport dst dstport payload, Q (.udpSend src srcport dst dstport payload)) :
    (processUdp data dataLen).Emits Q s ↔ UdpOk Q data dataLen := by
  have positive : 0 < dataLen := by
    simp only [ipv4OffEnd] at long
    omega
  have version : (ipVersion data dataLen).Emits Q s ↔
      Q (.load data.region (data.offset + ipv4OffVerLen) 1) := by
    rw [ipVersion, if_pos positive, Proc.emits_bind, emits_readNet8]
    exact and_iff_left (Proc.emits_pure _)
  unfold processUdp UdpOk
  rw [Proc.emits_bind, version, ipVersion_value, ipVersion_state, if_pos positive]
  refine and_congr_right fun _ => ?_
  by_cases isIpv4 : verLenAt data / 16 = 4
  · rw [if_pos ⟨isIpv4, not_lt_of_ge long⟩, Proc.emits_bind, emits_readNet8,
      forall_prop_of_true isIpv4]
    refine and_congr_right fun _ => ?_
    rw [readNet8_value]
    by_cases udp : (byteAt data.memory (data.offset + ipv4OffProtocol)).toNat = ipv4ProtocolUdp
    · rw [if_neg (not_not_intro udp), forall_prop_of_true udp]
      simp only [Proc.emits_bind, emits_readNet8, emits_readNet16, emits_cpyIpv4, emits_loadBytes,
        Proc.emits_emit, Proc.emits_pure, sent, and_true]
      exact Iff.rfl
    · rw [if_pos udp]
      exact iff_of_true (Proc.emits_pure _) fun same => absurd same udp
  · rw [if_neg fun both => isIpv4 both.1]
    exact iff_of_true (Proc.emits_pure _) fun same => absurd same isIpv4

section Handlers

variable {len : Nat} (memory : Bytes) (s : LanPlay)

theorem emits_parseEther (rawLen : Nat) :
    (parseEther ⟨.frame, memory, 0⟩ rawLen).Emits (FrameInBounds len) s ↔ etherHeaderLen ≤ len := by
  simp only [parseEther, emits_cpyMac, emits_readNet16, Proc.emits_bind, Proc.emits_pure, and_true,
    FrameInBounds, Ptr.plus, etherOffDst, etherOffSrc, etherOffType, etherHeaderLen]
  omega

theorem emits_parseArp (rawLen : Nat) :
    (parseArp (etherAt ⟨.frame, memory, 0⟩ rawLen)).Emits (FrameInBounds len) s ↔
      etherHeaderLen + 28 ≤ len := by
  simp only [parseArp, etherAt, emits_cpyMac, emits_cpyIpv4, emits_readNet8, emits_readNet16,
    Proc.emits_bind, Proc.emits_pure, and_true, FrameInBounds, Ptr.plus, etherOffEnd, etherHeaderLen]
  omega

theorem emits_parseIpv4 (rawLen : Nat) :
    (parseIpv4 (etherAt ⟨.frame, memory, 0⟩ rawLen)).Emits (FrameInBounds len) s ↔
      etherHeaderLen + ipv4HeaderLen ≤ len := by
  simp only [parseIpv4, etherAt, emits_cpyIpv4, emits_readNet8, emits_readNet16, Proc.emits_bind,
    Proc.emits_pure, and_true, FrameInBounds, Ptr.plus, etherOffEnd, etherHeaderLen, ipv4HeaderLen,
    ipv4OffVerLen, ipv4OffDscpEcn, ipv4OffTotalLen, ipv4OffId, ipv4OffFlagsFragOffset, ipv4OffTtl,
    ipv4OffProtocol, ipv4OffSrc, ipv4OffDst]
  omega

variable (header : etherHeaderLen + ipv4HeaderLen ≤ len)

include header

theorem relayOk_inside (uplink : Uplink) (totalLen : Nat) :
    RelayOk (FrameInBounds len) uplink ⟨.frame, memory, etherHeaderLen⟩ totalLen ↔
      RelayInside uplink totalLen len := by
  simp only [etherHeaderLen, ipv4HeaderLen] at header
  unfold RelayOk RelayInside
  split
  case isTrue fragmenting =>
    have positive : 0 < uplink.pmtu.toNat := by omega
    simp only [PartSent, FrameInBounds, etherHeaderLen, ipv4OffSrc, ipv4OffDst]
    constructor
    · rintro ⟨-, -, parts⟩ k accepted inside
      exact parts k accepted inside (by omega)
    · intro parts
      exact ⟨by omega, by omega, fun k accepted inside _ => parts k accepted inside⟩
  case isFalse whole =>
    simp only [FrameInBounds, etherHeaderLen]
    omega

theorem partOk_inside (totalLen : Nat) :
    PartOk (FrameInBounds len) etherHeaderLen ⟨⟨.frame, memory, etherHeaderLen⟩, totalLen⟩ ↔
      (etherHeaderLen + totalLen < bufferSize → etherHeaderLen + totalLen ≤ len) := by
  simp only [etherHeaderLen, ipv4HeaderLen] at header
  simp only [PartOk, FrameInBounds, etherHeaderLen, bufferSize]
  split
  case isTrue large => exact iff_of_true trivial fun fits => absurd large (by omega)
  case isFalse fits => omega

omit header in
theorem icmpOk_inside (now : Int) {ipv4 : Ipv4}
    (place : ipv4.payload = ⟨.frame, memory, etherHeaderLen + ipv4.headerLen⟩)
    (_narrow : ipv4.totalLen < 2 ^ 16) :
    IcmpOk (FrameInBounds len) now s ipv4 ↔
      ipv4.headerLen ≤ ipv4.totalLen ∧ ipv4.totalLen - ipv4.headerLen ≤ bufferSize ∧
        (ipv4.headerLen < ipv4.totalLen → etherHeaderLen + ipv4.totalLen ≤ len) := by
  simp only [IcmpOk, place, FitsOk, FrameInBounds, implies_true, and_true, etherHeaderLen, bufferSize]
  omega

theorem emits_processUdp_frame (short : len < 65536) :
    (processUdp ⟨.frame, memory, etherHeaderLen⟩ (len - etherOffEnd)).Emits (FrameInBounds len) s ↔
      (isUdp ⟨.frame, memory, etherHeaderLen⟩ (len - etherOffEnd) = true →
        etherHeaderLen + verLenAt ⟨.frame, memory, etherHeaderLen⟩ % 16 * 4 + udpOffEnd ≤ len) := by
  simp only [etherHeaderLen, ipv4HeaderLen] at header
  have long : (ipv4OffEnd : Int) ≤ len - etherOffEnd := by
    simp only [ipv4OffEnd, etherOffEnd]
    omega
  rw [emits_processUdp _ _ long s fun _ _ _ _ _ => trivial]
  simp only [UdpOk, isUdp, long, FrameInBounds, decide_true, Bool.true_and, Bool.and_eq_true,
    decide_eq_true_eq, and_imp]
  simp only [etherHeaderLen, etherOffEnd, ipv4OffVerLen, ipv4OffProtocol, ipv4OffSrc, ipv4OffDst,
    udpOffSrcport, udpOffDstport, udpOffEnd]
  omega

theorem ipv4Ok_inside (env : Env) (short : len < 65536) :
    Ipv4Ok (FrameInBounds len) env s (ipv4At (etherAt ⟨.frame, memory, 0⟩ len)) ↔
      Ipv4Inside env s (ipv4At (etherAt ⟨.frame, memory, 0⟩ len)) len := by
  have narrow : (ipv4At (etherAt ⟨.frame, memory, 0⟩ len)).totalLen < 2 ^ 16 := net16At_lt _ _
  unfold Ipv4Ok Ipv4Inside
  dsimp only
  split_ifs
  · exact imp_congr_right fun _ => icmpOk_inside memory s env.now rfl narrow
  · exact and_congr (relayOk_inside memory header _ _) (partOk_inside memory header _)
  · exact partOk_inside memory header _
  · exact relayOk_inside memory header _ _
  · refine imp_congr_right fun _ => ?_
    unfold GatewayOk
    refine (and_iff_left fun _ => ⟨?_, ?_⟩).trans (emits_processUdp_frame memory s header short)
    · simp only [etherHeaderLen, ipv4HeaderLen] at header
      change _ → 0 + 14 + (((len : Int) - 14) % 2 ^ 16).toNat ≤ len
      omega
    · exact fun output _ _ _ => trivial

end Handlers

/-- A captured frame is handled within bounds exactly when it meets the condition. -/
theorem captured_frame_inside_iff (env : Env) (frame : Bytes) (short : frame.length < 65536)
    (s : LanPlay) (sized : s.packetCtx.bufferLen = bufferSize) :
    (getPacket env frame frame.length).Emits (FrameInBounds frame.length) s ↔
      FrameInside env s frame := by
  rw [emits_getPacket (transmits_frameInBounds _) env frame sized, forall_prop_of_true short]
  unfold EtherOk FrameInside
  rw [emits_parseEther]
  refine and_congr_right fun _ => imp_congr_right fun _ => and_congr ?_ ?_
  · exact imp_congr_right fun _ => emits_parseArp _ _ _
  · refine imp_congr_right fun _ => ?_
    rw [emits_parseIpv4]
    exact and_congr_right fun header => ipv4Ok_inside _ _ header env short

/-- An echo request of 42 bytes to the client, whose IPv4 header gives `totalLen`. -/
def echoFrame (totalLen : Nat) : Bytes :=
  [0, 0, 0, 0, 0, 0, 2, 0, 0, 0, 0, 1, 8, 0, 0x45, 0] ++ net16 totalLen ++
    [0, 0, 0, 0, 64, 1, 0, 0, 10, 13, 0, 2, 10, 13, 37, 1, 8, 0, 0, 0, 0, 0, 0, 0]

theorem echoFrame_dst (totalLen : Nat) :
    (ipv4At (etherAt ⟨.frame, echoFrame totalLen, 0⟩ 42)).dst = serverIp := by
  funext index
  fin_cases index <;> rfl

theorem captured_frame_inside_echo :
    (echoFrame 28).length < 65536 ∧ started.packetCtx.bufferLen = bufferSize ∧
      ∀ env, (getPacket env (echoFrame 28) (echoFrame 28).length).Emits
        (FrameInBounds (echoFrame 28).length) started := by
  refine ⟨by decide, rfl, fun env => ?_⟩
  refine (captured_frame_inside_iff env (echoFrame 28) (by decide) started rfl).mpr ?_
  refine ⟨by decide, fun _ => ⟨fun arp => absurd arp (by decide), fun _ => ⟨by decide, ?_⟩⟩⟩
  rw [Ipv4Inside, if_pos (by exact echoFrame_dst 28)]
  exact fun _ => by decide

/-- A frame of 42 bytes that claims 1500: the reply would echo 1472 bytes of
memory behind the frame. -/
theorem echo_reads_behind_frame :
    (echoFrame 1500).length = 42 ∧ started.packetCtx.bufferLen = bufferSize ∧
      ∀ env, ¬ (getPacket env (echoFrame 1500) (echoFrame 1500).length).Emits
        (FrameInBounds (echoFrame 1500).length) started := by
  refine ⟨by decide, rfl, fun env inside => ?_⟩
  have events := (emits_getPacket (transmits_frameInBounds 42) env (echoFrame 1500) rfl).mp inside
    (by decide)
  have ipv4 := ((events.2 (by decide)).2 (by decide)).2
  rw [Ipv4Ok, if_pos (by exact echoFrame_dst 1500)] at ipv4
  have load := (ipv4 (by decide)).2.1
  exact absurd (load (by decide)) (by decide)

end SwitchLanPlay
