import SwitchLanPlay.Client.Fragments
import SwitchLanPlay.Lan.Capture
import SwitchLanPlay.Lan.Sending

/-!
# The events of a captured frame, exactly

For a predicate on events that allows everything sending does besides reading
its parts, the conditions below say when every event of a handler satisfies
it: one condition for each handler, and one equivalence.
-/

namespace SwitchLanPlay

open Library SlotTable

/-! ## To the relay -/

theorem emits_gather {σ : Type} {Q : Event → Prop} (chain : List Payload) (s : σ) :
    (gather chain).Emits Q s ↔
      ∀ part ∈ chain, Q (.load part.ptr.region part.ptr.offset part.len) := by
  simp [Proc.Emits]

/-- Part `k` of a packet, when the loop of `lan_client_send` comes to it. -/
def PartSent (Q : Event → Prop) (packet : Ptr) (len pmtu k : Nat) : Prop :=
  k * pmtu < len →
    Q (.load packet.region (packet.offset + k * pmtu) (min pmtu (len - k * pmtu)))

/-- The loads of `lan_client_send` for an IPv4 packet.  A part is read when the
datagrams of all parts before it were accepted by `uv_udp_send`. -/
def RelayOk (Q : Event → Prop) (uplink : Uplink) (packet : Ptr) (len : Nat) : Prop :=
  if 0 < uplink.pmtu ∧ 1 < totalPart len uplink.pmtu.toNat then
    Q (.load packet.region (packet.offset + ipv4OffSrc) 4) ∧
      Q (.load packet.region (packet.offset + ipv4OffDst) 4) ∧
        ∀ k, (∀ call < k, uplink.sendResults call = 0) →
          PartSent Q packet len uplink.pmtu.toNat k
  else Q (.load packet.region packet.offset len)

section Relay

variable {Q : Event → Prop} (transmits : Transmits Q)

include transmits

theorem emits_lanClientSendRaw {bufs : List Payload} (nonempty : (bufs.map Payload.len).sum ≠ 0)
    (uplink : Uplink) :
    (lanClientSendRaw bufs).Emits Q uplink ↔
      ∀ part ∈ bufs, Q (.load part.ptr.region part.ptr.offset part.len) := by
  have accepted : ∀ packet, (uvUdpSend packet).Emits Q uplink := by
    intro packet event member
    rw [uvUdpSend_outcome] at member
    by_cases sent : uplink.sendResults 0 = 0
    · rw [if_pos sent, List.mem_singleton] at member
      subst member
      exact transmits.datagram packet
    · simp [sent] at member
  rw [lanClientSendRaw, if_neg nonempty, Proc.emits_bind, emits_gather, gather_state]
  exact and_iff_left (by simp [accepted])

/-- The loop from part `i` on.  The induction is on the number of parts left. -/
theorem emits_sendParts (packet : Ptr) (len pmtu : Nat) (positive : 0 < pmtu)
    (header : LanClientFragmentHeader) (rest : Nat) :
    ∀ (i : Nat) (uplink : Uplink), rest = totalPart len pmtu - i →
      ((sendParts packet len pmtu positive header i (min (i * pmtu) len)).Emits Q uplink ↔
        ∀ k, (∀ call < k, uplink.sendResults call = 0) →
          PartSent Q packet len pmtu (i + k)) := by
  induction rest with
  | zero =>
      intro i uplink last
      rw [sendParts_last packet len pmtu header i positive (by omega)]
      refine iff_of_true (Proc.emits_pure _) fun k _ inside => ?_
      rw [← lt_totalPart_iff positive] at inside
      omega
  | succ rest ih =>
      intro i uplink more
      have inside := (lt_totalPart_iff positive i).mp (show i < totalPart len pmtu by omega)
      have nonempty := partBufs_nonempty packet len pmtu header i
      have first : (lanClientSendRaw (partBufs packet len pmtu header i)).Emits Q uplink ↔
          PartSent Q packet len pmtu i := by
        rw [emits_lanClientSendRaw transmits nonempty]
        simp [partBufs, PartSent, inside, Payload.ofBytes, transmits.header, Ptr.plus]
      have later := ih (i + 1)
        (lanClientSendRaw (partBufs packet len pmtu header i) uplink).state (by omega)
      simp only [lanClientSendRaw_sendResults _ uplink nonempty, Nat.add_assoc,
        Nat.add_comm 1] at later
      rw [sendParts_next packet len pmtu header i positive (by omega), Proc.emits_bind, first,
        lanClientSendRaw_value _ uplink nonempty]
      by_cases sent : uplink.sendResults 0 = 0
      · rw [if_neg (not_not_intro sent), later]
        constructor
        · rintro ⟨here, others⟩ k accepted
          cases k with
          | zero => exact here
          | succ k => exact others k fun call below => accepted (call + 1) (by omega)
        · intro all
          refine ⟨all 0 fun call below => absurd below (Nat.not_lt_zero call), ?_⟩
          intro k accepted
          refine all (k + 1) fun call below => ?_
          cases call with
          | zero => exact sent
          | succ call => exact accepted call (by omega)
      · rw [if_pos sent]
        constructor
        · rintro ⟨here, -⟩ k accepted
          cases k with
          | zero => exact here
          | succ k => exact absurd (accepted 0 (Nat.succ_pos k)) sent
        · intro all
          exact ⟨all 0 fun call below => absurd below (Nat.not_lt_zero call), Proc.emits_pure _⟩

theorem emits_lanClientSendIpv4 (packet : Ptr) (len : Nat) (uplink : Uplink) :
    (lanClientSendIpv4 packet len).Emits Q uplink ↔ RelayOk Q uplink packet len := by
  unfold lanClientSendIpv4 lanClientSend RelayOk
  rw [Proc.emits_read_bind]
  by_cases fragmenting : 0 < uplink.pmtu ∧ 1 < totalPart len uplink.pmtu.toNat
  · rw [dif_pos ⟨rfl, fragmenting⟩, if_pos fragmenting, Proc.emits_update_bind, Proc.emits_bind,
      emits_cpyIpv4, Proc.emits_bind, emits_cpyIpv4]
    refine and_congr_right fun _ => and_congr_right fun _ => ?_
    have loop := emits_sendParts transmits packet len uplink.pmtu.toNat (by omega)
      { src := octetsAt 4 packet.memory (packet.offset + ipv4OffSrc)
        dst := octetsAt 4 packet.memory (packet.offset + ipv4OffDst)
        id := uplink.fragId, part := 0, totalPart := totalPart len uplink.pmtu.toNat, len := 0
        pmtu := uplink.pmtu.toNat } (totalPart len uplink.pmtu.toNat) 0
      { uplink with fragId := (uplink.fragId + 1) % 2 ^ 32 } rfl
    simp only [Nat.zero_mul, Nat.zero_min, Nat.zero_add] at loop
    exact loop
  · rw [dif_neg fun both => fragmenting both.2, if_neg fragmenting,
      emits_lanClientSendRaw transmits (by simp)]
    simp [Payload.ofBytes, transmits.header]

end Relay

/-! ## To the local network -/

theorem LanPlay.core_arpList {s s' : LanPlay} (same : s'.core = s.core) :
    s'.packetCtx.arpList = s.packetCtx.arpList := by
  change s'.core.packetCtx.arpList = s.core.packetCtx.arpList
  rw [same]

theorem LanPlay.core_bufferLen {s s' : LanPlay} (same : s'.core = s.core) :
    s'.packetCtx.bufferLen = s.packetCtx.bufferLen := by
  change s'.core.packetCtx.bufferLen = s.core.packetCtx.bufferLen
  rw [same]

theorem sendEther_core (dst : Mac) (type : Nat) (part : Payload) (s : LanPlay) :
    (sendEther dst type [part] s).state.core = s.core :=
  (sendEther_framed (sends_anything part.ptr.region) dst type
    (List.forall_mem_singleton.mpr (Or.inl rfl)) s).1

/-- Some frame is sent for a packet to `dst` from the relay. -/
def LanPlay.Forwards (s : LanPlay) (now : Int) (dst : Ip) : Prop :=
  if isBroadcast dst s.packetCtx.subnetNet s.packetCtx.subnetMask = true then
    s.nextRealBroadcast = true ∨ ∃ i, now < (s.packetCtx.arpList i).expireAt
  else (s.packetCtx.arpFind now dst).isSome = true

section Local

variable {Q : Event → Prop} (transmits : Transmits Q)

include transmits

theorem emits_sendEther_single {s : LanPlay} (sized : s.packetCtx.bufferLen = bufferSize) (dst : Mac)
    (type : Nat) (part : Payload) :
    (sendEther dst type [part]).Emits Q s ↔ PartOk Q etherHeaderLen part := by
  rw [emits_sendEther transmits sized, chainOk_singleton]

/-- The loop over the ARP cache sends to every entry that has not expired. -/
theorem emits_arpForEachFrom (now : Int) (packet : Ptr) (len : Nat) (slots : List (Fin arpCacheLen))
    {s : LanPlay} (sized : s.packetCtx.bufferLen = bufferSize) :
    (arpForEachFrom now (lanClientArpForEachCb packet len) slots).Emits Q s ↔
      ∀ i ∈ slots, now < (s.packetCtx.arpList i).expireAt →
        PartOk Q etherHeaderLen ⟨packet, len⟩ := by
  induction slots generalizing s with
  | nil => simp [arpForEachFrom]
  | cons i rest ih =>
      unfold arpForEachFrom
      rw [Proc.emits_read_bind, Proc.emits_ite, List.forall_mem_cons]
      by_cases live : now < (s.packetCtx.arpList i).expireAt
      · have kept := sendEther_core (s.packetCtx.arpList i).mac etherTypeIpv4 ⟨packet, len⟩ s
        have sent : (lanClientArpForEachCb packet len (s.packetCtx.arpList i)).Emits Q s ↔
            PartOk Q etherHeaderLen ⟨packet, len⟩ := by
          simp [lanClientArpForEachCb, emits_sendEther_single transmits sized]
        have later := ih ((LanPlay.core_bufferLen kept).trans sized)
        rw [LanPlay.core_arpList kept] at later
        simp only [live, not_true_eq_false, false_implies, and_true, true_implies,
          Proc.emits_bind, sent]
        refine and_congr_right fun _ => ?_
        change Proc.Emits Q (arpForEachFrom now (lanClientArpForEachCb packet len) rest) _ ↔ _
        exact later
      · simp only [live, false_implies, true_and, not_false_eq_true, true_implies]
        exact ih sized

/-- The body of `lan_client_process`. -/
theorem emits_lanClientForward (now : Int) (packet : Ptr) (len : Nat) {s : LanPlay}
    (sized : s.packetCtx.bufferLen = bufferSize) :
    (lanClientForward now packet len).Emits Q s ↔
      (len ≠ 0 → Q (.load packet.region (packet.offset + ipv4OffDst) 4) ∧
        (s.Forwards now (octetsAt 4 packet.memory (packet.offset + ipv4OffDst)) →
          PartOk Q etherHeaderLen ⟨packet, len⟩)) := by
  unfold lanClientForward
  by_cases empty : len = 0
  · simp [empty]
  · rw [if_neg empty, Proc.emits_read_bind, Proc.emits_bind, emits_cpyIpv4, forall_prop_of_true empty]
    refine and_congr_right fun _ => ?_
    change Proc.Emits Q (if isBroadcast (octetsAt 4 packet.memory (packet.offset + ipv4OffDst)) _ _ = true
      then _ else _) s ↔ _
    unfold LanPlay.Forwards
    split
    case isTrue broadcast =>
      unfold lanClientOnBroadcast
      rw [Proc.emits_read_bind]
      by_cases real : s.nextRealBroadcast = true
      · rw [if_pos real, Proc.emits_update_bind, emits_sendEther_single transmits (by exact sized)]
        simp [real]
      · rw [if_neg real, Proc.emits_bind, arpForEach, emits_arpForEachFrom transmits now packet len _ sized]
        simp [real]
    case isFalse unicast =>
      refine emits_arpGetMacByIp_bind transmits sized now _ _ (fun _ => ?_) _ fun mac => ?_
      · exact Proc.emits_pure _
      · exact emits_sendEther_single transmits sized mac _ _

end Local

/-! ## Captured frames -/

/-- The fields `parse_ether` fills in. -/
def etherAt (packet : Ptr) (len : Nat) : EtherFrame where
  raw := packet
  rawLen := len
  dst := octetsAt 6 packet.memory (packet.offset + etherOffDst)
  src := octetsAt 6 packet.memory (packet.offset + etherOffSrc)
  type := net16At packet.memory (packet.offset + etherOffType)
  payload := packet.plus etherOffEnd

/-- The first byte of an IPv4 header: version and header length. -/
def verLenAt (packet : Ptr) : Nat := (byteAt packet.memory (packet.offset + ipv4OffVerLen)).toNat

/-- The fields `parse_ipv4` fills in. -/
def ipv4At (ether : EtherFrame) : Ipv4 :=
  let packet := ether.payload
  let byte := fun offset => (byteAt packet.memory (packet.offset + offset)).toNat
  let net16 := fun offset => net16At packet.memory (packet.offset + offset)
  { ether
    version := verLenAt packet / 16
    headerLen := verLenAt packet % 16 * 4
    dscp := byte ipv4OffDscpEcn / 4
    ecn := byte ipv4OffDscpEcn % 4
    totalLen := net16 ipv4OffTotalLen
    identification := net16 ipv4OffId
    flags := net16 ipv4OffFlagsFragOffset / 2 ^ 13
    fragmentOffset := net16 ipv4OffFlagsFragOffset % 2 ^ 13
    ttl := byte ipv4OffTtl
    protocol := byte ipv4OffProtocol
    checksum := net16 ipv4OffProtocol
    src := octetsAt 4 packet.memory (packet.offset + ipv4OffSrc)
    dst := octetsAt 4 packet.memory (packet.offset + ipv4OffDst)
    payload := packet.plus (verLenAt packet % 16 * 4) }

theorem parseEther_value (packet : Ptr) (len : Nat) (s : LanPlay) :
    (parseEther packet len s).value = etherAt packet len := rfl

theorem parseEther_state (packet : Ptr) (len : Nat) (s : LanPlay) :
    (parseEther packet len s).state = s := rfl

theorem parseIpv4_value (ether : EtherFrame) (s : LanPlay) :
    (parseIpv4 ether s).value = ipv4At ether := rfl

theorem parseIpv4_state (ether : EtherFrame) (s : LanPlay) : (parseIpv4 ether s).state = s := rfl

/-- The proxy takes the packet: it is UDP over IPv4. -/
def isUdp (data : Ptr) (dataLen : Int) : Bool :=
  decide (ipv4OffEnd ≤ dataLen) && decide (verLenAt data / 16 = 4) &&
    decide ((byteAt data.memory (data.offset + ipv4OffProtocol)).toNat = ipv4ProtocolUdp)

/-- The events of `process_icmp`. -/
def IcmpOk (Q : Event → Prop) (now : Int) (s : LanPlay) (ipv4 : Ipv4) : Prop :=
  let icmpLen : Int := ipv4.totalLen - ipv4.headerLen
  Q (.derivedLen icmpLen) ∧
    Q (.load ipv4.payload.region ipv4.payload.offset (icmpLen % 2 ^ 64).toNat) ∧
      Q (.store .icmp 0 (icmpLen % 2 ^ 64).toNat) ∧
        ((s.packetCtx.arpFind now ipv4.src).isSome = true →
          FitsOk Q (etherHeaderLen + ipv4HeaderLen) (icmpLen % 2 ^ 16).toNat)

/-- A packet of the TCP stack leaves when the address of its destination is known. -/
def OutputOk (Q : Event → Prop) (now : Int) (s : LanPlay) (output : Bytes) : Prop :=
  (s.packetCtx.arpFind now (octetsAt 4 output ipv4OffDst)).isSome = true →
    FitsOk Q etherHeaderLen (output.length % 2 ^ 16)

/-- The bytes of a frame that the TCP stack takes. -/
def lwipTaken (raw : Ptr) (rawLen : Nat) : Bytes :=
  slice raw.memory (raw.offset + etherOffEnd) (((rawLen : Int) - etherOffEnd) % 2 ^ 16).toNat

/-- The events of `gateway_on_packet`. -/
def GatewayOk (Q : Event → Prop) (env : Env) (s : LanPlay) (raw : Ptr) (rawLen : Nat) : Prop :=
  (processUdp (raw.plus etherOffEnd) (rawLen - etherOffEnd)).Emits Q s ∧
    (isUdp (raw.plus etherOffEnd) (rawLen - etherOffEnd) = false →
      Q (.load raw.region (raw.offset + etherOffEnd)
        (((rawLen : Int) - etherOffEnd) % 2 ^ 16).toNat) ∧
        ∀ output ∈ env.lwipInput (lwipTaken raw rawLen), OutputOk Q env.now s output)

/-- The state after the sender of a frame is entered into the ARP cache. -/
def LanPlay.learned (s : LanPlay) (now : Int) (mac : Mac) (ip : Ip) : LanPlay :=
  { s with packetCtx := s.packetCtx.arpSet now mac ip }

/-- The events of `process_ipv4` behind the header, in the state that knows the sender. -/
def Ipv4Ok (Q : Event → Prop) (env : Env) (s : LanPlay) (ipv4 : Ipv4) : Prop :=
  let ctx := s.packetCtx
  let whole : Payload := ⟨ipv4.ether.payload, ipv4.totalLen⟩
  if ipv4.dst = ctx.ip then ipv4.protocol = ipv4ProtocolIcmp → IcmpOk Q env.now s ipv4
  else if isSubnet ipv4.dst ctx.subnetNet ctx.subnetMask = true then
    if isBroadcast ipv4.dst ctx.subnetNet ctx.subnetMask = true then
      RelayOk Q s.uplink whole.ptr whole.len ∧ PartOk Q etherHeaderLen whole
    else if (ctx.arpFind env.now ipv4.dst).isSome = true then PartOk Q etherHeaderLen whole
    else RelayOk Q s.uplink whole.ptr whole.len
  else cmpMac ctx.mac ipv4.ether.dst = true → GatewayOk Q env s ipv4.ether.raw ipv4.ether.rawLen

/-- The events of a captured frame. -/
def EtherOk (Q : Event → Prop) (env : Env) (s : LanPlay) (packet : Ptr) (len : Nat) : Prop :=
  let ether := etherAt packet len
  (parseEther packet len).Emits Q s ∧
    (cmpMac ether.src s.packetCtx.mac = false →
      (ether.type = etherTypeArp → (parseArp ether).Emits Q s) ∧
        (ether.type = etherTypeIpv4 → (parseIpv4 ether).Emits Q s ∧
          Ipv4Ok Q env (s.learned env.now ether.src (ipv4At ether).src) (ipv4At ether)))

section Capture

variable {Q : Event → Prop} (transmits : Transmits Q)

theorem emits_arpSet_bind {α : Type} (now : Int) (mac : Mac) (ip : Ip) (next : Proc LanPlay Event α)
    (s : LanPlay) :
    (arpSet now mac ip >>= fun _ => next).Emits Q s ↔ next.Emits Q (s.learned now mac ip) := by
  rw [Proc.emits_bind]
  exact and_iff_right (by simp [arpSet])

theorem ipVersion_value (data : Ptr) (dataLen : Int) (s : LanPlay) :
    (ipVersion data dataLen s).value = if 0 < dataLen then verLenAt data / 16 else 0 := by
  unfold ipVersion
  split <;> rfl

theorem ipVersion_state (data : Ptr) (dataLen : Int) (s : LanPlay) :
    (ipVersion data dataLen s).state = s := by
  unfold ipVersion
  split <;> rfl

theorem processUdp_value (data : Ptr) (dataLen : Int) (s : LanPlay) :
    (processUdp data dataLen s).value = isUdp data dataLen := by
  unfold processUdp isUdp
  rw [Proc.bind_value, ipVersion_value]
  by_cases long : 20 ≤ dataLen
  · have positive : 0 < dataLen := by omega
    by_cases version : verLenAt data / 16 = 4
    · by_cases udp : (byteAt data.memory (data.offset + ipv4OffProtocol)).toNat = ipv4ProtocolUdp
      · simp [positive, long, version, udp]
      · simp [positive, long, version, udp]
    · simp [positive, version]
  · simp [long]

theorem processUdp_state (data : Ptr) (dataLen : Int) (s : LanPlay) :
    (processUdp data dataLen s).state = s := by
  unfold processUdp
  rw [Proc.bind_state, ipVersion_state]
  split
  · rw [Proc.bind_state]
    split <;> rfl
  · rfl

theorem lanPlayGatewaySendPacket_core (now : Int) (output : Bytes) (s : LanPlay) :
    (lanPlayGatewaySendPacket now output s).state.core = s.core := by
  have sends := sends_anything .lwip
  refine ((cpyIpv4_framed trivial).bind fun dst => (arpGetMacByIp_framed sends now dst).bind
    fun found => ?_ : (lanPlayGatewaySendPacket now output).Framed LanPlay.core fun _ => True) s |>.1
  cases found with
  | none => exact Proc.framed_pure _
  | some mac => exact sendEther_framed sends _ _ (List.forall_mem_singleton.mpr (Or.inl rfl))

include transmits

theorem emits_processIcmp (now : Int) (ipv4 : Ipv4) {s : LanPlay}
    (sized : s.packetCtx.bufferLen = bufferSize) :
    (processIcmp now ipv4).Emits Q s ↔ IcmpOk Q now s ipv4 := by
  unfold processIcmp IcmpOk
  simp only [Proc.emits_emit_bind]
  refine and_congr_right fun _ => and_congr_right fun _ => and_congr_right fun _ => ?_
  rw [Proc.emits_bind, calcChecksum_state, and_iff_right (emits_calcChecksum _ _ _ transmits.icmp),
    Proc.emits_bind, and_iff_left (Proc.emits_pure _), emits_sendIpv4 transmits sized,
    chainOk_singleton, partOk_readable _ (transmits.icmp _ _)]

theorem emits_lanPlayGatewaySendPacket (now : Int) (output : Bytes) {s : LanPlay}
    (sized : s.packetCtx.bufferLen = bufferSize) :
    (lanPlayGatewaySendPacket now output).Emits Q s ↔ OutputOk Q now s output := by
  unfold lanPlayGatewaySendPacket
  rw [Proc.emits_bind, emits_cpyIpv4]
  refine (and_iff_right (transmits.lwip _ _)).trans ?_
  refine emits_arpGetMacByIp_bind transmits sized now _ _ (fun _ => ?_) _ fun mac => ?_
  · exact Proc.emits_pure _
  · exact (emits_sendEther_single transmits sized mac _ _).trans
      (partOk_readable _ (transmits.lwip _ _))

theorem emits_uvlOutputs (now : Int) (outputs : List Bytes) {s : LanPlay}
    (sized : s.packetCtx.bufferLen = bufferSize) :
    (uvlOutputs now outputs).Emits Q s ↔ ∀ output ∈ outputs, OutputOk Q now s output := by
  induction outputs generalizing s with
  | nil => simp [uvlOutputs]
  | cons output rest ih =>
      have kept := lanPlayGatewaySendPacket_core now output s
      have later := ih ((LanPlay.core_bufferLen kept).trans sized)
      simp only [OutputOk, PacketCtx.arpFind, LanPlay.core_arpList kept] at later
      rw [uvlOutputs, Proc.emits_bind, emits_lanPlayGatewaySendPacket transmits now output sized,
        List.forall_mem_cons, later]
      rfl

theorem emits_gatewayOnPacket (env : Env) (raw : Ptr) (rawLen : Nat) {s : LanPlay}
    (sized : s.packetCtx.bufferLen = bufferSize) :
    (gatewayOnPacket env raw rawLen).Emits Q s ↔ GatewayOk Q env s raw rawLen := by
  unfold gatewayOnPacket GatewayOk
  rw [Proc.emits_bind, processUdp_value, processUdp_state]
  refine and_congr_right fun _ => ?_
  cases isUdp (raw.plus etherOffEnd) (rawLen - etherOffEnd) with
  | true => simp
  | false =>
      simp only [Bool.false_eq_true, if_false, true_implies, Proc.emits_bind, emits_loadBytes,
        Proc.emits_emit, Proc.emit_state, loadBytes_value, loadBytes_state]
      rw [and_iff_right (transmits.lwipInput _)]
      exact and_congr_right fun _ => emits_uvlOutputs transmits _ _ sized

/-- Forwarding a packet to a host of the local network. -/
theorem emits_arpGetMacByIp_sendEther {now : Int} {ip : Ip} {s : LanPlay}
    (sized : s.packetCtx.bufferLen = bufferSize)
    (known : (s.packetCtx.arpFind now ip).isSome = true) (part : Payload) :
    (arpGetMacByIp now ip >>= fun found => match found with
      | some dstMac => sendEther dstMac etherTypeIpv4 [part]
      | none => pure 0).Emits Q s ↔ PartOk Q etherHeaderLen part := by
  refine (emits_arpGetMacByIp_bind transmits sized now _ _ (fun _ => ?_) _ fun mac => ?_).trans
    (forall_prop_of_true known)
  · exact Proc.emits_pure _
  · exact emits_sendEther_single transmits sized mac _ _

theorem emits_processIpv4 (env : Env) (ether : EtherFrame) {s : LanPlay}
    (sized : s.packetCtx.bufferLen = bufferSize) :
    (processIpv4 env ether).Emits Q s ↔ (parseIpv4 ether).Emits Q s ∧
      Ipv4Ok Q env (s.learned env.now ether.src (ipv4At ether).src) (ipv4At ether) := by
  unfold processIpv4 Ipv4Ok
  rw [Proc.emits_bind, parseIpv4_value, parseIpv4_state]
  refine and_congr_right fun _ => ?_
  rw [emits_arpSet_bind, Proc.emits_read_bind]
  refine Proc.emits_ite_congr (fun _ => ?_) fun _ => Proc.emits_ite_congr
    (fun _ => Proc.emits_ite_congr (fun _ => ?_) fun _ => ?_) fun _ => ?_
  · rw [Proc.emits_ite]
    refine (and_iff_left fun _ => Proc.emits_pure _).trans ?_
    exact imp_congr_right fun _ => emits_processIcmp transmits env.now _ (by exact sized)
  · rw [Proc.emits_bind]
    exact and_congr (emits_lanClientSendIpv4 transmits _ _ _)
      (emits_sendEther_single transmits (by exact sized) _ _ _)
  · rw [Proc.emits_bind]
    refine (and_iff_right (Proc.emits_bind _ _ |>.mpr ⟨Proc.emits_read, Proc.emits_pure _⟩)).trans ?_
    refine Proc.emits_ite_congr (fun known => ?_) fun _ => ?_
    · exact emits_arpGetMacByIp_sendEther transmits (by exact sized) known _
    · exact emits_lanClientSendIpv4 transmits _ _ _
  · rw [Proc.emits_ite]
    refine (and_iff_left fun _ => Proc.emits_pure _).trans (imp_congr_right fun _ => ?_)
    rw [Proc.emits_bind, and_iff_left (Proc.emits_pure _)]
    exact emits_gatewayOnPacket transmits env _ _ (by exact sized)

theorem emits_arpRequest (now : Int) (arp : Arp) {s : LanPlay}
    (sized : s.packetCtx.bufferLen = bufferSize) : (arpRequest now arp).Emits Q s := by
  unfold arpRequest
  rw [Proc.emits_read_bind]
  dsimp only
  split_ifs
  · exact Proc.emits_pure _
  · exact Proc.emits_pure _
  · rw [arpHasIp, Proc.emits_bind]
    refine ⟨(Proc.emits_read_bind _).mpr (Proc.emits_pure _), ?_⟩
    split
    · exact Proc.emits_pure _
    · exact emits_sendArpEx transmits sized _ _ _ _ _ _
  · exact Proc.emits_pure _

theorem emits_processArp (now : Int) (ether : EtherFrame) {s : LanPlay}
    (sized : s.packetCtx.bufferLen = bufferSize) :
    (processArp now ether).Emits Q s ↔ (parseArp ether).Emits Q s := by
  unfold processArp
  rw [Proc.emits_bind]
  refine and_iff_left ?_
  split
  · exact Proc.emits_pure _
  · rw [emits_arpSet_bind]
    split_ifs
    · exact emits_arpRequest transmits now _ (by exact sized)
    · exact Proc.emits_pure _
    · exact Proc.emits_pure _

theorem emits_processEther (env : Env) (packet : Ptr) (len : Nat) {s : LanPlay}
    (sized : s.packetCtx.bufferLen = bufferSize) :
    (processEther env packet len).Emits Q s ↔ EtherOk Q env s packet len := by
  unfold processEther EtherOk
  rw [Proc.emits_bind, parseEther_value, parseEther_state]
  refine and_congr_right fun _ => ?_
  rw [Proc.emits_read_bind]
  cases cmpMac (etherAt packet len).src s.packetCtx.mac with
  | true => simp
  | false =>
      simp only [Bool.false_eq_true, if_false, true_implies]
      rw [Proc.emits_ite, Proc.emits_ite, emits_processArp transmits _ _ sized,
        emits_processIpv4 transmits _ _ sized, and_iff_left fun _ => Proc.emits_pure _]
      refine and_congr_right fun _ => ⟨fun both ipv4 => ?_, fun both _ ipv4 => both ipv4⟩
      exact both (by rw [ipv4]; decide) ipv4

/-- A captured frame at the start of a region. -/
theorem emits_getPacket (env : Env) (frame : Bytes) {s : LanPlay}
    (sized : s.packetCtx.bufferLen = bufferSize) :
    (getPacket env frame frame.length).Emits Q s ↔
      (frame.length < 65536 →
        EtherOk Q env (s.captured frame.length) ⟨.frame, frame, 0⟩ frame.length) := by
  unfold getPacket
  rw [Proc.emits_ite, and_iff_right fun _ => Proc.emits_pure _, not_le]
  refine imp_congr_right fun _ => ?_
  rw [Proc.emits_update_bind, Proc.emits_bind, and_iff_left (Proc.emits_pure _)]
  exact emits_processEther transmits env _ _ (by exact sized)

end Capture

end SwitchLanPlay
