import SwitchLanPlay.Android.Injection
import SwitchLanPlay.Android.TunParsing

/-!
# What the TUN parser takes for a datagram

The VPN loop reads every packet into one buffer, so that the bytes of earlier packets
lie behind the last one.  `processFromTun` reads ports behind the header that the
packet declares before it compares that header with the length, but it does nothing
with what lies behind the length.  On the other hand it forwards everything up to the
length, whatever the length fields say.  What `buildRawUdpPacket` builds it reads
back.
-/

namespace SwitchLanPlay.Android

open Library

/-! ## Bytes of earlier packets -/

/-- Both arrays have `length` bytes at least, and the first `length` of them agree. -/
def SameFirst (length : Int) (first second : Bytes) : Prop :=
  ∀ index : Nat, index < length → ∃ byte, first[index]? = some byte ∧ second[index]? = some byte

section SameFirst

variable {length : Int} {first second : Bytes} (same : SameFirst length first second)

include same

theorem SameFirst.symm : SameFirst length second first := by
  intro index below
  obtain ⟨byte, inFirst, inSecond⟩ := same index below
  exact ⟨byte, inSecond, inFirst⟩

theorem SameFirst.byteAt (index : Nat) (below : index < length) :
    byteAt first index = Library.byteAt second index := by
  obtain ⟨byte, inFirst, inSecond⟩ := same index below
  simp only [Library.byteAt, List.getD_eq_getElem?_getD, inFirst, inSecond]

theorem SameFirst.le_length : length ≤ first.length := by
  by_contra beyond
  obtain ⟨byte, inFirst, -⟩ := same first.length (by omega)
  rw [List.getElem?_eq_none (Nat.le_refl _)] at inFirst
  cases inFirst

theorem SameFirst.inetAddressAt {offset : Nat} (below : offset + 3 < length) :
    inetAddressAt first offset = Android.inetAddressAt second offset := by
  unfold Android.inetAddressAt
  rw [same.byteAt offset (by omega), same.byteAt (offset + 1) (by omega),
    same.byteAt (offset + 2) (by omega), same.byteAt (offset + 3) (by omega)]

theorem SameFirst.net16At {offset : Nat} (below : offset + 1 < length) :
    net16At first offset = Library.net16At second offset := by
  unfold Library.net16At
  rw [same.byteAt offset (by omega), same.byteAt (offset + 1) (by omega)]

/-- A packet that is accepted in one of the arrays is accepted in the other. -/
theorem Accepted.of_same {gatewayIp : String} (accepted : Accepted gatewayIp first length) :
    Accepted gatewayIp second length ∧
      interceptedAt second length.toNat (ihlAt second) = interceptedAt first length.toNat (ihlAt first) := by
  have long := accepted.long
  have behind := accepted.behindHeaders
  have start : Library.byteAt second 0 = Library.byteAt first 0 := (same.byteAt 0 (by omega)).symm
  have header : ihlAt second = ihlAt first := by
    unfold ihlAt
    rw [start]
  constructor
  · constructor
    case long => exact long
    case inside => exact same.symm.le_length
    case version =>
      rw [start]
      exact accepted.version
    case protocol =>
      rw [← same.byteAt 9 (by omega)]
      exact accepted.protocol
    case destination =>
      rw [← same.inetAddressAt (by omega)]
      exact accepted.destination
    case behindHeaders => rwa [header]
  · rw [header]
    unfold interceptedAt
    rw [same.inetAddressAt (by omega), same.net16At (by omega), same.net16At (by omega)]
    congr 1
    apply slice_congr
    intro index inside
    exact (same.byteAt _ (by omega)).symm

/-- The parser does not tell the two arrays apart. -/
theorem parsePacket_same (roomy : 68 ≤ first.length) (roomy' : 68 ≤ second.length) (gatewayIp : String) :
    parsePacket gatewayIp first length = parsePacket gatewayIp second length := by
  obtain ⟨result, parsed⟩ := parsePacket_returns roomy same.le_length gatewayIp
  obtain ⟨result', parsed'⟩ := parsePacket_returns roomy' same.symm.le_length gatewayIp
  have some_iff (found : Intercepted) : result = some found ↔ result' = some found := by
    rw [← Except.ok.injEq (ε := Thrown) result, ← Except.ok.injEq (ε := Thrown) result', ← parsed, ← parsed',
      parsePacket_eq_some, parsePacket_eq_some]
    constructor
    · rintro ⟨accepted, found⟩
      obtain ⟨accepted', fields⟩ := accepted.of_same same
      exact ⟨accepted', fields.trans found⟩
    · rintro ⟨accepted, found⟩
      obtain ⟨accepted', fields⟩ := accepted.of_same same.symm
      exact ⟨accepted', fields.trans found⟩
  rw [parsed, parsed', Option.ext some_iff]

end SameFirst

/-- `processFromTun` on two buffers of the VPN loop that agree on the bytes read last:
it throws in neither, reads the same packet, and returns and does the same. -/
theorem processPacket_ignores_leftovers (first second : Bytes) (sized : first.length = 32767)
    (sized' : second.length = 32767) (length : Int) (same : SameFirst length first second)
    (answer : Option Nat) (now : Int) (s : Relay) :
    (∃ found, parsePacket (gatewayText s.gatewayIp) first length = .ok found ∧
      parsePacket (gatewayText s.gatewayIp) second length = .ok found) ∧
    (∃ accepted, (processPacket first length answer now s).value = .ok accepted) ∧
    processPacket first length answer now s = processPacket second length answer now s := by
  have equal := parsePacket_same same (by omega) (by omega) (gatewayText s.gatewayIp)
  obtain ⟨found, parsed⟩ := parsePacket_returns (by omega) same.le_length (gatewayText s.gatewayIp)
  refine ⟨⟨found, parsed, equal ▸ parsed⟩, ?_, ?_⟩
  · unfold processPacket
    rw [Proc.read_bind, parsed]
    cases found with
    | none => exact ⟨false, rfl⟩
    | some packet => exact ⟨true, rfl⟩
  · unfold processPacket
    rw [Proc.read_bind, Proc.read_bind, equal]

theorem sameFirst_append (packet first second : Bytes) :
    SameFirst packet.length (packet ++ first) (packet ++ second) := by
  intro index below
  have inside : index < packet.length := by omega
  exact ⟨packet[index], by rw [List.getElem?_append_left inside, List.getElem?_eq_getElem inside],
    by rw [List.getElem?_append_left inside, List.getElem?_eq_getElem inside]⟩

/-- One byte of payload. -/
def smallPacket : Bytes := buildRawUdpPacket gatewayAddress 5000 firstConsole 40000 [7]

theorem processPacket_ignores_leftovers_small :
    processPacket (smallPacket ++ List.replicate 32738 0) smallPacket.length none 0 (.start none) =
      processPacket (smallPacket ++ List.replicate 32738 1) smallPacket.length none 0 (.start none) := by
  have sized (byte : UInt8) : (smallPacket ++ List.replicate 32738 byte).length = 32767 := by
    rw [List.length_append, List.length_replicate]
    rfl
  exact (processPacket_ignores_leftovers _ _ (sized 0) (sized 1) smallPacket.length
    (sameFirst_append _ _ _) none 0 (.start none)).2.2

/-! ## Well-formed datagrams -/

/-- The UDP length field of a packet. -/
def udpLengthAt (packet : Bytes) : Nat := net16At packet (ihlAt packet + 4)

/-- The first `length` bytes are an IPv4 packet, not a later fragment, with a datagram
that fits, and what was read is its ports and its payload. -/
structure ForwardsDatagram (packet : Bytes) (length : Int) (found : Intercepted) : Prop where
  version : (byteAt packet 0).toNat / 16 = 4
  headerLen : 20 ≤ ihlAt packet
  totalLen : net16At packet 2 = length
  firstFragment : net16At packet 6 % 2 ^ 13 = 0
  srcPort : found.srcPort = net16At packet (ihlAt packet)
  dstPort : found.dstPort = net16At packet (ihlAt packet + 2)
  udpLength : 8 ≤ udpLengthAt packet
  fits : ihlAt packet + udpLengthAt packet ≤ length
  payload : found.payload = slice packet (ihlAt packet + 8) (udpLengthAt packet - 8)

theorem Accepted.forwardsDatagram_iff {gatewayIp : String} {packet : Bytes} {length : Int}
    (accepted : Accepted gatewayIp packet length) :
    ForwardsDatagram packet length (interceptedAt packet length.toNat (ihlAt packet)) ↔
      20 ≤ ihlAt packet ∧ net16At packet 2 = length ∧ net16At packet 6 % 2 ^ 13 = 0 ∧
        ihlAt packet + udpLengthAt packet = length := by
  have behind := accepted.behindHeaders
  constructor
  · intro datagram
    have sizes := congrArg List.length datagram.payload
    simp only [interceptedAt, length_slice] at sizes
    have udpLength := datagram.udpLength
    exact ⟨datagram.headerLen, datagram.totalLen, datagram.firstFragment, by omega⟩
  · rintro ⟨headerLen, totalLen, firstFragment, exactly⟩
    have size : length.toNat - (ihlAt packet + 8) = udpLengthAt packet - 8 := by omega
    exact
      { version := accepted.version
        headerLen := headerLen
        totalLen := totalLen
        firstFragment := firstFragment
        srcPort := rfl
        dstPort := rfl
        udpLength := by omega
        fits := by omega
        payload := congrArg (slice packet (ihlAt packet + 8)) size }

/-- `processFromTun` returns true for the packets that it hands on. -/
theorem processPacket_eq_true {packet : Bytes} {length : Int} {answer : Option Nat} {now : Int} {s : Relay} :
    (processPacket packet length answer now s).value = .ok true ↔
      ∃ found, parsePacket (gatewayText s.gatewayIp) packet length = .ok (some found) := by
  unfold processPacket
  rw [Proc.read_bind]
  cases parsePacket (gatewayText s.gatewayIp) packet length with
  | error thrown => exact ⟨nofun, nofun⟩
  | ok result =>
      cases result with
      | none => exact ⟨nofun, nofun⟩
      | some found => exact ⟨fun _ => ⟨found, rfl⟩, fun _ => rfl⟩

/-- A call that returns true forwarded the payload of a well-formed datagram if the
header has at least 20 bytes, the packet is not a later fragment, and both length
fields reach to the end of what was read; otherwise it did not. -/
theorem processPacket_forwards_datagram_iff (packet : Bytes) (length : Int) (answer : Option Nat)
    (now : Int) (s : Relay) :
    ((processPacket packet length answer now s).value = .ok true →
      ∃ found, parsePacket (gatewayText s.gatewayIp) packet length = .ok (some found) ∧
        (processPacket packet length answer now s).events =
          (handleInterceptedPacket found.srcIp found.srcPort found.dstPort found.payload answer now s).events ∧
        ForwardsDatagram packet length found) ↔
    ((processPacket packet length answer now s).value = .ok true →
      20 ≤ ihlAt packet ∧ net16At packet 2 = length ∧ net16At packet 6 % 2 ^ 13 = 0 ∧
        ihlAt packet + udpLengthAt packet = length) := by
  apply forall_congr'
  intro returned
  obtain ⟨found, parsed⟩ := processPacket_eq_true.mp returned
  obtain ⟨accepted, rfl⟩ := parsePacket_eq_some.mp parsed
  rw [← accepted.forwardsDatagram_iff]
  constructor
  · rintro ⟨found, again, -, datagram⟩
    rw [parsed] at again
    cases again
    exact datagram
  · intro datagram
    refine ⟨_, parsed, ?_, datagram⟩
    unfold processPacket
    rw [Proc.read_bind, parsed]
    exact List.append_nil _

theorem processPacket_forwards_datagram_small :
    (processPacket smallPacket 29 none 0 (.start none)).value = .ok true ∧
      ∃ found, parsePacket "" smallPacket 29 = .ok (some found) ∧ ForwardsDatagram smallPacket 29 found := by
  have returned : (processPacket smallPacket 29 none 0 (.start none)).value = .ok true :=
    processPacket_eq_true.mpr ⟨_, parsePacket_eq_some.mpr
      ⟨⟨by decide, by decide, by decide, by decide, by decide, by decide⟩, rfl⟩⟩
  obtain ⟨found, parsed, -, datagram⟩ :=
    (processPacket_forwards_datagram_iff smallPacket 29 none 0 (.start none)).mpr
      (fun _ => ⟨by decide, by decide, by decide, by decide⟩) returned
  exact ⟨returned, found, parsed, datagram⟩

/-- Three bytes of padding follow the datagram, and are forwarded with its payload. -/
theorem processPacket_forwards_padding :
    (processPacket (smallPacket ++ [0, 0, 0]) 32 none 0 (.start none)).value = .ok true ∧
      ∃ found, parsePacket "" (smallPacket ++ [0, 0, 0]) 32 = .ok (some found) ∧
        found.payload = [7, 0, 0, 0] ∧ ¬ ForwardsDatagram (smallPacket ++ [0, 0, 0]) 32 found := by
  have accepted : Accepted "" (smallPacket ++ [0, 0, 0]) 32 :=
    ⟨by decide, by decide, by decide, by decide, by decide, by decide⟩
  refine ⟨processPacket_eq_true.mpr ⟨_, parsePacket_eq_some.mpr ⟨accepted, rfl⟩⟩, _,
    parsePacket_eq_some.mpr ⟨accepted, rfl⟩, by decide, ?_⟩
  rw [accepted.forwardsDatagram_iff]
  decide

/-! ## Packets that the relay builds -/

/-- The sum that skips the word of the checksum is the one with a zero there. -/
theorem calculateChecksum_ipHeader (totalLength : Nat) (srcIp dstIp : InetAddress) :
    calculateChecksum (ipHeader totalLength 0 srcIp dstIp) 0 20 =
      internetChecksum (ipHeader totalLength 0 srcIp dstIp) := by
  have kept : (List.range ((20 + 1) / 2)).filter (fun word => word ≠ 5) = [0, 1, 2, 3, 4, 6, 7, 8, 9] := by
    decide
  have ten : List.range 10 = [0, 1, 2, 3, 4, 5, 6, 7, 8, 9] := by decide
  have skipped : net16At (ipHeader totalLength 0 srcIp dstIp) (0 + 2 * 5) = 0 := rfl
  have all := sum_net16At (ipHeader totalLength 0 srcIp dstIp) 0 10
  have whole : slice (ipHeader totalLength 0 srcIp dstIp) 0 (2 * 10) = ipHeader totalLength 0 srcIp dstIp :=
    slice_full _
  rw [ten, whole] at all
  simp only [List.map_cons, List.map_nil, List.sum_cons, List.sum_nil, skipped, Nat.zero_add] at all
  unfold calculateChecksum
  dsimp only
  rw [kept, internetChecksum_eq, ← all, foldCarry_eq_onesRep]
  simp only [List.map_cons, List.map_nil, List.sum_cons, List.sum_nil, Nat.zero_add]
  rfl

theorem onesSum_builtHeader (totalLength : Nat) (srcIp dstIp : InetAddress) :
    onesSum (wordsOf (ipHeader totalLength
      (calculateChecksum (ipHeader totalLength 0 srcIp dstIp) 0 20) srcIp dstIp)) = 0xFFFF := by
  have layout (checksum : Nat) : ipHeader totalLength checksum srcIp dstIp =
      [0x45, 0] ++ net16 totalLength ++ [0, 0, 0x40, 0, 64, 17] ++ net16 checksum ++
        (srcIp.address ++ dstIp.address) := by
    rw [ipHeader, List.append_assoc]
  rw [calculateChecksum_ipHeader, layout, layout 0]
  apply onesSum_wordsOf_checksum
  simp [net16]

theorem length_buildRawUdpPacket (srcIp : InetAddress) (srcPort : Nat) (dstIp : InetAddress) (dstPort : Nat)
    (payload : Bytes) : (buildRawUdpPacket srcIp srcPort dstIp dstPort payload).length =
      28 + payload.length := by
  obtain ⟨ipChecksum, built⟩ := buildRawUdpPacket_complement srcIp dstIp srcPort dstPort payload
  rw [built, List.length_append]
  rfl

/-- A packet that `buildRawUdpPacket` returns for a payload has a valid IPv4 header and
the real lengths, and `processFromTun` reads from it what was given. -/
theorem buildRawUdpPacket_parses_back (srcIp dstIp : InetAddress) (srcPort dstPort : Nat)
    (srcPortFits : srcPort < 2 ^ 16) (dstPortFits : dstPort < 2 ^ 16) (payload : Bytes)
    (nonempty : 1 ≤ payload.length) (short : payload.length ≤ 65507) :
    let packet := buildRawUdpPacket srcIp srcPort dstIp dstPort payload
    onesSum (wordsOf (packet.take 20)) = 0xFFFF ∧
      net16At packet 2 = packet.length ∧ net16At packet 24 = packet.length - 20 ∧
      ∀ gatewayIp : String, accepts gatewayIp dstIp.hostAddress = true →
        parsePacket gatewayIp packet packet.length = .ok (some ⟨srcIp, srcPort, dstPort, payload⟩) := by
  intro packet
  have size : packet.length = 28 + payload.length := length_buildRawUdpPacket _ _ _ _ _
  have verLen : byteAt packet 0 = 0x45 := rfl
  have header : ihlAt packet = 20 := by
    rw [ihlAt, verLen]
    rfl
  refine ⟨?_, ?_, ?_, ?_⟩
  · exact onesSum_builtHeader (20 + 8 + payload.length) srcIp dstIp
  · refine (net16_toNat (20 + 8 + payload.length)).trans ?_
    omega
  · refine (net16_toNat (8 + payload.length)).trans ?_
    omega
  · intro gatewayIp accepted
    rw [parsePacket_eq_some]
    constructor
    · constructor
      case long => omega
      case inside => exact Int.le_refl _
      case version =>
        rw [verLen]
        rfl
      case protocol => rfl
      case destination => exact accepted
      case behindHeaders => omega
    · have behind : slice packet 28 payload.length = payload :=
        (slice_append_right _ payload payload.length).trans (slice_full payload)
      have source : net16At packet 20 = srcPort := (net16_toNat srcPort).trans (Nat.mod_eq_of_lt srcPortFits)
      have destination : net16At packet 22 = dstPort :=
        (net16_toNat dstPort).trans (Nat.mod_eq_of_lt dstPortFits)
      rw [header, interceptedAt, source, destination, Int.toNat_natCast, size, Nat.add_sub_cancel_left, behind]
      rfl

theorem buildRawUdpPacket_parses_back_small :
    accepts firstConsole.hostAddress firstConsole.hostAddress = true ∧
      parsePacket firstConsole.hostAddress smallPacket smallPacket.length =
        .ok (some ⟨gatewayAddress, 5000, 40000, [7]⟩) := by
  have accepted : accepts firstConsole.hostAddress firstConsole.hostAddress = true := by decide
  exact ⟨accepted, (buildRawUdpPacket_parses_back gatewayAddress firstConsole 5000 40000 (by decide) (by decide)
    [7] (by decide) (by decide)).2.2.2 _ accepted⟩

end SwitchLanPlay.Android
