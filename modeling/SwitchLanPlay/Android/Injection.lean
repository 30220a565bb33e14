import SwitchLanPlay.Android.Replies
import SwitchLanPlay.Library.Checksum

/-!
# The checksums of injected packets

`buildRawUdpPacket` takes the UDP checksum while the place of the payload is still
zero, and copies the payload afterwards.  The checksum holds for the packet that is
returned exactly when the payload adds up to nothing in one's complement.
-/

namespace SwitchLanPlay.Android

open Library

/-! ## Receiving side -/

/-- The pseudo header of RFC 768 that belongs to a packet without IP options. -/
def pseudoHeader (packet : Bytes) : Bytes :=
  slice packet 12 4 ++ slice packet 16 4 ++ [0, byteAt packet 9] ++ slice packet 24 2

/-- The test a receiver makes. -/
def UdpChecksumValid (packet : Bytes) : Prop :=
  onesSum (wordsOf (pseudoHeader packet ++ packet.drop 20)) = 0xFFFF

instance (packet : Bytes) : Decidable (UdpChecksumValid packet) :=
  inferInstanceAs (Decidable (_ = _))

/-! ## The sum of calculateUdpChecksum -/

theorem foldCarry_eq_onesRep (sum : Nat) : foldCarry sum = onesRep sum := by
  fun_induction foldCarry sum with
  | case1 sum small => exact (onesRep_of_le (by omega)).symm
  | case2 sum large ih =>
      rw [ih, onesRep_eq_iff]
      omega

theorem sum_net16At (packet : Bytes) (offset count : Nat) :
    ((List.range count).map fun word => net16At packet (offset + 2 * word)).sum =
      (wordsOf (slice packet offset (2 * count))).sum := by
  induction count generalizing offset with
  | zero => rfl
  | succ count ih =>
      have shifted : ∀ word, offset + 2 * (word + 1) = offset + 2 + 2 * word := by
        intro word
        omega
      rw [sum_wordsOf_succ, ← ih, List.range_succ_eq_map, List.map_cons, List.map_map, List.sum_cons]
      simp only [Function.comp_def, Nat.succ_eq_add_one, shifted, Nat.mul_zero, Nat.add_zero]

/-- The words of the pseudo header as `calculateUdpChecksum` adds them. -/
def pseudoSum (srcIp dstIp : InetAddress) (udpLen : Nat) : Nat :=
  (wordsOf (srcIp.address ++ dstIp.address)).sum + 17 + udpLen

/-- The checksum that belongs to a sum. -/
def udpComplement (sum : Nat) : Nat := if onesRep sum = 0xFFFF then 0xFFFF else 0xFFFF - onesRep sum

theorem calculateUdpChecksum_eq (packet : Bytes) (udpOffset udpLen : Nat) (srcIp dstIp : InetAddress) :
    calculateUdpChecksum packet udpOffset udpLen srcIp dstIp =
      udpComplement (pseudoSum srcIp dstIp udpLen + (wordsOf (slice packet udpOffset udpLen)).sum) := by
  have pseudo : net16At srcIp.address 0 + net16At dstIp.address 0 + net16At srcIp.address 2 +
      net16At dstIp.address 2 + 17 + udpLen = pseudoSum srcIp dstIp udpLen := by
    simp only [pseudoSum, InetAddress.address, List.cons_append, List.nil_append, wordsOf, List.sum_cons,
      List.sum_nil, net16At, byteAt_cons_zero, byteAt_cons_succ]
    omega
  have last : (if udpLen % 2 = 1 then 256 * (byteAt packet (udpOffset + udpLen - 1)).toNat else 0) =
      if udpLen % 2 = 1 then 256 * (byteAt packet (udpOffset + 2 * (udpLen / 2))).toNat else 0 := by
    split
    case isTrue odd =>
      have position : udpOffset + udpLen - 1 = udpOffset + 2 * (udpLen / 2) := by omega
      rw [position]
    case isFalse even => rfl
  have bound := onesRep_le (pseudoSum srcIp dstIp udpLen + (wordsOf (slice packet udpOffset udpLen)).sum)
  unfold calculateUdpChecksum udpComplement
  dsimp only
  rw [pseudo, last, sum_net16At, foldCarry_eq_onesRep, Nat.add_assoc, ← sum_wordsOf_slice]
  split <;> split <;> omega

/-- With its complement, a sum is a multiple of `0xFFFF`. -/
theorem add_udpComplement_mod (sum : Nat) : (sum + udpComplement sum) % 0xFFFF = 0 := by
  unfold udpComplement onesRep
  split <;> split <;> omega

theorem udpComplement_lt (sum : Nat) : udpComplement sum < 65536 := by
  have bound := onesRep_le sum
  unfold udpComplement
  split <;> omega

/-! ## The packet -/

theorem length_ipHeader (totalLength checksum : Nat) (srcIp dstIp : InetAddress) :
    (ipHeader totalLength checksum srcIp dstIp).length = 20 := rfl

theorem wordsOf_udpHeader (srcPort dstPort udpLen checksum : Nat) (text : Bytes) :
    (wordsOf (udpHeader srcPort dstPort udpLen checksum ++ text)).sum =
      srcPort % 65536 + dstPort % 65536 + udpLen % 65536 + checksum % 65536 + (wordsOf text).sum := by
  simp only [udpHeader, net16, List.cons_append, List.nil_append, wordsOf, net16_toNat, List.sum_cons,
    Nat.add_assoc]

section Packet

variable (srcIp dstIp : InetAddress) (srcPort dstPort : Nat)

/-- The sum that `buildRawUdpPacket` has the checksum taken of: the place of the
payload is zero. -/
def headerSum (udpLen : Nat) : Nat :=
  pseudoSum srcIp dstIp udpLen + (srcPort % 65536 + dstPort % 65536 + udpLen % 65536)

theorem buildRawUdpPacket_complement (payload : Bytes) :
    ∃ ipChecksum, buildRawUdpPacket srcIp srcPort dstIp dstPort payload =
      ipHeader (20 + 8 + payload.length) ipChecksum srcIp dstIp ++
        udpHeader srcPort dstPort (8 + payload.length)
          (udpComplement (headerSum srcIp dstIp srcPort dstPort (8 + payload.length))) ++ payload := by
  refine ⟨calculateChecksum (ipHeader (20 + 8 + payload.length) 0 srcIp dstIp) 0 20, ?_⟩
  have size : (udpHeader srcPort dstPort (8 + payload.length) 0 ++ List.replicate payload.length 0).length =
      8 + payload.length := by
    rw [List.length_append, List.length_replicate]
    rfl
  have text (checksum : Nat) :
      slice (ipHeader (20 + 8 + payload.length) checksum srcIp dstIp ++
        udpHeader srcPort dstPort (8 + payload.length) 0 ++ List.replicate payload.length 0) 20
          (8 + payload.length) =
        udpHeader srcPort dstPort (8 + payload.length) 0 ++ List.replicate payload.length 0 := by
    have whole := slice_append_right (ipHeader (20 + 8 + payload.length) checksum srcIp dstIp)
      (udpHeader srcPort dstPort (8 + payload.length) 0 ++ List.replicate payload.length 0)
      (8 + payload.length)
    rw [length_ipHeader, ← List.append_assoc] at whole
    rw [whole]
    exact (congrArg (slice _ 0) size.symm).trans (slice_full _)
  simp only [buildRawUdpPacket, calculateUdpChecksum_eq, text, wordsOf_udpHeader, wordsOf_replicate_zero,
    headerSum, Nat.zero_mod, Nat.add_zero]

theorem wordsOf_received {payload : Bytes} (short : payload.length ≤ 65507) (ipChecksum checksum : Nat) :
    let packet := ipHeader (20 + 8 + payload.length) ipChecksum srcIp dstIp ++
      udpHeader srcPort dstPort (8 + payload.length) checksum ++ payload
    (wordsOf (pseudoHeader packet ++ packet.drop 20)).sum =
      headerSum srcIp dstIp srcPort dstPort (8 + payload.length) + checksum % 65536 +
        (wordsOf payload).sum := by
  intro packet
  have pseudo : pseudoHeader packet =
      srcIp.address ++ dstIp.address ++ [0, 17] ++ net16 (8 + payload.length) := rfl
  have text : packet.drop 20 = udpHeader srcPort dstPort (8 + payload.length) checksum ++ payload := rfl
  have even : (srcIp.address ++ dstIp.address).length % 2 = 0 := by simp [InetAddress.address]
  rw [pseudo, text, List.append_assoc, List.append_assoc, wordsOf_append _ _ even, List.sum_append]
  simp only [net16, List.cons_append, List.nil_append, wordsOf, net16_toNat, List.sum_cons,
    wordsOf_udpHeader, headerSum, pseudoSum]
  have length : (8 + payload.length) % 65536 = 8 + payload.length := by omega
  rw [length]
  have protocol : 256 * (0 : UInt8).toNat + (17 : UInt8).toNat = 17 := rfl
  rw [protocol]
  omega

theorem buildRawUdpPacket_valid {payload : Bytes} (short : payload.length ≤ 65507) :
    UdpChecksumValid (buildRawUdpPacket srcIp srcPort dstIp dstPort payload) ↔
      (wordsOf payload).sum % 0xFFFF = 0 := by
  obtain ⟨ipChecksum, built⟩ := buildRawUdpPacket_complement srcIp dstIp srcPort dstPort payload
  have complement := add_udpComplement_mod (headerSum srcIp dstIp srcPort dstPort (8 + payload.length))
  have positive : 0 < headerSum srcIp dstIp srcPort dstPort (8 + payload.length) := by
    unfold headerSum pseudoSum
    omega
  rw [UdpChecksumValid, onesSum_wordsOf, onesRep_eq_max_iff, built, wordsOf_received _ _ _ _ short,
    Nat.mod_eq_of_lt (udpComplement_lt _)]
  omega

end Packet

/-! ## What the relay injects -/

/-- What reaches the TUN was built around a payload that fits the receive buffer. -/
def RelayEvent.Built : RelayEvent → Prop
  | .tunWrite packet => ∃ srcIp srcPort dstIp dstPort, ∃ payload : Bytes, payload.length ≤ 4096 ∧
      packet = buildRawUdpPacket srcIp srcPort dstIp dstPort payload
  | _ => True

theorem emits_forwardToServer (payload : Bytes) (sourcePort : Nat) (s : Relay) :
    (forwardToServer payload sourcePort).Emits RelayEvent.Built s := by
  unfold forwardToServer
  rw [Proc.emits_read_bind, Proc.emits_ite, Proc.emits_emit]
  exact ⟨fun _ => trivial, fun _ => Proc.emits_pure _⟩

theorem emits_processFromTun (read : TunRead) (answer : Option Nat) (now : Int) (s : Relay) :
    (processFromTun read answer now).Emits RelayEvent.Built s := by
  unfold processFromTun handleInterceptedPacket
  rw [Proc.emits_read_bind]
  cases parseFromTun s.gatewayIp read with
  | none => simp
  | some packet =>
      cases found : s.sockets.lookup packet.dstPort with
      | some managed => simp [found, emits_forwardToServer]
      | none =>
          cases bound : bindPort s.sockets packet.dstPort answer with
          | none => simp [found, bound]
          | some localPort => simp [found, bound, emits_forwardToServer, RelayEvent.Built]

theorem Received.length_payload {received : Received} {payload : Bytes}
    (accepted : received.payload = some payload) : payload.length ≤ 4096 := by
  have within := received.within
  unfold Received.payload at accepted
  split at accepted
  · cases accepted
  · split at accepted
    · cases accepted
    · split at accepted
      · cases accepted
        rw [length_slice]
        omega
      · cases accepted

theorem emits_handleServerPacket (received : Received) (s : Relay) :
    (handleServerPacket received).Emits RelayEvent.Built s := by
  unfold handleServerPacket
  cases accepted : received.payload with
  | none => simp
  | some payload =>
      unfold processFromServer
      rw [Proc.emits_read_bind]
      cases s.managedFor 0 with
      | none => simp
      | some managed =>
          rw [Proc.emits_emit]
          exact ⟨_, _, _, _, payload, Received.length_payload accepted, rfl⟩

theorem emits_closeAll (sockets : List ManagedSocket) (s : Relay) :
    (closeAll sockets).Emits RelayEvent.Built s := by
  induction sockets generalizing s with
  | nil => exact Proc.emits_pure _
  | cons managed rest ih =>
      unfold closeAll
      rw [Proc.emits_emit_bind]
      exact ⟨trivial, ih s⟩

theorem emits_relayStep (input : RelayInput) (s : Relay) :
    (relayStep input).Emits RelayEvent.Built s := by
  cases input with
  | tun read answer now =>
      unfold relayStep
      rw [Proc.emits_bind]
      exact ⟨emits_processFromTun read answer now s, Proc.emits_pure _⟩
  | server received => exact emits_handleServerPacket received s
  | watchdog now =>
      unfold relayStep cleanupIdleSockets
      rw [Proc.emits_read_bind, Proc.emits_bind]
      exact ⟨emits_closeAll _ s, Proc.emits_update _⟩
  | rehash entries => exact Proc.emits_update _
  | connected up => exact Proc.emits_update _

/-- A packet that `buildRawUdpPacket` returns, and in particular one that the relay
injects in any run, passes the test of its receiver when the words of its payload add
up to a multiple of `0xFFFF`, and only then. -/
theorem injected_valid_iff (srcIp dstIp : InetAddress) (srcPort dstPort : Nat) (payload : Bytes)
    (short : payload.length ≤ 65507) :
    (UdpChecksumValid (buildRawUdpPacket srcIp srcPort dstIp dstPort payload) ↔
      (wordsOf payload).sum % 0xFFFF = 0) ∧
    ∀ (start : Relay) (inputs : List RelayInput) (packet : Bytes),
      RelayEvent.tunWrite packet ∈ (Proc.runAll relayStep inputs start).events →
        (UdpChecksumValid packet ↔ (wordsOf (packet.drop 28)).sum % 0xFFFF = 0) := by
  constructor
  · exact buildRawUdpPacket_valid srcIp dstIp srcPort dstPort short
  · intro start inputs packet injected
    have built := (Proc.emits_runAll relayStep RelayEvent.Built inputs start).mpr
      (Proc.along_of_forall (fun s input _ => emits_relayStep input s) start) _ injected
    obtain ⟨srcIp, srcPort, dstIp, dstPort, payload, short, rfl⟩ := built
    have behind : (buildRawUdpPacket srcIp srcPort dstIp dstPort payload).drop 28 = payload := rfl
    rw [behind]
    exact buildRawUdpPacket_valid srcIp dstIp srcPort dstPort (by omega)

/-- A payload that is one word of ones; and an answer that was injected. -/
theorem injected_valid_ones :
    UdpChecksumValid (buildRawUdpPacket gatewayAddress 5000 firstConsole 40000 [0xFF, 0xFF]) ∧
      (UdpChecksumValid (buildRawUdpPacket gatewayAddress 6000 secondConsole 40001 [7]) ↔
        (wordsOf [7]).sum % 0xFFFF = 0) := by
  obtain ⟨built, run⟩ := injected_valid_iff gatewayAddress firstConsole 5000 40000 [0xFF, 0xFF] (by decide)
  constructor
  · exact built.mpr (by decide)
  · have injected : RelayEvent.tunWrite (buildRawUdpPacket gatewayAddress 6000 secondConsole 40001 [7]) ∈
        (Proc.runAll relayStep (bothSend ++ [.server answer]) (.start (some gatewayAddress))).events := by
      decide +kernel
    exact run _ _ _ injected

/-- The answer of the server with the payload 7 is injected with a checksum that is
not its own. -/
theorem injected_invalid :
    RelayEvent.tunWrite (buildRawUdpPacket gatewayAddress 6000 secondConsole 40001 [7]) ∈
        (Proc.runAll relayStep (bothSend ++ [.server answer]) (.start (some gatewayAddress))).events ∧
      ¬ UdpChecksumValid (buildRawUdpPacket gatewayAddress 6000 secondConsole 40001 [7]) := by
  constructor
  · decide +kernel
  · rw [buildRawUdpPacket_valid _ _ _ _ (by decide)]
    decide

end SwitchLanPlay.Android
