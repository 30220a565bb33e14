import Mathlib.Tactic.FinCases
import SwitchLanPlay.Client.Downlink

/-!
# The fragments of a packet

What `lan_client_send` puts on the wire for one IPv4 packet, in closed form,
and what `lan_client_process_frag` reads back from it.
-/

namespace SwitchLanPlay

open Library

/-- The payloads of the datagrams in a trace. -/
def Event.datagram? : Event → Option Bytes
  | .datagram bytes => some bytes
  | _ => none

def datagrams (events : List Event) : List Bytes := events.filterMap Event.datagram?

@[simp] theorem datagrams_append (first second : List Event) :
    datagrams (first ++ second) = datagrams first ++ datagrams second :=
  List.filterMap_append

@[simp] theorem datagrams_nil : datagrams [] = [] := rfl

@[simp] theorem datagrams_singleton (bytes : Bytes) : datagrams [.datagram bytes] = [bytes] := rfl

@[simp] theorem datagrams_loads (chain : List Payload) :
    datagrams (chain.map fun part => Event.load part.ptr.region part.ptr.offset part.len) = [] := by
  simp [datagrams, List.filterMap_map, Function.comp_def, Event.datagram?]

/-- One IPv4 packet, with the `pmtu` and the fragment counter its sender has. -/
structure Transmission where
  pmtu : Int
  fragId : Nat
  packet : Bytes
  deriving DecidableEq

namespace Transmission

variable (t : Transmission)

/-- The uplink the packet is sent on, when no call of `uv_udp_send` fails. -/
def uplink : Uplink := ⟨t.pmtu, t.fragId, fun _ => 0, 0, 0⟩

/-- The datagrams `lan_client_send` emits for the packet. -/
def datagrams : List Bytes :=
  SwitchLanPlay.datagrams
    (lanClientSendIpv4 ⟨.frame, t.packet, 0⟩ t.packet.length t.uplink).events

def parts : Nat := totalPart t.packet.length t.pmtu.toNat

/-- The number of packet bytes in part `k`. -/
def partLen (k : Nat) : Nat := min t.pmtu.toNat (t.packet.length - k * t.pmtu.toNat)

/-- The header before the loop fills in the part and its length. -/
def blankHeader : LanClientFragmentHeader where
  src := octetsAt 4 t.packet ipv4OffSrc
  dst := octetsAt 4 t.packet ipv4OffDst
  id := t.fragId
  part := 0
  totalPart := t.parts
  len := 0
  pmtu := t.pmtu.toNat

def header (k : Nat) : LanClientFragmentHeader :=
  { t.blankHeader with part := k, len := t.partLen k }

/-- The datagram that carries part `k`. -/
def fragment (k : Nat) : Bytes :=
  lanClientTypeIpv4Frag :: ((t.header k).toBytes ++ slice t.packet (k * t.pmtu.toNat) (t.partLen k))

end Transmission

/-! ## The split loop -/

/-- Part `k` exists exactly when it starts before the end of the packet. -/
theorem lt_totalPart_iff {len pmtu : Nat} (positive : 0 < pmtu) (k : Nat) :
    k < totalPart len pmtu ↔ k * pmtu < len := by
  have split := Nat.div_add_mod len pmtu
  have small := Nat.mod_lt len positive
  unfold totalPart
  constructor
  · intro below
    split at below
    · have bound : k * pmtu ≤ len / pmtu * pmtu := Nat.mul_le_mul_right pmtu (by omega)
      rw [Nat.mul_comm (len / pmtu)] at bound
      omega
    · have bound : (k + 1) * pmtu ≤ len / pmtu * pmtu := Nat.mul_le_mul_right pmtu (by omega)
      rw [Nat.mul_comm (len / pmtu), Nat.add_mul] at bound
      omega
  · intro below
    by_contra beyond
    split at beyond
    · have bound : (len / pmtu + 1) * pmtu ≤ k * pmtu := Nat.mul_le_mul_right pmtu (by omega)
      rw [Nat.add_mul, Nat.mul_comm (len / pmtu)] at bound
      omega
    · have bound : len / pmtu * pmtu ≤ k * pmtu := Nat.mul_le_mul_right pmtu (by omega)
      rw [Nat.mul_comm (len / pmtu)] at bound
      omega

section Raw

variable (bufs : List Payload) (uplink : Uplink)

/-- A call of `uv_udp_send` consumes the next of its results. -/
theorem uvUdpSend_outcome (packet : Bytes) :
    uvUdpSend packet uplink =
      ⟨uplink.sendResults 0,
        { uplink with sendResults := fun call => uplink.sendResults (call + 1) },
        if uplink.sendResults 0 = 0 then [.datagram packet] else []⟩ := by
  by_cases sent : uplink.sendResults 0 = 0
  · apply Outcome.ext <;> simp [uvUdpSend, sent]
  · apply Outcome.ext <;> simp [uvUdpSend, sent]

theorem lanClientSendRaw_value (nonempty : (bufs.map Payload.len).sum ≠ 0) :
    (lanClientSendRaw bufs uplink).value = uplink.sendResults 0 := by
  simp [lanClientSendRaw, nonempty, uvUdpSend_outcome]

theorem lanClientSendRaw_sendResults (nonempty : (bufs.map Payload.len).sum ≠ 0) (call : Nat) :
    (lanClientSendRaw bufs uplink).state.sendResults call = uplink.sendResults (call + 1) := by
  simp [lanClientSendRaw, nonempty, uvUdpSend_outcome]

theorem lanClientSendRaw_datagrams (nonempty : (bufs.map Payload.len).sum ≠ 0) :
    datagrams (lanClientSendRaw bufs uplink).events =
      if uplink.sendResults 0 = 0 then [(bufs.map Payload.bytes).flatten] else [] := by
  by_cases sent : uplink.sendResults 0 = 0 <;>
    simp [lanClientSendRaw, nonempty, uvUdpSend_outcome, sent]

end Raw

/-- Part `i` of the packet at `packet`, as the loop sends it. -/
def partDatagram (packet : Ptr) (len pmtu : Nat) (header : LanClientFragmentHeader) (i : Nat) :
    Bytes :=
  lanClientTypeIpv4Frag ::
    ({ header with part := i, len := min pmtu (len - i * pmtu) }.toBytes ++
      slice packet.memory (packet.offset + i * pmtu) (min pmtu (len - i * pmtu)))

/-- The buffers the loop gathers for part `i`. -/
def partBufs (packet : Ptr) (len pmtu : Nat) (header : LanClientFragmentHeader) (i : Nat) :
    List Payload :=
  [.ofBytes [lanClientTypeIpv4Frag],
    .ofBytes { header with part := i, len := min pmtu (len - i * pmtu) }.toBytes,
    ⟨packet.plus (i * pmtu), min pmtu (len - i * pmtu)⟩]

section Loop

variable (packet : Ptr) (len pmtu : Nat) (header : LanClientFragmentHeader) (i : Nat)

theorem partBufs_nonempty : ((partBufs packet len pmtu header i).map Payload.len).sum ≠ 0 := by
  simp [partBufs]

theorem partBufs_bytes :
    ((partBufs packet len pmtu header i).map Payload.bytes).flatten =
      partDatagram packet len pmtu header i := by
  simp [partBufs, partDatagram, Ptr.plus]

variable (positive : 0 < pmtu)

/-- The loop ends behind the last part. -/
theorem sendParts_last (last : totalPart len pmtu ≤ i) :
    sendParts packet len pmtu positive header i (min (i * pmtu) len) = pure 0 := by
  have beyond : ¬ i < totalPart len pmtu := by omega
  rw [lt_totalPart_iff positive] at beyond
  rw [sendParts, dif_neg (by omega)]

/-- One round of the loop. -/
theorem sendParts_next (inside : i < totalPart len pmtu) :
    sendParts packet len pmtu positive header i (min (i * pmtu) len) =
      (lanClientSendRaw (partBufs packet len pmtu header i) >>= fun ret =>
        if ret ≠ 0 then pure ret
        else sendParts packet len pmtu positive header (i + 1) (min ((i + 1) * pmtu) len)) := by
  rw [lt_totalPart_iff positive] at inside
  have start : min (i * pmtu) len = i * pmtu := by omega
  have advance : i * pmtu + min pmtu (len - i * pmtu) = min ((i + 1) * pmtu) len := by
    rw [Nat.add_mul]
    omega
  rw [start, sendParts, dif_pos inside, ← advance]
  rfl

end Loop

/-- The loop emits the parts in order, up to the first call of `uv_udp_send`
that fails. -/
theorem sendParts_datagrams (packet : Ptr) (len pmtu : Nat) (positive : 0 < pmtu)
    (header : LanClientFragmentHeader) (rest : Nat) :
    ∀ (i : Nat) (uplink : Uplink), rest = totalPart len pmtu - i →
      ∃ count,
        datagrams (sendParts packet len pmtu positive header i (min (i * pmtu) len) uplink).events =
          ((List.range' i rest).map (partDatagram packet len pmtu header)).take count ∧
        ((∀ call, uplink.sendResults call = 0) → rest ≤ count) := by
  induction rest with
  | zero =>
      intro i uplink last
      refine ⟨0, ?_, fun _ => Nat.le_refl 0⟩
      rw [sendParts_last packet len pmtu header i positive (by omega)]
      rfl
  | succ rest ih =>
      intro i uplink more
      have nonempty := partBufs_nonempty packet len pmtu header i
      have shifted := lanClientSendRaw_sendResults _ uplink nonempty
      rw [sendParts_next packet len pmtu header i positive (by omega), Proc.bind_events,
        datagrams_append, lanClientSendRaw_datagrams _ uplink nonempty, partBufs_bytes,
        lanClientSendRaw_value _ uplink nonempty, List.range'_succ]
      by_cases sent : uplink.sendResults 0 = 0
      · obtain ⟨count, emitted, all⟩ :=
          ih (i + 1) (lanClientSendRaw (partBufs packet len pmtu header i) uplink).state (by omega)
        refine ⟨count + 1, ?_, ?_⟩
        · simp [sent, emitted]
        · intro zero
          have bound := all fun call => (shifted call).trans (zero (call + 1))
          omega
      · refine ⟨0, by simp [sent], ?_⟩
        intro zero
        exact absurd (zero 0) sent

theorem lanClientSendRaw_keeps (bufs : List Payload) (uplink : Uplink) :
    (lanClientSendRaw bufs uplink).state.pmtu = uplink.pmtu ∧
      (lanClientSendRaw bufs uplink).state.fragId = uplink.fragId := by
  by_cases empty : (bufs.map Payload.len).sum = 0 <;>
    simp [lanClientSendRaw, empty, uvUdpSend_outcome]

theorem lanClientSendRaw_succeeding (bufs : List Payload) (uplink : Uplink)
    (succeeding : ∀ call, uplink.sendResults call = 0) :
    ∀ call, (lanClientSendRaw bufs uplink).state.sendResults call = 0 := by
  intro call
  by_cases empty : (bufs.map Payload.len).sum = 0
  · simp [lanClientSendRaw, empty, succeeding]
  · rw [lanClientSendRaw_sendResults bufs uplink empty]
    exact succeeding (call + 1)

/-- What every datagram preserves of the uplink, the loop preserves. -/
theorem sendParts_preserves (Inv : Uplink → Prop)
    (raw : ∀ bufs uplink, Inv uplink → Inv (lanClientSendRaw bufs uplink).state)
    (packet : Ptr) (len pmtu : Nat) (positive : 0 < pmtu) (header : LanClientFragmentHeader)
    (i pos : Nat) (uplink : Uplink) (holds : Inv uplink) :
    Inv (sendParts packet len pmtu positive header i pos uplink).state := by
  induction size : len - pos using Nat.strong_induction_on generalizing i pos uplink with
  | _ gap ih =>
      rw [sendParts]
      split
      · rename_i more
        simp only [Proc.bind_state]
        split
        · exact raw _ uplink holds
        · have smaller : len - (pos + min pmtu (len - pos)) < gap := by omega
          exact ih _ smaller (i + 1) _ _ (raw _ uplink holds) rfl
      · exact holds

namespace Transmission

/-- The packet is longer than the `pmtu` of its sender. -/
def Fragmented (t : Transmission) : Prop := 0 < t.pmtu ∧ 1 < t.parts

instance (t : Transmission) : Decidable t.Fragmented := inferInstanceAs (Decidable (_ ∧ _))

theorem partDatagram_eq_fragment (t : Transmission) (k : Nat) :
    partDatagram ⟨.frame, t.packet, 0⟩ t.packet.length t.pmtu.toNat t.blankHeader k =
      t.fragment k := by
  simp [partDatagram, fragment, header, partLen]

end Transmission

/-- The transmission that sending `packet` on an uplink amounts to. -/
def Uplink.transmission (uplink : Uplink) (packet : Bytes) : Transmission :=
  ⟨uplink.pmtu, uplink.fragId, packet⟩

section Send

variable (uplink : Uplink) (packet : Bytes)

/-- A packet longer than the `pmtu` leaves as its fragments, in order, up to
the first failing call of `uv_udp_send`. -/
theorem lanClientSendIpv4_fragmented (fragmented : (uplink.transmission packet).Fragmented) :
    ∃ count,
      datagrams (lanClientSendIpv4 ⟨.frame, packet, 0⟩ packet.length uplink).events =
        ((List.range (uplink.transmission packet).parts).map
          (uplink.transmission packet).fragment).take count ∧
      ((∀ call, uplink.sendResults call = 0) → (uplink.transmission packet).parts ≤ count) := by
  obtain ⟨positive, many⟩ := fragmented
  have taken : lanClientTypeIpv4 = lanClientTypeIpv4 ∧ 0 < uplink.pmtu ∧
      1 < totalPart packet.length uplink.pmtu.toNat := ⟨rfl, positive, many⟩
  obtain ⟨count, emitted, all⟩ := sendParts_datagrams ⟨.frame, packet, 0⟩ packet.length
    uplink.pmtu.toNat (by omega) (uplink.transmission packet).blankHeader _ 0
    { uplink with fragId := (uplink.fragId + 1) % 2 ^ 32 } rfl
  rw [Nat.zero_mul, Nat.zero_min, Nat.sub_zero, ← List.range_eq_range'] at emitted
  refine ⟨count, ?_, all⟩
  have shape := funext (uplink.transmission packet).partDatagram_eq_fragment
  unfold lanClientSendIpv4 lanClientSend
  rw [Proc.bind_events, Proc.read_events, Proc.read_value, Proc.read_state, dif_pos taken]
  rw [← shape]
  exact emitted

/-- Any other packet leaves as one datagram that is not a fragment. -/
theorem lanClientSendIpv4_plain (whole : ¬ (uplink.transmission packet).Fragmented) :
    ∀ datagram ∈ datagrams (lanClientSendIpv4 ⟨.frame, packet, 0⟩ packet.length uplink).events,
      datagram = lanClientTypeIpv4 :: packet := by
  have skipped : ¬ (lanClientTypeIpv4 = lanClientTypeIpv4 ∧ 0 < uplink.pmtu ∧
      1 < totalPart packet.length uplink.pmtu.toNat) := fun taken => whole taken.2
  intro datagram member
  unfold lanClientSendIpv4 lanClientSend at member
  rw [Proc.bind_events, Proc.read_events, Proc.read_value, Proc.read_state, dif_neg skipped,
    List.nil_append, lanClientSendRaw_datagrams _ _ (by simp)] at member
  split at member
  · simpa [slice_full] using member
  · cases member

theorem lanClientSendIpv4_preserves (Inv : Uplink → Prop)
    (raw : ∀ bufs uplink, Inv uplink → Inv (lanClientSendRaw bufs uplink).state)
    (holds : Inv (if (uplink.transmission packet).Fragmented then
      { uplink with fragId := (uplink.fragId + 1) % 2 ^ 32 } else uplink)) :
    Inv (lanClientSendIpv4 ⟨.frame, packet, 0⟩ packet.length uplink).state := by
  unfold lanClientSendIpv4 lanClientSend
  rw [Proc.bind_state, Proc.read_value, Proc.read_state]
  by_cases fragmented : (uplink.transmission packet).Fragmented
  · rw [if_pos fragmented] at holds
    rw [dif_pos ⟨rfl, fragmented⟩]
    exact sendParts_preserves Inv raw _ _ _ _ _ _ _ _ holds
  · rw [if_neg fragmented] at holds
    rw [dif_neg fun taken => fragmented taken.2]
    exact raw _ uplink holds

/-- The counter advances with each packet that leaves in fragments. -/
theorem lanClientSendIpv4_keeps :
    (lanClientSendIpv4 ⟨.frame, packet, 0⟩ packet.length uplink).state.pmtu = uplink.pmtu ∧
      (lanClientSendIpv4 ⟨.frame, packet, 0⟩ packet.length uplink).state.fragId =
        if (uplink.transmission packet).Fragmented then (uplink.fragId + 1) % 2 ^ 32
        else uplink.fragId := by
  refine lanClientSendIpv4_preserves uplink packet
    (fun after => after.pmtu = uplink.pmtu ∧ after.fragId =
      if (uplink.transmission packet).Fragmented then (uplink.fragId + 1) % 2 ^ 32
      else uplink.fragId) ?_ (by split <;> exact ⟨rfl, rfl⟩)
  intro bufs before holds
  obtain ⟨pmtu, fragId⟩ := lanClientSendRaw_keeps bufs before
  exact ⟨pmtu.trans holds.1, fragId.trans holds.2⟩

theorem lanClientSendIpv4_succeeding (succeeding : ∀ call, uplink.sendResults call = 0) :
    ∀ call, (lanClientSendIpv4 ⟨.frame, packet, 0⟩ packet.length uplink).state.sendResults call = 0 :=
  lanClientSendIpv4_preserves uplink packet (fun after => ∀ call, after.sendResults call = 0)
    lanClientSendRaw_succeeding (by split <;> exact succeeding)

end Send

/-! ## Reading a fragment back -/

theorem LanClientFragmentHeader.length_toBytes (header : LanClientFragmentHeader) :
    header.toBytes.length = lcFragHeaderLen := by
  simp [toBytes, net16]

/-- The fields of a header read back modulo their widths on the wire. -/
theorem headerAt_toBytes (type : UInt8) (header : LanClientFragmentHeader) (rest : Bytes) :
    headerAt (type :: (header.toBytes ++ rest)) 1 =
      { header with
        id := header.id % 65536
        part := header.part % 256
        totalPart := header.totalPart % 256
        len := header.len % 65536
        pmtu := header.pmtu % 65536 } := by
  obtain ⟨src, dst, id, part, totalPart, len, pmtu⟩ := header
  have bytes : type :: (LanClientFragmentHeader.toBytes
      ⟨src, dst, id, part, totalPart, len, pmtu⟩ ++ rest) =
      type :: src 0 :: src 1 :: src 2 :: src 3 :: dst 0 :: dst 1 :: dst 2 :: dst 3 ::
        UInt8.ofNat (id / 256) :: UInt8.ofNat id :: UInt8.ofNat part :: UInt8.ofNat totalPart ::
        UInt8.ofNat (len / 256) :: UInt8.ofNat len ::
        UInt8.ofNat (pmtu / 256) :: UInt8.ofNat pmtu :: rest := by
    simp [LanClientFragmentHeader.toBytes, net16, List.ofFn_succ]
  rw [bytes]
  simp only [headerAt, LanClientFragmentHeader.mk.injEq]
  refine ⟨?_, ?_, ?_, ?_, ?_, ?_, ?_⟩
  · funext index
    fin_cases index <;> rfl
  · funext index
    fin_cases index <;> rfl
  · change 256 * (UInt8.ofNat (id / 256)).toNat + (UInt8.ofNat id).toNat = _
    exact net16_toNat id
  · exact UInt8.toNat_ofNat'
  · exact UInt8.toNat_ofNat'
  · change 256 * (UInt8.ofNat (len / 256)).toNat + (UInt8.ofNat len).toNat = _
    exact net16_toNat len
  · change 256 * (UInt8.ofNat (pmtu / 256)).toNat + (UInt8.ofNat pmtu).toNat = _
    exact net16_toNat pmtu

namespace Transmission

variable {t : Transmission}

/-- The senders in question: `lan_client_init` refuses a smaller `pmtu`, and no
packet is longer than the MTU of the network it was captured on. -/
structure WellFormed (t : Transmission) : Prop where
  pmtu : (minFragPayloadLen : Int) ≤ t.pmtu
  length : t.packet.length ≤ etherMtu

instance (t : Transmission) : Decidable t.WellFormed :=
  decidable_of_iff (_ ∧ _) ⟨fun both => ⟨both.1, both.2⟩, fun wf => ⟨wf.pmtu, wf.length⟩⟩

/-- A client that gets through `lan_client_init` and splits its packets at all is such a sender. -/
theorem wellFormed_of_lanPlayInit {pmtu : Int} {username : Option Bytes} {key : Octets 20}
    {sendResults : Nat → Int} {s : LanPlay} (started : lanPlayInit pmtu username key sendResults = some s)
    (splits : s.uplink.pmtu ≠ 0) (own : t.pmtu = s.uplink.pmtu) (length : t.packet.length ≤ etherMtu) :
    t.WellFormed := by
  rw [lanPlayInit, Option.ite_none_left_eq_some] at started
  obtain ⟨large, same⟩ := started
  cases same
  refine ⟨?_, length⟩
  rw [own]
  exact Int.not_lt.mp fun small => large ⟨splits, small⟩

/-- What identifies a packet on the wire: its source and the 16-bit id. -/
def key (t : Transmission) : Ip × Nat := (octetsAt 4 t.packet ipv4OffSrc, t.fragId % 65536)

/-- The header the receiver reads from part `k`. -/
def wireHeader (t : Transmission) (k : Nat) : LanClientFragmentHeader :=
  { t.header k with id := t.fragId % 65536 }

/-- The packet bytes in part `k`. -/
def chunk (t : Transmission) (k : Nat) : Bytes := slice t.packet (k * t.pmtu.toNat) (t.partLen k)

theorem WellFormed.positive (wf : t.WellFormed) : 0 < t.pmtu.toNat := by
  have bound : (500 : Int) ≤ t.pmtu := wf.pmtu
  omega

theorem WellFormed.lt_parts_iff (wf : t.WellFormed) (k : Nat) :
    k < t.parts ↔ k * t.pmtu.toNat < t.packet.length :=
  lt_totalPart_iff wf.positive k

theorem WellFormed.fragmented_iff (wf : t.WellFormed) :
    t.Fragmented ↔ t.pmtu.toNat < t.packet.length := by
  have positive := wf.positive
  have second := wf.lt_parts_iff 1
  rw [Nat.one_mul] at second
  rw [← second]
  exact ⟨fun fragmented => fragmented.2, fun many => ⟨by omega, many⟩⟩

theorem WellFormed.parts_le (wf : t.WellFormed) : t.parts ≤ 3 := by
  by_contra many
  have fourth := (wf.lt_parts_iff 3).mp (by omega)
  have pmtuBound : (500 : Int) ≤ t.pmtu := wf.pmtu
  have lengthBound : t.packet.length ≤ 1500 := wf.length
  omega

theorem WellFormed.parts_eq_two (wf : t.WellFormed) (long : t.pmtu.toNat < t.packet.length)
    (short : t.packet.length ≤ 2 * t.pmtu.toNat) : t.parts = 2 := by
  have second := (wf.lt_parts_iff 1).mpr (by omega)
  have third := mt (wf.lt_parts_iff 2).mp (by omega)
  omega

theorem datagrams_of_fragmented (fragmented : t.Fragmented) :
    t.datagrams = (List.range t.parts).map t.fragment := by
  obtain ⟨count, emitted, all⟩ := lanClientSendIpv4_fragmented t.uplink t.packet fragmented
  have enough := all fun _ => rfl
  rw [List.take_of_length_le (by simpa using enough)] at emitted
  exact emitted

theorem eq_plain_of_mem_datagrams (whole : ¬ t.Fragmented) {datagram : Bytes}
    (member : datagram ∈ t.datagrams) : datagram = lanClientTypeIpv4 :: t.packet :=
  lanClientSendIpv4_plain t.uplink t.packet whole datagram member

theorem partLen_le (t : Transmission) (k : Nat) : t.partLen k ≤ t.pmtu.toNat :=
  Nat.min_le_left _ _

theorem length_fragment (t : Transmission) (k : Nat) :
    (t.fragment k).length = 1 + lcFragHeaderLen + t.partLen k := by
  simp [fragment, LanClientFragmentHeader.length_toBytes]
  omega

/-- The receiver reads the fields as the sender wrote them, but for the
fragment counter, of which only 16 bits are sent. -/
theorem headerAt_fragment (wf : t.WellFormed) {k : Nat} (fragmented : t.Fragmented)
    (inside : k < t.parts) (stale : Bytes) :
    headerAt (t.fragment k ++ stale) 1 = t.wireHeader k := by
  have few := wf.parts_le
  have short := wf.fragmented_iff.mp fragmented
  have lengthBound : t.packet.length ≤ 1500 := wf.length
  have partBound := t.partLen_le k
  have read := headerAt_toBytes lanClientTypeIpv4Frag (t.header k)
    (slice t.packet (k * t.pmtu.toNat) (t.partLen k) ++ stale)
  rw [fragment, List.cons_append, List.append_assoc, read]
  simp only [wireHeader, header, blankHeader, LanClientFragmentHeader.mk.injEq, true_and]
  refine ⟨?_, ?_, ?_, ?_⟩ <;> apply Nat.mod_eq_of_lt <;> omega

theorem slice_fragment (t : Transmission) (k : Nat) (stale : Bytes) :
    slice (t.fragment k ++ stale) (1 + lcFragHeaderLen) (t.partLen k) = t.chunk k := by
  have start : (lanClientTypeIpv4Frag :: (t.header k).toBytes).length = 1 + lcFragHeaderLen := by
    rw [List.length_cons, LanClientFragmentHeader.length_toBytes, Nat.add_comm]
  have split : t.fragment k ++ stale =
      (lanClientTypeIpv4Frag :: (t.header k).toBytes) ++ (t.chunk k ++ stale) := by
    simp [fragment, chunk]
  rw [split, ← start, slice_append_right]
  have size : (t.chunk k).length = t.partLen k := length_slice _ _ _
  rw [← size]
  conv_rhs => rw [← slice_full (t.chunk k)]
  exact slice_congr fun index below => byteAt_append_left _ _ _ (by omega)

/-- Every part ends inside the packet, and so inside a slot. -/
theorem WellFormed.chunk_fits (wf : t.WellFormed) {k : Nat} (inside : k < t.parts) :
    t.pmtu.toNat * k + (t.chunk k).length ≤ etherMtu := by
  have starts := (wf.lt_parts_iff k).mp inside
  have ends : t.partLen k ≤ t.packet.length - k * t.pmtu.toNat := Nat.min_le_right _ _
  have size : (t.chunk k).length = t.partLen k := length_slice _ _ _
  have lengthBound := wf.length
  rw [size, Nat.mul_comm]
  omega

end Transmission

/-! ## Packets to run the code on -/

/-- A packet of 1000 bytes: zeros, then ones. -/
def stepPacket (zeros : Nat) : Bytes := List.replicate zeros 0 ++ List.replicate (1000 - zeros) 1

def stepTransmission (fragId zeros : Nat) : Transmission := ⟨500, fragId, stepPacket zeros⟩

section Samples

variable {zeros : Nat} (within : zeros ≤ 1000)

include within

theorem length_stepPacket : (stepPacket zeros).length = 1000 := by
  simp [stepPacket]
  omega

theorem byteAt_stepPacket {offset : Nat} (inside : offset < 1000) :
    byteAt (stepPacket zeros) offset = if offset < zeros then 0 else 1 := by
  unfold stepPacket
  by_cases early : offset < zeros
  · rw [if_pos early, byteAt_append_left _ _ _ (by simpa using early), byteAt_replicate _ _ _ early]
  · have late := byteAt_append_right (List.replicate zeros 0) (List.replicate (1000 - zeros) 1)
      (offset - zeros)
    rw [List.length_replicate, Nat.add_sub_cancel' (Nat.le_of_not_lt early)] at late
    rw [if_neg early, late, byteAt_replicate _ _ _ (by omega)]

theorem stepPacket_ne {other offset : Nat} (otherWithin : other ≤ 1000) (inside : offset < 1000)
    (zero : offset < zeros) (one : ¬ offset < other) : stepPacket zeros ≠ stepPacket other := by
  intro same
  have bytes := byteAt_stepPacket within inside
  rw [same, byteAt_stepPacket otherWithin inside, if_pos zero, if_neg one] at bytes
  cases bytes

theorem stepTransmission_wellFormed (fragId : Nat) : (stepTransmission fragId zeros).WellFormed := by
  refine ⟨(by decide : (500 : Int) ≤ 500), ?_⟩
  change (stepPacket zeros).length ≤ 1500
  rw [length_stepPacket within]
  decide

theorem stepTransmission_parts (fragId : Nat) : (stepTransmission fragId zeros).parts = 2 := by
  have length : (stepTransmission fragId zeros).packet.length = 1000 := length_stepPacket within
  refine (stepTransmission_wellFormed within fragId).parts_eq_two ?_ ?_
  · rw [length]
    exact (by decide : (500 : Int).toNat < 1000)
  · rw [length]
    exact (by decide : 1000 ≤ 2 * (500 : Int).toNat)

theorem stepTransmission_partLen (fragId : Nat) {k : Nat} (part : k < 2) :
    (stepTransmission fragId zeros).partLen k = 500 := by
  have length := length_stepPacket within
  change min 500 ((stepPacket zeros).length - k * 500) = 500
  omega

theorem stepTransmission_fragmented (fragId : Nat) : (stepTransmission fragId zeros).Fragmented := by
  refine ⟨(by decide : (0 : Int) < 500), ?_⟩
  rw [stepTransmission_parts within]
  decide

end Samples

end SwitchLanPlay
