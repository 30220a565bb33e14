import SwitchLanPlay.Client.ExactDelivery

/-!
# The fragment id wraps

One sender and one receiver over a network that drops datagrams but keeps
their order.  The sender's counter goes on forever, the wire carries 16 bits
of it, and an incomplete slot has no timeout: 65536 packets later its key
comes round again.  Reassembly is right as long as the first fragment
that arrives of a packet meets no slot left over under its key.
-/

namespace SwitchLanPlay

open Library SlotTable

/-! ## A sender -/

/-- A datagram on its way, with the packet that it is a part of. -/
structure Emission where
  index : Nat
  source : Transmission
  datagram : Bytes

/-- The datagrams `lan_client_send_ipv4` emits for one packet after the other;
`index` counts the packets. -/
def emissions : Nat → Uplink → List Bytes → List Emission
  | _, _, [] => []
  | index, uplink, packet :: rest =>
      let sent := lanClientSendIpv4 ⟨.frame, packet, 0⟩ packet.length uplink
      (datagrams sent.events).map (fun datagram => ⟨index, uplink.transmission packet, datagram⟩) ++
        emissions (index + 1) sent.state rest

/-- The uplink after the packets. -/
def Uplink.after : Uplink → List Bytes → Uplink
  | uplink, [] => uplink
  | uplink, packet :: rest =>
      (lanClientSendIpv4 ⟨.frame, packet, 0⟩ packet.length uplink).state.after rest

theorem emissions_append (index : Nat) (uplink : Uplink) (first second : List Bytes) :
    emissions index uplink (first ++ second) =
      emissions index uplink first ++
        emissions (index + first.length) (uplink.after first) second := by
  induction first generalizing index uplink with
  | nil => rfl
  | cons packet rest ih =>
      simp only [List.cons_append, emissions, Uplink.after, ih, List.append_assoc, List.length_cons]
      rw [Nat.add_assoc, Nat.add_comm 1]

/-- Where the counter is after packets that all leave in fragments. -/
theorem Uplink.after_fragmented (packets : List Bytes) :
    ∀ uplink : Uplink, uplink.fragId < 2 ^ 32 →
      (∀ packet ∈ packets, ∀ fragId, (⟨uplink.pmtu, fragId, packet⟩ : Transmission).Fragmented) →
        (uplink.after packets).pmtu = uplink.pmtu ∧
          (uplink.after packets).fragId = (uplink.fragId + packets.length) % 2 ^ 32 := by
  induction packets with
  | nil => exact fun _ bound _ => ⟨rfl, (Nat.mod_eq_of_lt bound).symm⟩
  | cons packet rest ih =>
      intro uplink bound fragmented
      have now : (uplink.transmission packet).Fragmented :=
        fragmented packet List.mem_cons_self uplink.fragId
      have keeps := lanClientSendIpv4_keeps uplink packet
      rw [if_pos now] at keeps
      obtain ⟨pmtu, fragId⟩ := ih _ (by rw [keeps.2]; exact Nat.mod_lt _ (by decide))
        fun other member => keeps.1 ▸ fragmented other (List.mem_cons_of_mem _ member)
      refine ⟨pmtu.trans keeps.1, fragId.trans ?_⟩
      rw [keeps.2, List.length_cons]
      omega

theorem Uplink.after_succeeding (packets : List Bytes) :
    ∀ {uplink : Uplink}, (∀ call, uplink.sendResults call = 0) →
      ∀ call, (uplink.after packets).sendResults call = 0 := by
  induction packets with
  | nil => exact fun succeeding => succeeding
  | cons packet rest ih =>
      exact fun succeeding => ih (lanClientSendIpv4_succeeding _ packet succeeding)

theorem lanClientSendIpv4_carries (uplink : Uplink) (packet : Bytes) :
    ∀ datagram ∈ datagrams (lanClientSendIpv4 ⟨.frame, packet, 0⟩ packet.length uplink).events,
      (uplink.transmission packet).Carries datagram := by
  intro datagram member
  by_cases fragmented : (uplink.transmission packet).Fragmented
  · obtain ⟨count, emitted, _⟩ := lanClientSendIpv4_fragmented uplink packet fragmented
    rw [emitted] at member
    obtain ⟨k, below, same⟩ := List.mem_map.mp (List.mem_of_mem_take member)
    exact Or.inl ⟨fragmented, k, List.mem_range.mp below, same.symm⟩
  · exact Or.inr ⟨fragmented, lanClientSendIpv4_plain uplink packet fragmented datagram member⟩

theorem mem_emissions {packets : List Bytes} :
    ∀ {index : Nat} {uplink : Uplink} {emission : Emission},
      emission ∈ emissions index uplink packets →
        index ≤ emission.index ∧ emission.source.pmtu = uplink.pmtu ∧
          emission.source.packet ∈ packets ∧ emission.source.Carries emission.datagram := by
  induction packets with
  | nil =>
      intro index uplink emission member
      cases member
  | cons packet rest ih =>
      intro index uplink emission member
      rcases List.mem_append.mp member with now | later
      · obtain ⟨datagram, sent, rfl⟩ := List.mem_map.mp now
        exact ⟨le_refl _, rfl, List.mem_cons_self, lanClientSendIpv4_carries uplink packet _ sent⟩
      · obtain ⟨beyond, pmtu, member, carries⟩ := ih later
        rw [(lanClientSendIpv4_keeps uplink packet).1] at pmtu
        exact ⟨Nat.le_of_succ_le beyond, pmtu, List.mem_cons_of_mem _ member, carries⟩

/-- The datagrams leave packet by packet. -/
def InOrder (earlier later : Emission) : Prop :=
  earlier.index ≤ later.index ∧ (earlier.index = later.index → earlier.source = later.source)

theorem emissions_inOrder (packets : List Bytes) :
    ∀ (index : Nat) (uplink : Uplink), (emissions index uplink packets).Pairwise InOrder := by
  induction packets with
  | nil => exact fun _ _ => List.Pairwise.nil
  | cons packet rest ih =>
      intro index uplink
      refine List.pairwise_append.mpr ⟨?_, ih _ _, ?_⟩
      · rw [List.pairwise_map]
        exact List.pairwise_of_forall fun _ _ => ⟨le_refl _, fun _ => rfl⟩
      · intro earlier now later member
        obtain ⟨datagram, _, rfl⟩ := List.mem_map.mp now
        have beyond := (mem_emissions member).1
        exact ⟨by change index ≤ _; omega, fun same => by change index = _ at same; omega⟩

/-! ## A receiver behind a network that only drops -/

def receiveEmissions (arrivals : List (Env × Emission)) : Proc LanPlay Event Unit :=
  Proc.runAll (fun arrival => receive arrival.1 arrival.2.datagram) arrivals

theorem Reassembly.Advance.agrees {table : Reassembly} {t : Transmission} {k : Nat}
    {outcome : Reassembly × Option (Bytes × Nat)} (advance : table.Advance t k outcome)
    (agree : table.Agrees t) : outcome.1.Agrees t := by
  refine advance.forall_slots (fun slot => slot.KeyedTo t → slot.Holds t) agree
    (fun slot holds _ => holds) ?_
  intro slot unused keyed
  rw [keyed.1] at unused
  cases unused

/-- When the first fragment of a packet arrives, no slot is left in use under
the packet's source and id. -/
def KeysReleased (s : LanPlay) (arrivals : List (Env × Emission)) : Prop :=
  ∀ done arrival, done ++ [arrival] <+: arrivals → arrival.2.source.Fragmented →
    (∀ earlier ∈ done, earlier.2.index ≠ arrival.2.index) →
      ∀ i, ¬ ((receiveEmissions done s).state.reassembly.frags i).KeyedTo arrival.2.source

/-- The slots keyed like the packet seen last belong to it. -/
def LatestAgrees (done : List (Env × Emission)) (table : Reassembly) : Prop :=
  ∀ latest ∈ done, (∀ earlier ∈ done, earlier.2.index ≤ latest.2.index) →
    latest.2.source.Fragmented → table.Agrees latest.2.source

section Arrival

variable {s : LanPlay} {done : List (Env × Emission)} {arrival : Env × Emission}
  (ordered : (done ++ [arrival]).Pairwise fun earlier later => InOrder earlier.2 later.2)

include ordered

/-- A packet that has a datagram among those received, and arrives again, is
the latest. -/
theorem agrees_of_latest {table : Reassembly} (latest : LatestAgrees done table)
    (released : (∀ earlier ∈ done, earlier.2.index ≠ arrival.2.index) →
      ∀ i, ¬ (table.frags i).KeyedTo arrival.2.source)
    (fragmented : arrival.2.source.Fragmented) : table.Agrees arrival.2.source := by
  have before := (List.pairwise_append.mp ordered).2.2
  by_cases first : ∀ earlier ∈ done, earlier.2.index ≠ arrival.2.index
  · exact fun i keyed => absurd keyed (released first i)
  · push Not at first
    obtain ⟨earlier, member, same⟩ := first
    have source := (before earlier member arrival (by simp)).2 same
    rw [← source] at fragmented ⊢
    refine latest earlier member (fun other seen => ?_) fragmented
    rw [same]
    exact (before other seen arrival (by simp)).1

/-- After an arrival, its packet is the latest. -/
theorem latestAgrees_snoc {table : Reassembly}
    (agree : arrival.2.source.Fragmented → table.Agrees arrival.2.source) :
    LatestAgrees (done ++ [arrival]) table := by
  have before := (List.pairwise_append.mp ordered).2.2
  intro latest member greatest fragmented
  have source : latest.2.source = arrival.2.source := by
    rcases List.mem_append.mp member with seen | now
    · have order := before latest seen arrival (by simp)
      exact order.2 (le_antisymm order.1 (greatest arrival (by simp)))
    · rw [List.mem_singleton.mp now]
  rw [source] at fragmented ⊢
  exact agree fragmented

end Arrival

/-- Every part of a packet that leaves in fragments is emitted, when no send
fails. -/
theorem emissions_cons {index : Nat} {uplink : Uplink} {packet : Bytes} {rest : List Bytes}
    (succeeding : ∀ call, uplink.sendResults call = 0) {t : Transmission}
    (source : uplink.transmission packet = t) (fragmented : t.Fragmented) :
    emissions index uplink (packet :: rest) =
      (List.range t.parts).map (fun k => ⟨index, t, t.fragment k⟩) ++
        emissions (index + 1) (uplink.after [packet]) rest := by
  subst source
  obtain ⟨count, emitted, all⟩ := lanClientSendIpv4_fragmented uplink packet fragmented
  rw [List.take_of_length_le (by simpa using all succeeding)] at emitted
  simp only [emissions, Uplink.after, emitted, List.map_map, Function.comp_def]

/-! ## A stale slot -/

section Stale

variable {zeros : Nat} (within : zeros ≤ 1000)

include within

theorem stepTransmission_split (fragId : Nat) : (stepTransmission fragId zeros).Split := by
  refine ⟨stepTransmission_wellFormed within fragId, ?_⟩
  change (500 : Int).toNat < (stepPacket zeros).length
  rw [length_stepPacket within]
  decide

/-- Fragments that differ in nothing the wire carries are equal. -/
theorem stepTransmission_fragment_congr {other fragId otherId k : Nat} (otherWithin : other ≤ 1000)
    (addresses : 20 ≤ zeros ∧ 20 ≤ other) (part : k < 2)
    (sameId : net16 fragId = net16 otherId)
    (sameBytes : ∀ offset, k * 500 ≤ offset → offset < k * 500 + 500 →
      (offset < zeros ↔ offset < other)) :
    (stepTransmission fragId zeros).fragment k = (stepTransmission otherId other).fragment k := by
  have agree : ∀ offset < 1000, (offset < zeros ↔ offset < other) →
      byteAt (stepPacket zeros) offset = byteAt (stepPacket other) offset := by
    intro offset inside same
    rw [byteAt_stepPacket within inside, byteAt_stepPacket otherWithin inside]
    simp only [same]
  have address : ∀ start, start ≤ 16 →
      octetsAt 4 (stepPacket zeros) start = octetsAt 4 (stepPacket other) start := by
    intro start low
    funext index
    have bound := index.isLt
    exact agree _ (by omega) (by omega)
  have bytes : slice (stepPacket zeros) (k * 500) 500 = slice (stepPacket other) (k * 500) 500 :=
    slice_congr fun index below =>
      agree _ (by omega) (sameBytes _ (Nat.le_add_right _ _) (by omega))
  unfold Transmission.fragment LanClientFragmentHeader.toBytes
  simp only [Transmission.header, Transmission.blankHeader, stepTransmission_parts within,
    stepTransmission_parts otherWithin, stepTransmission_partLen within fragId part,
    stepTransmission_partLen otherWithin otherId part]
  change _ :: (List.ofFn (octetsAt 4 (stepPacket zeros) 12) ++
    List.ofFn (octetsAt 4 (stepPacket zeros) 16) ++ net16 fragId ++ _ ++ _ ++ _ ++
      slice (stepPacket zeros) (k * 500) 500) = _
  rw [address 12 (by decide), address 16 (by decide), sameId, bytes]
  rfl

end Stale

section Whole

variable {fragId zeros : Nat} (within : zeros ≤ 1000)

include within

theorem stepTransmission_complete : (stepTransmission fragId zeros).Complete
    [(stepTransmission fragId zeros).fragment 0, (stepTransmission fragId zeros).fragment 1] := by
  have parts := stepTransmission_parts within fragId
  intro datagram listed
  obtain ⟨k, below, rfl⟩ := (stepTransmission_split within fragId).mem_datagrams.mp listed
  rcases (by omega : k = 0 ∨ k = 1) with rfl | rfl <;> simp

/-- The two fragments of a step packet, received in order. -/
theorem caught_stepTransmission (env : Env) {s : LanPlay} (fresh : s.reassembly = .zero) :
    let arrivals := [(env, (stepTransmission fragId zeros).fragment 0), (env, (stepTransmission fragId zeros).fragment 1)]
    Caught [stepTransmission fragId zeros] arrivals (receiveAll arrivals s).state (receiveAll arrivals s).events := by
  have split := stepTransmission_split within fragId
  have parts := stepTransmission_parts within fragId
  have sent : ∀ k < 2, (stepTransmission fragId zeros).fragment k ∈
      (stepTransmission fragId zeros).datagrams := fun k below =>
    split.mem_datagrams.mpr ⟨k, by omega, rfl⟩
  have apart : (stepTransmission fragId zeros).fragment 0 ≠
      (stepTransmission fragId zeros).fragment 1 := fun same => by
    have equal := (split.fragment_inj split (by omega) (by omega) same).2
    cases equal
  have load : Workload [stepTransmission fragId zeros] :=
    ⟨fun t listed => List.mem_singleton.mp listed ▸ split, List.nodup_singleton _⟩
  exact receiveAll_caught load _ (by simpa using apart) (by simp [sent])
    (fun _ _ => le_trans (List.length_filter_le _ _) (Nat.le_add_left 1 99)) fresh

/-- They deliver the packet. -/
theorem receive_stepTransmission (env : Env) (s : LanPlay) (fresh : s.reassembly = .zero) :
    (stepPacket zeros, 1000) ∈ deliveries (receiveAll
      [(env, (stepTransmission fragId zeros).fragment 0),
        (env, (stepTransmission fragId zeros).fragment 1)] s).events := by
  have caught := @caught_stepTransmission fragId zeros within env s fresh
  refine caught.2.symm.subset (List.mem_map.mpr ⟨stepTransmission fragId zeros, ?_, ?_⟩)
  · exact List.mem_filter.mpr ⟨List.mem_singleton_self _, decide_eq_true (stepTransmission_complete within)⟩
  · exact congrArg (stepPacket zeros, ·) (length_stepPacket within)

/-- They leave no slot in use. -/
theorem released_stepTransmission (env : Env) {s : LanPlay} (fresh : s.reassembly = .zero) (i : Fin lcFragCount) :
    ((receiveAll [(env, (stepTransmission fragId zeros).fragment 0),
      (env, (stepTransmission fragId zeros).fragment 1)] s).state.reassembly.frags i).used = false := by
  by_contra used
  obtain ⟨t, listed, ⟨-, datagram, sent, missing⟩, -⟩ :=
    (@caught_stepTransmission fragId zeros within env s fresh).1.held i (by simpa using used)
  rw [List.mem_singleton.mp listed] at sent
  exact missing (stepTransmission_complete within datagram sent)

end Whole

/-- The fragments of the first and of the last packet of a run. -/
theorem ends_sublist (count : Nat) (bound : count + 1 < 2 ^ 32) :
    [⟨0, stepTransmission 0 1000, (stepTransmission 0 1000).fragment 0⟩,
        ⟨0, stepTransmission 0 1000, (stepTransmission 0 1000).fragment 1⟩,
        ⟨count + 1, stepTransmission (count + 1) 20, (stepTransmission (count + 1) 20).fragment 0⟩,
        ⟨count + 1, stepTransmission (count + 1) 20, (stepTransmission (count + 1) 20).fragment 1⟩].Sublist
      (emissions 0 ⟨500, 0, fun _ => 0, 0, 0⟩
        (List.replicate (count + 1) (stepPacket 1000) ++ [stepPacket 20])) := by
  have fragmented : ∀ zeros ≤ 1000, ∀ fragId, (stepTransmission fragId zeros).Fragmented :=
    fun zeros within fragId => (stepTransmission_split within fragId).fragmented
  have counted : (Uplink.after ⟨500, 0, fun _ => 0, 0, 0⟩
      (List.replicate (count + 1) (stepPacket 1000))).transmission (stepPacket 20) =
        stepTransmission (count + 1) 20 := by
    obtain ⟨pmtu, fragId⟩ := Uplink.after_fragmented
      (List.replicate (count + 1) (stepPacket 1000)) ⟨500, 0, fun _ => 0, 0, 0⟩ (by decide)
      fun packet member => List.eq_of_mem_replicate member ▸ fragmented 1000 (by decide)
    rw [List.length_replicate, Nat.zero_add, Nat.mod_eq_of_lt bound] at fragId
    rw [Uplink.transmission, pmtu, fragId]
    rfl
  have start : Uplink.transmission ⟨500, 0, fun _ => 0, 0, 0⟩ (stepPacket 1000) =
      stepTransmission 0 1000 := rfl
  rw [emissions_append, List.length_replicate, Nat.zero_add, List.replicate_succ,
    emissions_cons (fun _ => rfl) start (fragmented 1000 (by decide) 0), ← List.replicate_succ,
    emissions_cons (Uplink.after_succeeding _ fun _ => rfl) counted (fragmented 20 (by decide) _),
    stepTransmission_parts (by decide), stepTransmission_parts (by decide)]
  exact (show List.Sublist [_, _] (_ ++ _) from List.sublist_append_left _ _).append (List.sublist_append_left _ _)

/-- For one sender and a network that only drops datagrams: in every run in
which the first fragment that arrives of a packet meets no slot left in use
under the packet's key, each call of `lan_client_process` gets a sent packet,
however often the id has wrapped. -/
theorem wrapped_ids_never_mix (uplink : Uplink) (pmtu : (minFragPayloadLen : Int) ≤ uplink.pmtu)
    (packets : List Bytes) (short : ∀ packet ∈ packets, packet.length ≤ etherMtu)
    (arrivals : List (Env × Emission))
    (received : (arrivals.map Prod.snd).Sublist (emissions 0 uplink packets))
    (s : LanPlay) (released : KeysReleased s arrivals) :
    ∀ delivered ∈ deliveries (receiveEmissions arrivals s).events,
      ∃ packet ∈ packets, delivered = (packet, packet.length) := by
  have ordered : arrivals.Pairwise fun earlier later => InOrder earlier.2 later.2 :=
    List.pairwise_map.mp ((emissions_inOrder packets 0 uplink).sublist received)
  have run := Proc.runAll_induction (fun arrival => receive arrival.1 arrival.2.datagram) s
    (fun done state events => state = (receiveEmissions done s).state ∧
      LatestAgrees done state.reassembly ∧
      ∀ delivered ∈ deliveries events, ∃ packet ∈ packets, delivered = (packet, packet.length))
    arrivals ⟨rfl, fun _ member => (by cases member), by simp⟩ ?_
  · exact run.2.2
  · rintro done arrival state events within ⟨rfl, latest, known⟩
    have upTo := ordered.sublist within.sublist
    have sent : arrival.2 ∈ emissions 0 uplink packets :=
      received.subset (List.mem_map_of_mem (within.subset (by simp)))
    obtain ⟨_, samePmtu, member, carries⟩ := mem_emissions sent
    have wf : arrival.2.source.WellFormed := ⟨samePmtu ▸ pmtu, short _ member⟩
    have agree : arrival.2.source.Fragmented →
        (receiveEmissions done s).state.reassembly.Agrees arrival.2.source := fun fragmented =>
      agrees_of_latest upTo latest (released done arrival within fragmented) fragmented
    refine ⟨(Proc.runAll_snoc_state _ s done arrival).symm, ?_, ?_⟩
    · refine latestAgrees_snoc upTo fun fragmented => ?_
      rcases receive_carried wf carries arrival.1 _ agree with
        ⟨_, k, outcome, advance, table, _⟩ | ⟨whole, _⟩
      · rw [table]
        exact advance.agrees (agree fragmented)
      · exact absurd fragmented whole
    · rw [deliveries_append, List.forall_mem_append]
      refine ⟨known, fun delivered new => ⟨_, member, ?_⟩⟩
      rcases receive_carried wf carries arrival.1 _ agree with
        ⟨_, k, outcome, advance, _, handed⟩ | ⟨_, _, handed⟩
      · exact advance.delivered delivered (handed ▸ new)
      · exact List.mem_singleton.mp (handed ▸ new)

/-- A step packet that arrives whole, and another packet after it. -/
theorem keysReleased_stepTransmission {fragId zeros index later : Nat} (within : zeros ≤ 1000) (env : Env)
    (t : Transmission) {s : LanPlay} (fresh : s.reassembly = .zero) :
    KeysReleased s [(env, ⟨index, stepTransmission fragId zeros, (stepTransmission fragId zeros).fragment 0⟩),
      (env, ⟨index, stepTransmission fragId zeros, (stepTransmission fragId zeros).fragment 1⟩),
      (env, ⟨later, t, t.fragment 0⟩), (env, ⟨later, t, t.fragment 1⟩)] := by
  rintro done arrival ⟨rest, split⟩ - apart i keyed
  match done, split with
  | [], _ =>
      have unused : (s.reassembly.frags i).used = true := keyed.1
      rw [fresh] at unused
      cases unused
  | [_], split =>
      cases split
      exact apart _ List.mem_cons_self rfl
  | [_, _], split =>
      cases split
      -- the slot of the first packet was given back
      exact Bool.noConfusion ((released_stepTransmission within env fresh i).symm.trans keyed.1)
  | [_, _, _], split =>
      cases split
      exact apart (env, ⟨later, t, t.fragment 0⟩) (by simp) rfl
  | _ :: _ :: _ :: _ :: _, split => simp at split

/-- The first of 65536 equal packets arrives, the others are lost, and the next packet, which has
the same id on the wire, arrives as well. -/
theorem wrapped_ids_never_mix_reused_id :
    let first := stepTransmission 0 1000
    let last := stepTransmission 65536 20
    let env : Env := ⟨0, id, fun _ => []⟩
    last.fragId % 65536 = first.fragId ∧
      ∀ delivered ∈ deliveries (receiveEmissions
          [(env, ⟨0, first, first.fragment 0⟩), (env, ⟨0, first, first.fragment 1⟩),
            (env, ⟨65536, last, last.fragment 0⟩), (env, ⟨65536, last, last.fragment 1⟩)]
          (lanPlayStart 500 none (fun _ => 0) fun _ => 0)).events,
        delivered = (stepPacket 1000, 1000) ∨ delivered = (stepPacket 20, 1000) := by
  intro first last env
  refine ⟨(by decide : 65536 % 65536 = 0), fun delivered member => ?_⟩
  have either : ∀ packet ∈ List.replicate (65535 + 1) (stepPacket 1000) ++ [stepPacket 20],
      packet = stepPacket 1000 ∨ packet = stepPacket 20 := by
    intro packet listed
    exact (List.mem_append.mp listed).imp List.eq_of_mem_replicate List.mem_singleton.mp
  have arrives := ends_sublist 65535 (by decide)
  have released : KeysReleased (lanPlayStart 500 none (fun _ => 0) fun _ => 0)
      [(env, ⟨0, first, first.fragment 0⟩), (env, ⟨0, first, first.fragment 1⟩),
        (env, ⟨65536, last, last.fragment 0⟩), (env, ⟨65536, last, last.fragment 1⟩)] :=
    keysReleased_stepTransmission (Nat.le_refl 1000) env last rfl
  obtain ⟨packet, listed, same⟩ := wrapped_ids_never_mix ⟨500, 0, fun _ => 0, 0, 0⟩ (by decide) _
    (fun packet listed => by
      rcases either packet listed with rfl | rfl <;> rw [length_stepPacket (by decide)] <;> decide)
    [(env, ⟨0, first, first.fragment 0⟩), (env, ⟨0, first, first.fragment 1⟩),
      (env, ⟨65536, last, last.fragment 0⟩), (env, ⟨65536, last, last.fragment 1⟩)] arrives _ released delivered member
  rcases either packet listed with rfl | rfl
  · exact .inl (by rw [same, length_stepPacket (by decide)])
  · exact .inr (by rw [same, length_stepPacket (by decide)])

/-- The first of 65536 equal packets loses its second fragment and the others
are lost.  The next packet gets the same id on the wire; it loses its first
fragment, and its second one completes the stale slot. -/
theorem wrapped_id_mixes_packets :
    let packets := List.replicate 65536 (stepPacket 1000) ++ [stepPacket 20]
    (∀ packet ∈ packets, packet.length ≤ etherMtu) ∧ stepPacket 500 ∉ packets ∧
      ∃ arrivals : List (Env × Emission),
        (arrivals.map Prod.snd).Sublist (emissions 0 ⟨500, 0, fun _ => 0, 0, 0⟩ packets) ∧
        (stepPacket 500, 1000) ∈ deliveries (receiveEmissions arrivals
          (lanPlayStart 500 none (fun _ => 0) fun _ => 0)).events := by
  intro packets
  let env : Env := ⟨0, id, fun _ => []⟩
  have cases : ∀ packet ∈ packets, packet = stepPacket 1000 ∨ packet = stepPacket 20 := by
    intro packet member
    rcases List.mem_append.mp member with old | last
    · exact Or.inl (List.eq_of_mem_replicate old)
    · exact Or.inr (List.mem_singleton.mp last)
  refine ⟨?_, ?_, [(env, ⟨0, stepTransmission 0 1000, (stepTransmission 0 1000).fragment 0⟩),
    (env, ⟨65536, stepTransmission 65536 20, (stepTransmission 65536 20).fragment 1⟩)], ?_, ?_⟩
  · intro packet member
    rcases cases packet member with rfl | rfl <;> rw [length_stepPacket (by decide)] <;> decide
  · intro member
    rcases cases _ member with same | same
    · exact stepPacket_ne (by decide) (by decide) (by decide : 500 < 1000) (by decide) (by decide)
        same.symm
    · exact stepPacket_ne (by decide) (by decide) (by decide : 20 < 1000) (by decide) (by decide) same
  · exact .trans (.cons_cons _ (.cons _ (.cons _ (.cons_cons _ .slnil)))) (ends_sublist 65535 (by decide))
  · have first : (stepTransmission 0 1000).fragment 0 = (stepTransmission 0 500).fragment 0 :=
      stepTransmission_fragment_congr (by decide) (by decide) (by decide) (by decide) rfl
        fun offset low high => by omega
    have second : (stepTransmission 65536 20).fragment 1 = (stepTransmission 0 500).fragment 1 :=
      stepTransmission_fragment_congr (by decide) (by decide) (by decide) (by decide) rfl
        fun offset low high => by omega
    rw [first, second]
    exact receive_stepTransmission (by decide) env _ rfl

end SwitchLanPlay
