import SwitchLanPlay.Client.Downlink
import SwitchLanPlay.Lan.ArpCache

/-!
# Copies of a relayed broadcast

Between two real broadcasts `lan_client_on_broadcast` sends one copy to every
slot of the ARP cache that has not expired.  A station gets one copy when it has
one such slot.  `arp_set` gives it a second one when it refreshes the station
into a reusable slot in front of the slot the station still has.
-/

namespace SwitchLanPlay

open Library SlotTable ExpiringTable

/-! ## The events of sending do not depend on counters -/

theorem copyParts_congr (bufferLen : Nat) (chain : List Payload) (s s' : LanPlay) :
    ∀ offset, (copyParts bufferLen offset chain s').value = (copyParts bufferLen offset chain s).value ∧
      (copyParts bufferLen offset chain s').events = (copyParts bufferLen offset chain s).events := by
  induction chain with
  | nil => exact fun _ => ⟨rfl, rfl⟩
  | cons part rest ih =>
      intro offset
      obtain ⟨values, events⟩ := ih (offset + part.len)
      unfold copyParts
      split
      · exact ⟨rfl, rfl⟩
      · constructor
        · simp [values]
        · simp [events, loadBytes]

/-- Sending looks at the address of the interface and the size of the send
buffer, and at nothing else of the state. -/
theorem sendEther_events_congr {s s' : LanPlay} (same : s'.core = s.core) (dst : Mac) (type : Nat)
    (payload : List Payload) :
    (sendEther dst type payload s').events = (sendEther dst type payload s).events := by
  have mac : s'.packetCtx.mac = s.packetCtx.mac := by
    change s'.core.packetCtx.mac = s.core.packetCtx.mac
    rw [same]
  unfold sendEther sendEtherEx
  simp only [Proc.bind_events, Proc.read_events, Proc.read_value, Proc.read_state, List.nil_append,
    sendPayloads_events, mac, LanPlay.core_bufferLen same]
  obtain ⟨values, events⟩ := copyParts_congr s.packetCtx.bufferLen
    (.ofBytes (List.ofFn dst ++ List.ofFn s.packetCtx.mac ++ net16 type) :: payload) s s' 0
  rw [values, events]

/-! ## The loop over the cache -/

/-- The slots that `arp_for_each` visits. -/
def liveSlots (s : LanPlay) (now : Int) (slots : List (Fin arpCacheLen)) : List (Fin arpCacheLen) :=
  slots.filter fun i => decide (now < (s.packetCtx.arpList i).expireAt)

/-- One unicast copy of a packet. -/
def copyTo (s : LanPlay) (packet : Ptr) (len : Nat) (mac : Mac) : List Event :=
  (sendEther mac etherTypeIpv4 [⟨packet, len⟩] s).events

theorem copyTo_congr {s s' : LanPlay} (same : s'.core = s.core) (packet : Ptr) (len : Nat) :
    copyTo s' packet len = copyTo s packet len := by
  funext mac
  exact sendEther_events_congr same mac etherTypeIpv4 [⟨packet, len⟩]

theorem arpForEachFrom_events (now : Int) (packet : Ptr) (len : Nat) (slots : List (Fin arpCacheLen))
    (s : LanPlay) :
    (arpForEachFrom now (lanClientArpForEachCb packet len) slots s).events =
      (liveSlots s now slots).flatMap fun i => copyTo s packet len (s.packetCtx.arpList i).mac := by
  induction slots generalizing s with
  | nil => rfl
  | cons i rest ih =>
      unfold arpForEachFrom
      rw [Proc.bind_events, Proc.read_events, List.nil_append, Proc.read_value, Proc.read_state]
      by_cases live : now < (s.packetCtx.arpList i).expireAt
      · -- the copy changes counters only, so the rest of the loop starts from the same cache
        have kept := sendEther_core (s.packetCtx.arpList i).mac etherTypeIpv4 ⟨packet, len⟩ s
        have later := ih (sendEther (s.packetCtx.arpList i).mac etherTypeIpv4 [⟨packet, len⟩] s).state
        rw [copyTo_congr kept] at later
        unfold liveSlots at later ⊢
        rw [LanPlay.core_arpList kept] at later
        rw [List.filter_cons_of_pos (by simpa using live), List.flatMap_cons, ← later]
        simp only [live, if_true, Proc.bind_events, lanClientArpForEachCb]
        simp [copyTo]
      · have later := ih s
        unfold liveSlots at later ⊢
        rw [List.filter_cons_of_neg (by simpa using live), ← later]
        simp [live]

theorem lanClientOnBroadcast_events (now : Int) (packet : Ptr) (len : Nat) {s : LanPlay}
    (repeated : s.nextRealBroadcast = false) :
    (lanClientOnBroadcast now packet len s).events =
      (liveSlots s now (List.finRange arpCacheLen)).flatMap fun i =>
        copyTo s packet len (s.packetCtx.arpList i).mac := by
  unfold lanClientOnBroadcast
  rw [Proc.bind_events, Proc.read_events, List.nil_append, Proc.read_value, Proc.read_state, repeated]
  simp [arpForEach, arpForEachFrom_events]

/-! ## One copy a station -/

/-- While the real broadcast is not due, every address with a live entry gets
one copy of a relayed broadcast, at the address `arp_get_mac_by_ip` returns. -/
def ServedOnce (s : LanPlay) (now : Int) : Prop :=
  s.nextRealBroadcast = false → ∀ (packet : Ptr) (len : Nat), ∃ stations : List (Ip × Mac),
    (stations.map Prod.fst).Nodup ∧
    (∀ ip, ip ∈ stations.map Prod.fst ↔ (arpHasIp now ip s).value = true) ∧
    (∀ station ∈ stations, (arpGetMacByIp now station.1 s).value = some station.2) ∧
    (lanClientOnBroadcast now packet len s).events =
      stations.flatMap fun station => copyTo s packet len station.2

theorem mem_liveSlots {s : LanPlay} {now : Int} {i : Fin arpCacheLen} :
    i ∈ liveSlots s now (List.finRange arpCacheLen) ↔ now < (s.packetCtx.arpTable i).expireAt := by
  simp [liveSlots, PacketCtx.arpTable, ArpItem.slot]

theorem UniqueLive.servedOnce {s : LanPlay} {now : Int} (unique : UniqueLive now s.packetCtx.arpTable) :
    ServedOnce s now := by
  intro repeated packet len
  refine ⟨(liveSlots s now (List.finRange arpCacheLen)).map fun i =>
    ((s.packetCtx.arpTable i).key, (s.packetCtx.arpTable i).value), ?_, ?_, ?_, ?_⟩
  · rw [List.map_map]
    refine List.Nodup.map_on ?_ ((List.nodup_finRange arpCacheLen).filter _)
    intro i liveI j liveJ same
    exact unique i j same (mem_liveSlots.mp liveI) (mem_liveSlots.mp liveJ)
  · intro ip
    rw [arpHasIp_value, Option.isSome_iff_ne_none, Ne, find_eq_none_iff, List.map_map]
    simp only [List.mem_map, mem_liveSlots, Function.comp_apply, not_forall, not_le]
    constructor
    · rintro ⟨i, live, same⟩
      exact ⟨i, same, live⟩
    · rintro ⟨i, same, live⟩
      exact ⟨i, live, same⟩
  · intro station member
    obtain ⟨i, live, rfl⟩ := List.mem_map.mp member
    have found : find s.packetCtx.arpTable now (s.packetCtx.arpTable i).key = some i := by
      refine find_eq_some_iff.mpr ⟨⟨rfl, mem_liveSlots.mp live⟩, fun j before same => ?_⟩
      refine le_of_not_gt fun liveJ => ne_of_lt before ?_
      exact unique j i same liveJ (mem_liveSlots.mp live)
    rw [arpGetMacByIp_value, found]
    rfl
  · rw [lanClientOnBroadcast_events now packet len repeated, List.flatMap_map]
    rfl

/-! ## Which calls keep it so -/

/-- An `arp_set` for a station that has a live slot overwrites that slot. -/
def RefreshesInPlace (s : LanPlay) (input : Int × ArpCall) : Prop :=
  match input.2 with
  | .set _ ip =>
      ∀ i, (s.packetCtx.arpList i).ip = ip → input.1 < (s.packetCtx.arpList i).expireAt →
        s.packetCtx.arpSlot input.1 ip = some i
  | _ => True

theorem arpCallStep_uniqueLive_iff (input : Int × ArpCall) {s : LanPlay}
    (positive : 0 < s.packetCtx.arpTtl) (unique : UniqueLive input.1 s.packetCtx.arpTable) :
    UniqueLive input.1 (arpCallStep input s).state.packetCtx.arpTable ↔ RefreshesInPlace s input := by
  obtain ⟨now, call⟩ := input
  cases call with
  | set mac ip =>
      have table : (arpCallStep (now, .set mac ip) s).state.packetCtx.arpTable =
          store noneIp s.packetCtx.arpTtl s.packetCtx.arpTable now ip mac :=
        PacketCtx.arpTable_arpSet s.packetCtx now mac ip
      rw [table]
      exact uniqueLive_store_iff mac positive unique
  | hasIp ip => exact iff_of_true unique trivial
  | getMacByIp ip =>
      have table := PacketCtx.arpTable_of_core (arpGetMacByIp_core s now ip)
      exact iff_of_true (table ▸ unique) trivial

/-- After these calls, and at every later value of the clock, no address has
two live slots. -/
def UniqueAfter (start : LanPlay) (done : List (Int × ArpCall)) : Prop :=
  ∀ now, 0 ≤ now → (∀ call ∈ done, call.1 ≤ now) →
    UniqueLive now (Proc.runAll arpCallStep done start).state.packetCtx.arpTable

theorem uniqueAfter_nil {start : LanPlay} (fresh : start.packetCtx.arpList = arpListInit) :
    UniqueAfter start [] := by
  intro now nonneg _ i j _ live
  have blank : (start.packetCtx.arpTable i).expireAt = 0 := by
    simp [PacketCtx.arpTable, ArpItem.slot, fresh, arpListInit]
  exact absurd (blank ▸ live) (not_lt_of_ge nonneg)

theorem uniqueAfter_snoc_iff {start : LanPlay} {first : List (Int × ArpCall)} {last : Int × ArpCall}
    (positive : 0 < start.packetCtx.arpTtl) (nonneg : 0 ≤ last.1)
    (clock : ∀ call ∈ first, call.1 ≤ last.1) (unique : UniqueAfter start first) :
    UniqueAfter start (first ++ [last]) ↔
      RefreshesInPlace (Proc.runAll arpCallStep first start).state last := by
  have ttl := arp_run_arpTtl first start
  have step := arpCallStep_uniqueLive_iff last (by rw [ttl]; exact positive)
    (unique last.1 nonneg clock)
  rw [← step, UniqueAfter, Proc.runAll_snoc_state]
  constructor
  · intro after
    refine after last.1 nonneg fun call member => ?_
    rcases List.mem_append.mp member with before | here
    · exact clock call before
    · exact le_of_eq (congrArg Prod.fst (List.mem_singleton.mp here))
  · intro after now _ past
    exact after.advance (past last (by simp))

theorem uniqueAfter_prefixes_iff (calls : List (Int × ArpCall)) (start : LanPlay)
    (fresh : start.packetCtx.arpList = arpListInit) (positive : 0 < start.packetCtx.arpTtl)
    (clock : (calls.map Prod.fst).Pairwise (· ≤ ·)) (nonneg : ∀ call ∈ calls, 0 ≤ call.1) :
    (∀ done, done <+: calls → UniqueAfter start done) ↔
      Proc.Along arpCallStep RefreshesInPlace start calls := by
  induction calls using List.reverseRecOn with
  | nil =>
      refine iff_of_true (fun done within => ?_) trivial
      rw [List.prefix_nil.mp within]
      exact uniqueAfter_nil fresh
  | append_singleton first last ih =>
      rw [List.map_append, List.pairwise_append] at clock
      have before : ∀ call ∈ first, call.1 ≤ last.1 := by
        intro call member
        exact clock.2.2 call.1 (List.mem_map_of_mem member) last.1 (by simp)
      have snoc := @uniqueAfter_snoc_iff start first last positive (nonneg last (by simp)) before
      rw [Proc.along_snoc, ← ih clock.1 fun call member => nonneg call (List.mem_append_left _ member)]
      simp only [List.prefix_concat_iff, forall_eq_or_imp]
      constructor
      · rintro ⟨whole, parts⟩
        exact ⟨parts, (snoc (parts first (List.prefix_refl first))).mp whole⟩
      · rintro ⟨parts, inPlace⟩
        exact ⟨(snoc (parts first (List.prefix_refl first))).mpr inPlace, parts⟩

/-- Throughout a run, no address has two live slots and every station is served
once per broadcast, exactly when each `arp_set` for a station that has a live
slot overwrites that slot. -/
theorem broadcast_served_once_iff (calls : List (Int × ArpCall)) (start : LanPlay)
    (fresh : start.packetCtx.arpList = arpListInit) (positive : 0 < start.packetCtx.arpTtl)
    (clock : (calls.map Prod.fst).Pairwise (· ≤ ·)) (nonneg : ∀ call ∈ calls, 0 ≤ call.1) :
    (∀ done, done <+: calls → ∀ now, 0 ≤ now → (∀ call ∈ done, call.1 ≤ now) →
      UniqueLive now (Proc.runAll arpCallStep done start).state.packetCtx.arpTable ∧
        ServedOnce (Proc.runAll arpCallStep done start).state now) ↔
      Proc.Along arpCallStep RefreshesInPlace start calls := by
  rw [← uniqueAfter_prefixes_iff calls start fresh positive clock nonneg]
  constructor
  · intro holds done within now later past
    exact (holds done within now later past).1
  · intro unique done within now later past
    have here := unique done within now later past
    exact ⟨here, UniqueLive.servedOnce here⟩

/-- A cache with two stations, the first of which leaves. -/
def twoStations : List (Int × ArpCall) :=
  [(0, .set (fun _ => 1) fun _ => 11), (20, .set (fun _ => 2) fun _ => 10)]

/-- The first station speaks again while its slot is live. -/
theorem broadcast_served_once_refreshed :
    let calls := twoStations ++ [(25, ArpCall.set (fun _ => 4) fun _ => 11)]
    Proc.Along arpCallStep RefreshesInPlace (lanPlayStart 0 none (fun _ => 0) fun _ => 0) calls ∧
    ∀ done, done <+: calls → ∀ now, 0 ≤ now → (∀ call ∈ done, call.1 ≤ now) →
      UniqueLive now (Proc.runAll arpCallStep done
        (lanPlayStart 0 none (fun _ => 0) fun _ => 0)).state.packetCtx.arpTable ∧
      ServedOnce (Proc.runAll arpCallStep done
        (lanPlayStart 0 none (fun _ => 0) fun _ => 0)).state now := by
  intro calls
  have inPlace : Proc.Along arpCallStep RefreshesInPlace (lanPlayStart 0 none (fun _ => 0) fun _ => 0) calls := by
    refine ⟨?_, ?_, ?_, trivial⟩
    all_goals
      unfold RefreshesInPlace
      decide +kernel
  exact ⟨inPlace, (broadcast_served_once_iff calls _ rfl (by decide) (by decide) (by decide)).mpr inPlace⟩

/-- The second station is refreshed at time 31 into the slot of the first, which
has expired, while its own slot is live: it gets two copies of a broadcast. -/
theorem broadcast_not_served_once :
    let start := { lanPlayStart 0 none (fun _ => 0) fun _ => 0 with nextRealBroadcast := false }
    let calls := twoStations ++ [(31, ArpCall.set (fun _ => 3) fun _ => 10)]
    let s := (Proc.runAll arpCallStep calls start).state
    ¬ UniqueLive 31 s.packetCtx.arpTable ∧
    (lanClientOnBroadcast 31 ⟨.clientBuf, [7], 0⟩ 1 s).events =
      [.load .header 0 14, .load .clientBuf 0 1,
        .sendPacket [3, 3, 3, 3, 3, 3, 255, 255, 255, 255, 255, 255, 8, 0, 7],
        .load .header 0 14, .load .clientBuf 0 1,
        .sendPacket [2, 2, 2, 2, 2, 2, 255, 255, 255, 255, 255, 255, 8, 0, 7]] ∧
    (∀ ip, (arpHasIp 31 ip s).value = true → ip = fun _ => 10) := by
  refine ⟨fun unique => ?_, by decide +kernel, ?_⟩
  · have same := unique 0 1 (by decide +kernel) (by decide +kernel) (by decide +kernel)
    exact absurd same (by decide)
  · intro ip known
    rw [arpHasIp_value, Option.isSome_iff_exists] at known
    obtain ⟨i, found⟩ := known
    obtain ⟨same, live⟩ := (find_eq_some_iff.mp found).1
    rw [← same]
    clear found same
    revert i
    decide +kernel

end SwitchLanPlay
