import SwitchLanPlay.Client.Integrity

/-!
# Every packet is delivered once

When no fragment is lost or duplicated and at no moment more packets are
partially received than the table has slots, reassembly delivers each packet
exactly once and ends with an empty table, in whatever order the fragments
arrive.

The invariant `Tracks` ties the table to the datagrams received so far: the
slots in use are those of the partially received packets, one for each, and
the bits of a slot are the parts received.
-/

namespace SwitchLanPlay

open Library SlotTable

namespace Transmission

/-- Some, but not all of the datagrams of the packet have been received. -/
def Partial (t : Transmission) (received : List Bytes) : Prop :=
  (∃ datagram ∈ t.datagrams, datagram ∈ received) ∧ ∃ datagram ∈ t.datagrams, datagram ∉ received

def Complete (t : Transmission) (received : List Bytes) : Prop :=
  ∀ datagram ∈ t.datagrams, datagram ∈ received

instance (t : Transmission) (received : List Bytes) : Decidable (t.Partial received) :=
  inferInstanceAs (Decidable (_ ∧ _))

instance (t : Transmission) (received : List Bytes) : Decidable (t.Complete received) :=
  inferInstanceAs (Decidable (∀ datagram ∈ t.datagrams, datagram ∈ received))

/-- A well-formed packet that leaves in fragments. -/
structure Split (t : Transmission) : Prop where
  wf : t.WellFormed
  long : t.pmtu.toNat < t.packet.length

variable {t u : Transmission}

theorem Split.fragmented (split : t.Split) : t.Fragmented := split.wf.fragmented_iff.mpr split.long

theorem Split.mem_datagrams (split : t.Split) {datagram : Bytes} :
    datagram ∈ t.datagrams ↔ ∃ k < t.parts, t.fragment k = datagram := by
  rw [datagrams_of_fragmented split.fragmented]
  simp

/-- A fragment determines its packet's key and its part. -/
theorem Split.fragment_inj (first : t.Split) (second : u.Split) {j k : Nat} (inFirst : j < t.parts)
    (inSecond : k < u.parts) (same : t.fragment j = u.fragment k) : t.key = u.key ∧ j = k := by
  have read := headerAt_fragment first.wf first.fragmented inFirst []
  rw [same, headerAt_fragment second.wf second.fragmented inSecond []] at read
  simp only [wireHeader, header, blankHeader, LanClientFragmentHeader.mk.injEq] at read
  exact ⟨Prod.ext read.1.symm read.2.2.1.symm, read.2.2.2.1.symm⟩

theorem Split.nodup_datagrams (split : t.Split) : t.datagrams.Nodup := by
  rw [datagrams_of_fragmented split.fragmented]
  refine List.Nodup.map_on ?_ List.nodup_range
  intro j first k second same
  exact (split.fragment_inj split (List.mem_range.mp first) (List.mem_range.mp second) same).2

end Transmission

/-- Packets that leave in fragments, with pairwise different keys. -/
structure Workload (packets : List Transmission) : Prop where
  split : ∀ t ∈ packets, t.Split
  distinct : (packets.map Transmission.key).Nodup

namespace Workload

variable {packets : List Transmission} (load : Workload packets)

include load

theorem eq_of_key {t u : Transmission} (first : t ∈ packets) (second : u ∈ packets)
    (same : t.key = u.key) : t = u :=
  List.inj_on_of_nodup_map load.distinct first second same

theorem nodup : packets.Nodup := load.distinct.of_map

theorem nodup_datagrams : (packets.flatMap Transmission.datagrams).Nodup := by
  refine List.nodup_flatMap.mpr ⟨fun t member => (load.split t member).nodup_datagrams, ?_⟩
  refine load.nodup.pairwise_of_forall_ne ?_
  intro t first u second different datagram inFirst inSecond
  obtain ⟨j, below, rfl⟩ := (load.split t first).mem_datagrams.mp inFirst
  obtain ⟨k, belowSecond, same⟩ := (load.split u second).mem_datagrams.mp inSecond
  have keys := (load.split u second).fragment_inj (load.split t first) belowSecond below same
  exact different (load.eq_of_key first second keys.1.symm)

end Workload

/-- The table agrees with the datagrams received so far. -/
structure Reassembly.Tracks (table : Reassembly) (packets : List Transmission)
    (received : List Bytes) : Prop where
  held : ∀ i, (table.frags i).used = true → ∃ t ∈ packets, t.Partial received ∧
    (table.frags i).Holds t ∧
      ∀ k < t.parts, (table.frags i).part.testBit k = true ↔ t.fragment k ∈ received
  tracked : ∀ t ∈ packets, t.Partial received → ∃ i, (table.frags i).KeyedTo t
  unique : ∀ i j, (table.frags i).used = true → (table.frags j).used = true →
    ((table.frags i).src, (table.frags i).id) = ((table.frags j).src, (table.frags j).id) → i = j

/-! ## One fragment -/

section Step

variable {packets : List Transmission} (load : Workload packets) {received : List Bytes}
  {t : Transmission} (member : t ∈ packets) {k : Nat} (inside : k < t.parts)
  (new : t.fragment k ∉ received) {table : Reassembly} (tracks : table.Tracks packets received)

include load member inside

/-- The fragment says nothing about the datagrams of other packets. -/
theorem mem_snoc_other {u : Transmission} (other : u ∈ packets) (different : u ≠ t)
    {datagram : Bytes} (sent : datagram ∈ u.datagrams) :
    datagram ∈ received ++ [t.fragment k] ↔ datagram ∈ received := by
  obtain ⟨j, below, rfl⟩ := (load.split u other).mem_datagrams.mp sent
  have apart : u.fragment j ≠ t.fragment k := fun same =>
    different (load.eq_of_key other member
      ((load.split u other).fragment_inj (load.split t member) below inside same).1)
  simp [apart]

theorem partial_other {u : Transmission} (other : u ∈ packets) (different : u ≠ t) :
    u.Partial (received ++ [t.fragment k]) ↔ u.Partial received := by
  have agree : ∀ datagram ∈ u.datagrams,
      (datagram ∈ received ++ [t.fragment k] ↔ datagram ∈ received) :=
    fun _ sent => mem_snoc_other load member inside other different sent
  exact and_congr (exists_congr fun datagram => and_congr_right (agree datagram))
    (exists_congr fun datagram => and_congr_right fun sent => not_congr (agree datagram sent))

theorem complete_other {u : Transmission} (other : u ∈ packets) (different : u ≠ t) :
    u.Complete (received ++ [t.fragment k]) ↔ u.Complete received :=
  forall_congr' fun _ => forall_congr' fun sent =>
    mem_snoc_other load member inside other different sent

theorem mem_snoc_same {j : Nat} (below : j < t.parts) :
    t.fragment j ∈ received ++ [t.fragment k] ↔ t.fragment j ∈ received ∨ j = k := by
  have split := load.split t member
  have same : t.fragment j = t.fragment k ↔ j = k :=
    ⟨fun equal => (split.fragment_inj split below inside equal).2, fun equal => by rw [equal]⟩
  simp [same]

/-- After the fragment its packet is complete or partially received. -/
theorem partial_snoc_iff :
    t.Partial (received ++ [t.fragment k]) ↔ ¬ t.Complete (received ++ [t.fragment k]) := by
  have split := load.split t member
  have started : ∃ datagram ∈ t.datagrams, datagram ∈ received ++ [t.fragment k] :=
    ⟨t.fragment k, split.mem_datagrams.mpr ⟨k, inside, rfl⟩, by simp⟩
  unfold Transmission.Partial Transmission.Complete
  push Not
  exact and_iff_right started

omit inside

include tracks

/-- A slot keyed like the packet belongs to it. -/
theorem Reassembly.Tracks.owner {i : Fin lcFragCount} (keyed : (table.frags i).KeyedTo t) :
    (table.frags i).Holds t ∧
      ∀ j < t.parts, (table.frags i).part.testBit j = true ↔ t.fragment j ∈ received := by
  obtain ⟨u, other, _, holds, bits⟩ := tracks.held i keyed.1
  have same := load.eq_of_key member other (keyed.2.symm.trans holds.key)
  subst same
  exact ⟨holds, bits⟩

include inside new

/-- A packet has a slot when some fragment of it, but not this one, was received. -/
theorem Reassembly.Tracks.started {j : Nat} (below : j < t.parts)
    (got : t.fragment j ∈ received) : ∃ i, (table.frags i).KeyedTo t := by
  have split := load.split t member
  exact tracks.tracked t member
    ⟨⟨_, split.mem_datagrams.mpr ⟨j, below, rfl⟩, got⟩,
      ⟨_, split.mem_datagrams.mpr ⟨k, inside, rfl⟩, new⟩⟩

/-- The bits of the slot, once the fragment is stored. -/
theorem Reassembly.Tracks.bits {i : Fin lcFragCount} {slot : LanClientFragment}
    {counter : Int} (stores : table.Stores t k i slot counter) {j : Nat} (below : j < t.parts) :
    slot.part.testBit j = true ↔ t.fragment j ∈ received ++ [t.fragment k] := by
  rw [stores.bits, mem_snoc_same load member inside below]
  refine or_congr_left ?_
  rcases stores.place with ⟨keyed, _⟩ | ⟨absent, _⟩
  · exact (and_iff_right keyed).trans ((tracks.owner load member keyed).2 j below)
  · refine ⟨fun here => absurd here.1 (absent i), fun got => ?_⟩
    obtain ⟨i, keyed⟩ := tracks.started load member inside new below got
    exact absurd keyed (absent i)

theorem Reassembly.Tracks.complete_iff {i : Fin lcFragCount} {slot : LanClientFragment}
    {counter : Int} (stores : table.Stores t k i slot counter) :
    t.Complete (received ++ [t.fragment k]) ↔ ∀ j < t.parts, slot.part.testBit j = true := by
  have split := load.split t member
  constructor
  · intro complete j below
    exact (tracks.bits load member inside new stores below).mpr
      (complete _ (split.mem_datagrams.mpr ⟨j, below, rfl⟩))
  · intro all datagram sent
    obtain ⟨j, below, rfl⟩ := split.mem_datagrams.mp sent
    exact (tracks.bits load member inside new stores below).mp (all j below)

/-- The first fragment of a packet finds a free slot: otherwise the owners of
the slots and the packet itself would be too many partial packets. -/
theorem Reassembly.Tracks.free_slot (absent : ∀ i, ¬ (table.frags i).KeyedTo t)
    (bounded : (packets.filter fun u => u.Partial (received ++ [t.fragment k])).length ≤ lcFragCount) :
    ∃ i, (table.frags i).used = false := by
  by_contra full
  have used : ∀ i, (table.frags i).used = true := by simpa using full
  choose owner sent isPartial holds _ using fun i => tracks.held i (used i)
  have apart : ∀ i, owner i ≠ t := fun i same =>
    absent i ⟨used i, same ▸ (holds i).key⟩
  have injective : Function.Injective owner := fun i j same =>
    tracks.unique i j (used i) (used j) ((holds i).key.trans (same ▸ (holds j).key.symm))
  have started : t.Partial (received ++ [t.fragment k]) := by
    rw [partial_snoc_iff load member inside]
    intro complete
    have split := load.split t member
    obtain ⟨j, below, other⟩ : ∃ j < t.parts, j ≠ k := by
      have many := split.fragmented.2
      by_cases zero : k = 0
      · exact ⟨1, many, by omega⟩
      · exact ⟨0, by omega, by omega⟩
    have got := (mem_snoc_same load member inside below).mp
      (complete _ (split.mem_datagrams.mpr ⟨j, below, rfl⟩))
    obtain ⟨i, keyed⟩ := tracks.started load member inside new below (got.resolve_right other)
    exact absent i keyed
  have inTheList : ∀ u ∈ t :: (List.finRange lcFragCount).map owner,
      u ∈ packets.filter fun u => u.Partial (received ++ [t.fragment k]) := by
    intro u listed
    rw [List.mem_filter, decide_eq_true_eq]
    rcases List.mem_cons.mp listed with rfl | owned
    · exact ⟨member, started⟩
    · obtain ⟨i, _, rfl⟩ := List.mem_map.mp owned
      exact ⟨sent i, (partial_other load member inside (sent i) (apart i)).mpr (isPartial i)⟩
  have nodup : (t :: (List.finRange lcFragCount).map owner).Nodup := by
    refine List.nodup_cons.mpr ⟨?_, (List.nodup_finRange _).map injective⟩
    intro owned
    obtain ⟨i, _, same⟩ := List.mem_map.mp owned
    exact apart i same
  have tooMany := (nodup.subperm inTheList).length_le
  rw [List.length_cons, List.length_map, List.length_finRange] at tooMany
  omega

omit load inside new tracks member in
/-- Where the fragment goes, no other slot is keyed to its packet. -/
theorem Reassembly.Tracks.others (tracks : table.Tracks packets received) {i : Fin lcFragCount}
    (room : (table.frags i).KeyedTo t ∨ ∀ j, ¬ (table.frags j).KeyedTo t) {j : Fin lcFragCount}
    (elsewhere : j ≠ i) : ¬ (table.frags j).KeyedTo t := by
  intro keyed
  rcases room with here | absent
  · exact elsewhere (tracks.unique j i keyed.1 here.1 (keyed.2.trans here.2.symm))
  · exact absent j keyed

omit new in
/-- The invariant survives a change of the slot the fragment goes to. -/
theorem Reassembly.Tracks.update {after : Reassembly} {i : Fin lcFragCount}
    {slot : LanClientFragment} (changed : after.frags = Function.update table.frags i slot)
    (room : (table.frags i).KeyedTo t ∨ (∀ j, ¬ (table.frags j).KeyedTo t) ∧ (table.frags i).used = false)
    (live : slot.used = true → t.Partial (received ++ [t.fragment k]) ∧ slot.Holds t ∧
      ∀ j < t.parts, slot.part.testBit j = true ↔ t.fragment j ∈ received ++ [t.fragment k])
    (kept : t.Partial (received ++ [t.fragment k]) → slot.KeyedTo t) :
    after.Tracks packets (received ++ [t.fragment k]) := by
  have others := fun {j} => tracks.others (t := t) (i := i) (j := j) (room.imp_right And.left)
  have here : after.frags i = slot := by rw [changed, Function.update_self]
  have there : ∀ {j}, j ≠ i → after.frags j = table.frags j := fun elsewhere => by
    rw [changed, Function.update_of_ne elsewhere]
  refine ⟨fun j used => ?_, fun u other isPartial => ?_, fun j l usedFirst usedSecond same => ?_⟩
  · by_cases elsewhere : j = i
    · subst elsewhere
      rw [here] at used ⊢
      exact ⟨t, member, live used⟩
    · rw [there elsewhere] at used ⊢
      obtain ⟨u, other, isPartial, holds, bits⟩ := tracks.held j used
      have different : u ≠ t := fun same => others elsewhere ⟨used, same ▸ holds.key⟩
      refine ⟨u, other, (partial_other load member inside other different).mpr isPartial, holds,
        fun l below => (bits l below).trans ?_⟩
      exact (mem_snoc_other load member inside other different
        ((load.split u other).mem_datagrams.mpr ⟨l, below, rfl⟩)).symm
  · by_cases same : u = t
    · subst same
      exact ⟨i, here ▸ kept isPartial⟩
    · obtain ⟨j, keyed⟩ := tracks.tracked u other
        ((partial_other load member inside other same).mp isPartial)
      have elsewhere : j ≠ i := by
        rintro rfl
        rcases room with mine | ⟨_, unused⟩
        · exact same (load.eq_of_key other member (keyed.2.symm.trans mine.2))
        · simp [keyed.1] at unused
      exact ⟨j, there elsewhere ▸ keyed⟩
  · by_cases first : j = i <;> by_cases second : l = i
    · exact first.trans second.symm
    · subst first
      rw [here] at usedFirst same
      rw [there second] at usedSecond same
      exact absurd ⟨usedSecond, same.symm.trans (live usedFirst).2.1.key⟩ (others second)
    · subst second
      rw [there first] at usedFirst same
      rw [here] at usedSecond same
      exact absurd ⟨usedFirst, same.trans (live usedSecond).2.1.key⟩ (others first)
    · rw [there first, there second] at same
      rw [there first] at usedFirst
      rw [there second] at usedSecond
      exact tracks.unique j l usedFirst usedSecond same

/-- The table keeps track, and the packet is delivered when its last missing
fragment arrives. -/
theorem Reassembly.Tracks.advance
    (bounded : (packets.filter fun u => u.Partial (received ++ [t.fragment k])).length ≤ lcFragCount)
    {outcome : Reassembly × Option (Bytes × Nat)} (advance : table.Advance t k outcome) :
    outcome.1.Tracks packets (received ++ [t.fragment k]) ∧
      outcome.2.toList =
        if t.Complete (received ++ [t.fragment k]) then [(t.packet, t.packet.length)] else [] := by
  have free := tracks.free_slot load member inside new
  have room {i : Fin lcFragCount} {age : Nat} {counter : Int} (place : table.Place t i age counter) :
      (table.frags i).KeyedTo t ∨
        (∀ j, ¬ (table.frags j).KeyedTo t) ∧ (table.frags i).used = false := by
    cases place with
    | keyed here _ _ => exact Or.inl here
    | allocated absent room _ _ =>
        refine Or.inr ⟨absent, room.resolve_right fun full => ?_⟩
        obtain ⟨j, unused⟩ := free absent bounded
        simp [full.1 j] at unused
  cases advance with
  | ignored full =>
      obtain ⟨unmatched, used, _⟩ := Reassembly.obtain_eq_none_iff.mp full
      obtain ⟨j, unused⟩ :=
        free (fun i => mt LanClientFragment.matches_wireHeader.mpr (unmatched i)) bounded
      simp [used j] at unused
  | stored i slot after stores missing changed =>
      have incomplete := mt (tracks.complete_iff load member inside new stores).mp missing
      refine ⟨tracks.update load member inside changed (room stores.place) (fun _ => ⟨?_, stores.holds,
        fun j below => tracks.bits load member inside new stores below⟩) fun _ => ?_, ?_⟩
      · exact (partial_snoc_iff load member inside).mpr incomplete
      · exact ⟨stores.used, stores.holds.key⟩
      · rw [if_neg incomplete]
        rfl
  | completed i slot after stores all changed =>
      have complete := (tracks.complete_iff load member inside new stores).mpr all
      refine ⟨tracks.update load member inside changed (room stores.place) (fun used => ?_)
        fun isPartial => ?_, ?_⟩
      · cases used
      · exact absurd complete ((partial_snoc_iff load member inside).mp isPartial)
      · rw [if_pos complete]
        rfl

end Step

/-! ## Whole runs -/

theorem Reassembly.tracks_zero (packets : List Transmission) :
    Reassembly.zero.Tracks packets [] := by
  refine ⟨?_, ?_, ?_⟩
  · intro i used
    cases used
  · rintro t member ⟨⟨datagram, _, received⟩, _⟩
    cases received
  · intro i j used
    cases used

/-- The packets that are complete after one more fragment. -/
theorem filter_complete_snoc {packets : List Transmission} (load : Workload packets)
    {received : List Bytes} {t : Transmission} (member : t ∈ packets) {k : Nat}
    (inside : k < t.parts) (new : t.fragment k ∉ received) :
    (packets.filter fun u => u.Complete (received ++ [t.fragment k])).Perm
      ((packets.filter fun u => u.Complete received) ++
        if t.Complete (received ++ [t.fragment k]) then [t] else []) := by
  have before : ¬ t.Complete received := fun complete =>
    new (complete _ ((load.split t member).mem_datagrams.mpr ⟨k, inside, rfl⟩))
  have nodup : ((packets.filter fun u => u.Complete received) ++
      if t.Complete (received ++ [t.fragment k]) then [t] else []).Nodup := by
    refine List.nodup_append.mpr ⟨load.nodup.filter _, by split <;> simp, ?_⟩
    rintro u listed v last rfl
    split at last
    · rw [List.mem_singleton.mp last, List.mem_filter, decide_eq_true_eq] at listed
      exact before listed.2
    · cases last
  refine (List.perm_ext_iff_of_nodup (load.nodup.filter _) nodup).mpr fun u => ?_
  by_cases same : u = t
  · subst same
    by_cases complete : u.Complete (received ++ [u.fragment k]) <;>
      simp [complete, before, member]
  · have skipped : u ∉ (if t.Complete (received ++ [t.fragment k]) then [t] else []) := by
      split <;> simp [same]
    rw [List.mem_append, or_iff_left skipped]
    simp only [List.mem_filter, decide_eq_true_eq]
    exact and_congr_right fun other => complete_other load member inside other same

/-- After any part of the run the table tracks the packets, and the complete
ones have been delivered. -/
def Caught (packets : List Transmission) (done : List (Env × Bytes)) (state : LanPlay)
    (events : List Event) : Prop :=
  state.reassembly.Tracks packets (done.map Prod.snd) ∧
    (deliveries events).Perm ((packets.filter fun t => t.Complete (done.map Prod.snd)).map
      fun t => (t.packet, t.packet.length))

theorem caught_start {packets : List Transmission} (load : Workload packets) {s : LanPlay}
    (fresh : s.reassembly = .zero) : Caught packets [] s [] := by
  have none : (packets.filter fun t => t.Complete []) = [] := by
    refine List.filter_eq_nil_iff.mpr fun t member complete => ?_
    have split := load.split t member
    have many := split.fragmented.2
    have got := decide_eq_true_eq.mp complete _
      (split.mem_datagrams.mpr ⟨0, by omega, rfl⟩)
    cases got
  refine ⟨by rw [fresh]; exact Reassembly.tracks_zero packets, ?_⟩
  rw [List.map_nil, none]
  exact List.Perm.nil

theorem caught_step {packets : List Transmission} (load : Workload packets)
    {done : List (Env × Bytes)} {arrival : Env × Bytes} {state : LanPlay} {events : List Event}
    (sent : arrival.2 ∈ packets.flatMap Transmission.datagrams)
    (new : arrival.2 ∉ done.map Prod.snd)
    (bounded : (packets.filter fun t =>
      t.Partial (done.map Prod.snd ++ [arrival.2])).length ≤ lcFragCount)
    (caught : Caught packets done state events) :
    Caught packets (done ++ [arrival]) (receive arrival.1 arrival.2 state).state
      (events ++ (receive arrival.1 arrival.2 state).events) := by
  obtain ⟨env, datagram⟩ := arrival
  obtain ⟨t, member, carried⟩ := List.mem_flatMap.mp sent
  have split := load.split t member
  obtain ⟨k, inside, same⟩ := split.mem_datagrams.mp carried
  dsimp only at same new bounded ⊢
  subst same
  obtain ⟨tracks, delivered⟩ := caught
  have advance := Reassembly.step_advance split.wf split.fragmented inside
    fun i keyed => (tracks.owner load member keyed).1
  obtain ⟨table, emitted, _⟩ := receive_fragment split.wf split.fragmented inside env state
  obtain ⟨tracksAfter, handed⟩ := tracks.advance load member inside new bounded advance
  refine ⟨by rw [table, List.map_append]; exact tracksAfter, ?_⟩
  rw [deliveries_append, emitted, handed, List.map_append]
  refine List.Perm.trans (delivered.append_right _) ?_
  have complete := (filter_complete_snoc load member inside new).map
    fun t => (t.packet, t.packet.length)
  rw [List.map_append, apply_ite (List.map _)] at complete
  exact complete.symm

theorem receiveAll_caught {packets : List Transmission} (load : Workload packets)
    (arrivals : List (Env × Bytes)) (nodup : (arrivals.map Prod.snd).Nodup)
    (sent : ∀ datagram ∈ arrivals.map Prod.snd, datagram ∈ packets.flatMap Transmission.datagrams)
    (bounded : ∀ received, received <+: arrivals.map Prod.snd →
      (packets.filter fun t => t.Partial received).length ≤ lcFragCount)
    {s : LanPlay} (fresh : s.reassembly = .zero) :
    Caught packets arrivals (receiveAll arrivals s).state (receiveAll arrivals s).events := by
  refine Proc.runAll_induction _ s (Caught packets) arrivals (caught_start load fresh) ?_
  intro done arrival state events within caught
  have upTo := within.map Prod.snd
  rw [List.map_append] at upTo
  refine caught_step load (sent _ (upTo.subset (by simp))) ?_ (bounded _ upTo) caught
  exact fun again => (List.nodup_append.mp (upTo.sublist.nodup nodup)).2.2 _ again _
    (List.mem_singleton_self _) rfl

/-- The fragments of any packets, each fed once and in any order to a zeroed
table that never sees more than 100 partial packets: every packet is delivered
once, and no slot stays in use. -/
theorem reassembly_exact (packets : List Transmission) (load : Workload packets)
    (arrivals : List (Env × Bytes))
    (order : (arrivals.map Prod.snd).Perm (packets.flatMap Transmission.datagrams))
    (bounded : ∀ received, received <+: arrivals.map Prod.snd →
      (packets.filter fun t => t.Partial received).length ≤ lcFragCount)
    (s : LanPlay) (fresh : s.reassembly = .zero) :
    (deliveries (receiveAll arrivals s).events).Perm
        (packets.map fun t => (t.packet, t.packet.length)) ∧
      ∀ i, ((receiveAll arrivals s).state.reassembly.frags i).used = false := by
  obtain ⟨tracks, delivered⟩ := receiveAll_caught load arrivals (order.nodup_iff.mpr load.nodup_datagrams)
    (fun _ arrived => order.subset arrived) bounded fresh
  have complete : ∀ t ∈ packets, t.Complete (arrivals.map Prod.snd) := fun t member datagram sent =>
    order.symm.subset (List.mem_flatMap.mpr ⟨t, member, sent⟩)
  constructor
  · rwa [List.filter_eq_self.mpr (by simpa using complete)] at delivered
  · intro i
    by_contra used
    obtain ⟨t, member, ⟨_, datagram, sent, missing⟩, _⟩ := tracks.held i (by simpa using used)
    exact missing (complete t member datagram sent)

theorem reassembly_exact_reversed :
    let t : Transmission := ⟨500, 0, List.replicate 1000 0⟩
    let u : Transmission := ⟨500, 65535, List.replicate 1500 1⟩
    let arrivals := ([t, u].flatMap Transmission.datagrams).reverse.map
      fun datagram => ((⟨0, id, fun _ => []⟩ : Env), datagram)
    let final := receiveAll arrivals (lanPlayStart 0 none (fun _ => 0) fun _ => 0)
    (deliveries final.events).Perm [(t.packet, t.packet.length), (u.packet, u.packet.length)] ∧
      ∀ i, (final.state.reassembly.frags i).used = false := by
  intro t u arrivals
  have first : t.packet.length = 1000 := List.length_replicate
  have second : u.packet.length = 1500 := List.length_replicate
  have load : Workload [t, u] := by
    refine ⟨?_, ?_⟩
    · rintro v listed
      rcases List.mem_pair.mp listed with rfl | rfl
      · exact ⟨⟨by decide, by rw [first]; decide⟩, by rw [first]; decide⟩
      · exact ⟨⟨by decide, by rw [second]⟩, by rw [second]; decide⟩
    · have apart : t.key ≠ u.key := fun same => absurd (congrArg Prod.snd same) (by decide)
      simpa using apart
  have datagrams : arrivals.map Prod.snd = ([t, u].flatMap Transmission.datagrams).reverse := by
    simp [arrivals]
  refine reassembly_exact [t, u] load arrivals (datagrams ▸ List.reverse_perm _) ?_ _ rfl
  intro received _
  exact le_trans (List.length_filter_le _ _) (by decide)

end SwitchLanPlay
