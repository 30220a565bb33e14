import SwitchLanPlay.Client.Integrity
import Mathlib.Data.Finset.Card
import Mathlib.Data.Fintype.Card

/-!
# A full table

A fragment of a new packet needs a slot.  When none is free, the slot with the
greatest age is taken over, but only if its age exceeds the number of slots.
A hundred packets of which only the first fragment arrived have ages from one
to a hundred: from then on every new packet is ignored, and since the counter
advances only when a slot is keyed anew, none of them ever gets older.
-/

namespace SwitchLanPlay

open Library SlotTable

section Full

variable {t : Transmission} (wf : t.WellFormed) (fragmented : t.Fragmented) {k : Nat}
  (inside : k < t.parts) (env : Env) (s : LanPlay)

include wf fragmented inside

/-- A fragment whose packet has no slot is ignored exactly when all slots are
in use and none is older than the number of slots. -/
theorem receive_ignored_iff :
    .fragmentIgnored ∈ (receive env (t.fragment k) s).events ↔
      (∀ i, ¬ (s.reassembly.frags i).KeyedTo t) ∧ (∀ i, (s.reassembly.frags i).used = true) ∧
        ∀ i, s.reassembly.dif i ≤ lcFragCount := by
  rw [(receive_fragment wf fragmented inside env s).2.2, Reassembly.obtain_eq_none_iff]
  simp only [LanClientFragment.matches_wireHeader]

end Full

/-! ## Filling the table -/

theorem int32_of_small {value : Int} (low : -2 ^ 31 ≤ value) (high : value < 2 ^ 31) :
    int32 value = value := by
  unfold int32
  rw [Int.bmod_def]
  split <;> omega

/-- The slots in use. -/
def Reassembly.live (table : Reassembly) : Finset (Fin lcFragCount) :=
  Finset.univ.filter fun i => (table.frags i).used = true

/-- The table after the first fragments of `count` packets. -/
structure Reassembly.Filled (table : Reassembly) (source : Nat → Transmission) (count : Nat) :
    Prop where
  counter : table.localId = count
  full : table.live.card = count
  young : ∀ i, (table.frags i).used = true → (table.frags i).localId < count
  keyed : ∀ i, (table.frags i).used = true → ∃ n < count, (table.frags i).KeyedTo (source n)

namespace Reassembly

variable {table : Reassembly} {source : Nat → Transmission} {count : Nat}

theorem exists_free (room : table.live.card < lcFragCount) : ∃ i, (table.frags i).used = false := by
  by_contra none
  have all : table.live = Finset.univ :=
    Finset.filter_true_of_mem fun i _ => by simpa using (not_exists.mp none) i
  rw [all, Finset.card_univ, Fintype.card_fin] at room
  exact absurd room (Nat.lt_irrefl _)

theorem used_of_card_live (hundred : table.live.card = lcFragCount) (i : Fin lcFragCount) :
    (table.frags i).used = true := by
  have all : table.live = Finset.univ := by
    rw [← Finset.card_eq_iff_eq_univ, hundred, Fintype.card_fin]
  have listed : i ∈ table.live := all ▸ Finset.mem_univ i
  exact (Finset.mem_filter.mp listed).2

theorem filled_zero : Reassembly.zero.Filled source 0 := by
  have none : Reassembly.zero.live = ∅ := Finset.filter_eq_empty_iff.mpr fun i _ used => by cases used
  refine ⟨rfl, by rw [none]; rfl, ?_, ?_⟩ <;>
    · intro i used
      cases used

theorem Filled.absent (filled : table.Filled source count)
    (distinct : ∀ n < count, (source n).key ≠ (source count).key) (i : Fin lcFragCount) :
    ¬ (table.frags i).KeyedTo (source count) := by
  intro here
  obtain ⟨n, before, there⟩ := filled.keyed i here.1
  exact distinct n before (there.2.symm.trans here.2)

/-- The first fragment of the next packet takes a free slot and keeps it. -/
theorem Filled.advance (filled : table.Filled source count) (room : count < lcFragCount)
    (fragmented : (source count).Fragmented)
    (distinct : ∀ n < count, (source n).key ≠ (source count).key)
    {outcome : Reassembly × Option (Bytes × Nat)} (advance : table.Advance (source count) 0 outcome) :
    outcome.1.Filled source (count + 1) := by
  have absent := filled.absent distinct
  obtain ⟨free, unused⟩ := exists_free (filled.full ▸ room)
  have allUsed : ¬ ∀ j, (table.frags j).used = true := fun used => by simp [used free] at unused
  cases advance with
  | ignored full =>
      exact absurd (Reassembly.obtain_eq_none_iff.mp full).2.1 allUsed
  | completed i slot after stores all changed =>
      -- the second bit is not set by the first fragment
      rcases (stores.bits 1).mp (all 1 fragmented.2) with ⟨here, _⟩ | second
      · exact absurd here (absent i)
      · cases second
  | stored i slot after stores missing changed =>
      cases stores.place with
      | keyed here _ _ => exact absurd here (absent i)
      | allocated _ place newAge counted =>
          have unusedHere := place.resolve_right fun evicted => allUsed evicted.1
          have here : after.frags i = slot := by rw [changed, Function.update_self]
          have there : ∀ {j}, j ≠ i → after.frags j = table.frags j := fun elsewhere => by
            rw [changed, Function.update_of_ne elsewhere]
          have counter := filled.counter
          have few : count < 100 := room
          have live : after.live = insert i table.live := by
            ext j
            by_cases same : j = i
            · subst same
              simp [live, here, stores.used]
            · simp [live, there same, same]
          refine ⟨?_, ?_, fun j used => ?_, fun j used => ?_⟩
          · rw [counted, int32_of_small (by omega) (by omega), counter]
            rfl
          · rw [live, Finset.card_insert_of_notMem (by simp [Reassembly.live, unusedHere]),
              filled.full]
          · by_cases same : j = i
            · subst same
              rw [here, newAge]
              omega
            · rw [there same] at used ⊢
              exact Nat.lt_succ_of_lt (filled.young j used)
          · by_cases same : j = i
            · subst same
              exact ⟨count, Nat.lt_succ_self count, here ▸ ⟨stores.used, stores.holds.key⟩⟩
            · rw [there same] at used ⊢
              obtain ⟨n, before, keyed⟩ := filled.keyed j used
              exact ⟨n, Nat.lt_succ_of_lt before, keyed⟩

/-- A table filled with a hundred packets has no slot old enough to be taken
over. -/
theorem Filled.stuck (filled : table.Filled source count) (hundred : count = lcFragCount) :
    (∀ i, (table.frags i).used = true) ∧ ∀ i, table.dif i ≤ lcFragCount := by
  subst hundred
  have used := used_of_card_live filled.full
  refine ⟨used, fun i => ?_⟩
  have young : (table.frags i).localId < 100 := filled.young i (used i)
  have counter : table.localId = 100 := filled.counter
  change labs (int32 ((table.frags i).localId - table.localId)) ≤ 100
  rw [counter, int32_of_small (by omega) (by omega), labs, if_pos (by omega),
    int32_of_small (by omega) (by omega)]
  omega

end Reassembly

/-- The arrivals of the first fragments of the packets before `count`. -/
def firstFragments (env : Env) (source : Nat → Transmission) (count : Nat) : List (Env × Bytes) :=
  (List.range count).map fun n => (env, (source n).fragment 0)

/-- The first fragments of up to a hundred packets fill as many slots. -/
theorem receiveAll_filled (env : Env) (source : Nat → Transmission)
    (wf : ∀ n, (source n).WellFormed) (fragmented : ∀ n, (source n).Fragmented)
    (distinct : ∀ m n, m < n → n ≤ lcFragCount → (source m).key ≠ (source n).key)
    (s : LanPlay) (fresh : s.reassembly = .zero) (count : Nat) (bound : count ≤ lcFragCount) :
    (receiveAll (firstFragments env source count) s).state.reassembly.Filled source count := by
  induction count with
  | zero =>
      change s.reassembly.Filled source 0
      rw [fresh]
      exact Reassembly.filled_zero
  | succ count ih =>
      have filled := ih (by omega)
      have apart : ∀ n < count, (source n).key ≠ (source count).key := fun n before =>
        distinct n count before (by omega)
      have many := (fragmented count).2
      have advance := Reassembly.step_advance (wf count) (fragmented count) (by omega : 0 < _)
        fun i keyed => absurd keyed (filled.absent apart i)
      have table := (receive_fragment (wf count) (fragmented count) (by omega : 0 < _) env
        (receiveAll (firstFragments env source count) s).state).1
      unfold firstFragments receiveAll at *
      rw [List.range_succ, List.map_append, List.map_singleton, Proc.runAll_snoc_state, table]
      exact filled.advance bound (fragmented count) apart advance

/-- The first fragments of any hundred packets with different keys, and
nothing else of them: every fragment of one more packet is ignored. -/
theorem receive_after_hundred_ignored (env : Env) (source : Nat → Transmission)
    (wf : ∀ n, (source n).WellFormed) (fragmented : ∀ n, (source n).Fragmented)
    (distinct : ∀ m n, m < n → n ≤ lcFragCount → (source m).key ≠ (source n).key)
    (s : LanPlay) (fresh : s.reassembly = .zero) (count : Nat) (hundred : count = lcFragCount)
    (t : Transmission) (last : source count = t) (k : Nat) (inside : k < t.parts) :
    (∀ i, ¬ ((receiveAll (firstFragments env source count) s).state.reassembly.frags i).KeyedTo t) ∧
      .fragmentIgnored ∈ (receive env (t.fragment k)
        (receiveAll (firstFragments env source count) s).state).events := by
  subst last
  have filled := receiveAll_filled env source wf fragmented distinct s fresh count (by omega)
  have absent := filled.absent fun n before => distinct n count before (by omega)
  refine ⟨absent, ?_⟩
  rw [receive_ignored_iff (wf count) (fragmented count) inside]
  exact ⟨absent, filled.stuck hundred⟩

/-- Once all slots are in use and none is old enough, no fragment of a packet
without a slot changes anything: as long as the packets in the table are not
completed, every other packet is lost. -/
theorem full_table_stays_full (s : LanPlay) (full : ∀ i, (s.reassembly.frags i).used = true)
    (young : ∀ i, s.reassembly.dif i ≤ lcFragCount) (arrivals : List (Env × Bytes))
    (others : ∀ arrival ∈ arrivals, ∃ t : Transmission, t.WellFormed ∧ t.Fragmented ∧
      (∀ i, ¬ (s.reassembly.frags i).KeyedTo t) ∧ ∃ k < t.parts, arrival.2 = t.fragment k) :
    (receiveAll arrivals s).state.reassembly = s.reassembly ∧
      deliveries (receiveAll arrivals s).events = [] := by
  refine Proc.runAll_induction _ s
    (fun _ state events => state.reassembly = s.reassembly ∧ deliveries events = [])
    arrivals ⟨rfl, rfl⟩ ?_
  rintro done ⟨env, datagram⟩ state events within ⟨same, none⟩
  obtain ⟨t, wf, fragmented, absent, k, inside, carried⟩ :=
    others (env, datagram) (within.subset (by simp))
  change datagram = t.fragment k at carried
  subst carried
  obtain ⟨table, delivered, _⟩ := receive_fragment wf fragmented inside env state
  have lost : state.reassembly.obtain (t.wireHeader k) = Option.none := by
    rw [same, Reassembly.obtain_eq_none_iff]
    exact ⟨fun i => mt LanClientFragment.matches_wireHeader.mp (absent i), full, young⟩
  have unchanged : state.reassembly.step (t.wireHeader k) (t.chunk k) =
      (state.reassembly, Option.none) := by
    simp only [Reassembly.step, lost]
  rw [unchanged] at table delivered
  refine ⟨table.trans same, ?_⟩
  rw [deliveries_append, none, delivered]
  rfl

/-- In every state, a fragment of a packet that has no slot obtains one exactly
when a slot is free, or some slot is older than the number of slots. -/
theorem absent_fragment_obtains_slot_iff (t : Transmission) (wf : t.WellFormed)
    (fragmented : t.Fragmented) (k : Nat) (inside : k < t.parts) (env : Env) (s : LanPlay)
    (absent : ∀ i, ¬ (s.reassembly.frags i).KeyedTo t) :
    .fragmentIgnored ∉ (receive env (t.fragment k) s).events ↔
      (∃ i, (s.reassembly.frags i).used = false) ∨
        ∃ i, (lcFragCount : Int) < s.reassembly.dif i := by
  rw [receive_ignored_iff wf fragmented inside env s, and_iff_right absent, not_and_or]
  push Not
  simp only [Bool.not_eq_true]

/-- A table without a free slot, where all slots are 101 allocations old. -/
def agedTable : Reassembly where
  frags i := { Reassembly.zero.frags i with used := true, id := i.val + 1 }
  localId := 101

/-- Both a table with free slots and a full one whose slots are old enough. -/
theorem absent_fragment_obtains_slot_evicted :
    let start := lanPlayStart 0 none (fun _ => 0) fun _ => 0
    let aged := { start with reassembly := agedTable }
    .fragmentIgnored ∉ (receive ⟨0, id, fun _ => []⟩ ((stepTransmission 0 1000).fragment 0) start).events ∧
      (∀ i, (aged.reassembly.frags i).used = true) ∧
      .fragmentIgnored ∉ (receive ⟨0, id, fun _ => []⟩ ((stepTransmission 0 1000).fragment 0) aged).events := by
  intro start aged
  have within : 1000 ≤ 1000 := Nat.le_refl _
  have obtains := fun s : LanPlay => absent_fragment_obtains_slot_iff (stepTransmission 0 1000)
    (stepTransmission_wellFormed within 0) (stepTransmission_fragmented within 0) 0
    (by rw [stepTransmission_parts within]; decide) ⟨0, id, fun _ => []⟩ s
  refine ⟨(obtains start ?_).mpr (.inl ⟨0, rfl⟩), fun _ => rfl, (obtains aged ?_).mpr (.inr ⟨0, by decide +kernel⟩)⟩
  · intro i keyed
    cases keyed.1
  · intro i keyed
    have id : i.val + 1 = 0 % 65536 := congrArg Prod.snd keyed.2
    omega

/-- A hundred packets of which only the first fragment arrives: the first
fragment of one more packet is ignored. -/
theorem hundred_unfinished_packets_wedge :
    (∀ arrival ∈ firstFragments ⟨0, id, fun _ => []⟩ (fun n => stepTransmission n 1000) 100,
        ∃ u : Transmission, u.WellFormed ∧ arrival.2 ∈ u.datagrams) ∧
      (stepTransmission 100 1000).WellFormed ∧
      (stepTransmission 100 1000).fragment 0 ∈ (stepTransmission 100 1000).datagrams ∧
      (∀ i, ¬ ((receiveAll (firstFragments ⟨0, id, fun _ => []⟩ (fun n => stepTransmission n 1000) 100)
        (lanPlayStart 0 none (fun _ => 0) fun _ => 0)).state.reassembly.frags i).KeyedTo
          (stepTransmission 100 1000)) ∧
      .fragmentIgnored ∈ (receive ⟨0, id, fun _ => []⟩ ((stepTransmission 100 1000).fragment 0)
        (receiveAll (firstFragments ⟨0, id, fun _ => []⟩ (fun n => stepTransmission n 1000) 100)
          (lanPlayStart 0 none (fun _ => 0) fun _ => 0)).state).events := by
  have within : 1000 ≤ 1000 := Nat.le_refl _
  have wf := fun n => stepTransmission_wellFormed within n
  have fragmented := fun n => stepTransmission_fragmented within n
  have emitted : ∀ n, (stepTransmission n 1000).fragment 0 ∈ (stepTransmission n 1000).datagrams := by
    intro n
    rw [Transmission.datagrams_of_fragmented (fragmented n), stepTransmission_parts within]
    exact List.mem_cons_self
  have distinct : ∀ m n, m < n → n ≤ lcFragCount →
      (stepTransmission m 1000).key ≠ (stepTransmission n 1000).key := by
    intro m n before bound same
    have ids : m % 65536 = n % 65536 := congrArg Prod.snd same
    have few : n ≤ 100 := bound
    omega
  refine ⟨?_, wf 100, emitted 100, ?_⟩
  · intro arrival member
    obtain ⟨n, _, rfl⟩ := List.mem_map.mp member
    exact ⟨_, wf n, emitted n⟩
  · exact receive_after_hundred_ignored ⟨0, id, fun _ => []⟩ (fun n => stepTransmission n 1000) wf
      fragmented distinct (lanPlayStart 0 none (fun _ => 0) fun _ => 0) rfl 100 rfl
      (stepTransmission 100 1000) rfl 0 (by rw [stepTransmission_parts within]; decide)

end SwitchLanPlay
