import SwitchLanPlay.Client.Ages
import Mathlib.Order.Interval.Finset.Nat

/-!
# Evictions when the stamps wrap around

Packets that are completed advance the counter and leave the table as it was.
So the dates of a hundred unfinished packets can straddle a multiple of 65536,
and then the slot that is taken over is not the oldest one.
-/

namespace SwitchLanPlay

open Library SlotTable

/-! ## Packets that stay and packets that leave -/

/-- The packets of a sender, each in two parts, and no two of them with the
same key unless 65536 others lie between. -/
structure Numbered (source : Nat → Transmission) : Prop where
  wellFormed : ∀ n, (source n).WellFormed
  fragmented : ∀ n, (source n).Fragmented
  parts : ∀ n, (source n).parts = 2
  apart : ∀ m n, m < n → n < m + 65536 → (source m).key ≠ (source n).key

theorem numbered_stepTransmission : Numbered fun n => stepTransmission n 1000 := by
  have within : 1000 ≤ 1000 := Nat.le_refl _
  refine ⟨stepTransmission_wellFormed within, stepTransmission_fragmented within,
    stepTransmission_parts within, ?_⟩
  intro m n before near same
  have ids : m % 65536 = n % 65536 := congrArg Prod.snd same
  omega

/-- The slots in use have the first parts of the packets in `waiting`, and the
date of each is the number of its packet. -/
structure Reassembly.Holding (table : Reassembly) (source : Nat → Transmission)
    (waiting : Finset Nat) (ledger : Ledger) : Prop where
  dated : table.Dated ledger
  begun : ∀ i, (table.frags i).used = true →
    (table.frags i).Holds (source (ledger.born i)) ∧ (table.frags i).part.testBit 0 = true
  listed : ∀ n, n ∈ waiting ↔ ∃ i, (table.frags i).used = true ∧ ledger.born i = n

namespace Reassembly

variable {table : Reassembly} {source : Nat → Transmission} {waiting : Finset Nat} {ledger : Ledger}

/-- A packet that has no slot keys the slot it gets anew. -/
theorem allocates_of_absent {t : Transmission} (absent : ∀ j, ¬ (table.frags j).KeyedTo t) (k : Nat) :
    table.allocates (t.wireHeader k) = (table.obtain (t.wireHeader k)).map Prod.fst := by
  have unmatched : table.find (t.wireHeader k) = none :=
    find_eq_none_iff.mpr fun j => mt LanClientFragment.matches_wireHeader.mp (absent j)
  unfold allocates
  rw [unmatched]

theorem holding_zero : Reassembly.zero.Holding source ∅ .zero := by
  refine ⟨dated_zero, fun i used => ?_, fun n => ?_⟩
  · cases used
  · simp [Reassembly.zero]

namespace Holding

variable (holding : table.Holding source waiting ledger)

include holding

theorem mem_waiting {i : Fin lcFragCount} (used : (table.frags i).used = true) :
    ledger.born i ∈ waiting := (holding.listed _).mpr ⟨i, used, rfl⟩

theorem lt_count {n : Nat} (member : n ∈ waiting) : n < ledger.count := by
  obtain ⟨i, used, rfl⟩ := (holding.listed n).mp member
  exact holding.dated.past i used

/-- No packet that waits has the key of the latest one. -/
theorem born_of_keyedTo (numbered : Numbered source) {n : Nat} (latest : ledger.count ≤ n + 1)
    (recent : ∀ m ∈ waiting, n < m + 65536) {i : Fin lcFragCount}
    (keyed : (table.frags i).KeyedTo (source n)) : ledger.born i = n := by
  have past := holding.dated.past i keyed.1
  have near := recent _ (holding.mem_waiting keyed.1)
  have key := (holding.begun i keyed.1).1.key
  by_contra other
  exact numbered.apart (ledger.born i) n (by omega) near (key.symm.trans keyed.2)

theorem unkeyed (numbered : Numbered source) (recent : ∀ m ∈ waiting, ledger.count < m + 65536)
    (i : Fin lcFragCount) : ¬ (table.frags i).KeyedTo (source ledger.count) := by
  intro keyed
  have past := holding.dated.past i keyed.1
  rw [holding.born_of_keyedTo numbered (Nat.le_succ _) recent keyed] at past
  exact absurd past (Nat.lt_irrefl _)

theorem card_live : table.live.card = waiting.card := by
  have dates : waiting = table.live.image ledger.born := by
    ext n
    simp [holding.listed n, live]
  rw [dates, Finset.card_image_of_injOn]
  intro i inUse j inUse' same
  exact holding.dated.distinct i j (by simpa [live] using inUse) (by simpa [live] using inUse') same

/-- A slot comes into use for the next packet. -/
theorem add {i : Fin lcFragCount} {after : Reassembly}
    (dated : after.Dated (ledger.record (some i))) (idle : (table.frags i).used = false)
    (used : (after.frags i).used = true)
    (begun : (after.frags i).Holds (source ledger.count) ∧ (after.frags i).part.testBit 0 = true)
    (others : ∀ j, j ≠ i → after.frags j = table.frags j) :
    after.Holding source (insert ledger.count waiting) (ledger.record (some i)) := by
  have date := ledger.born_self i
  refine ⟨dated, fun j inUse => ?_, fun n => ?_⟩
  · by_cases here : j = i
    · subst here
      rw [date]
      exact begun
    · rw [others j here] at inUse ⊢
      rw [ledger.born_other here]
      exact holding.begun j inUse
  · rw [Finset.mem_insert, holding.listed n]
    constructor
    · rintro (rfl | ⟨j, inUse, rfl⟩)
      · exact ⟨i, used, date⟩
      · have other : j ≠ i := fun here => by
          rw [here, idle] at inUse
          cases inUse
        exact ⟨j, by rw [others j other]; exact inUse, ledger.born_other other⟩
    · rintro ⟨j, inUse, rfl⟩
      by_cases here : j = i
      · exact Or.inl (here ▸ date)
      · rw [others j here] at inUse
        exact Or.inr ⟨j, inUse, (ledger.born_other here).symm⟩

/-- The slot of a packet is released. -/
theorem remove {i : Fin lcFragCount} {after : Reassembly} (dated : after.Dated ledger)
    (inUse : (table.frags i).used = true) (released : (after.frags i).used = false)
    (others : ∀ j, j ≠ i → after.frags j = table.frags j) :
    after.Holding source (waiting.erase (ledger.born i)) ledger := by
  have elsewhere {j : Fin lcFragCount} (used : (after.frags j).used = true) : j ≠ i := fun here => by
    rw [here, released] at used
    cases used
  refine ⟨dated, fun j used => ?_, fun m => ?_⟩
  · have other := elsewhere used
    rw [others j other] at used ⊢
    exact holding.begun j used
  · rw [Finset.mem_erase, holding.listed m]
    constructor
    · rintro ⟨another, j, used, rfl⟩
      have other : j ≠ i := fun here => another (congrArg ledger.born here)
      exact ⟨j, by rw [others j other]; exact used, rfl⟩
    · rintro ⟨j, used, rfl⟩
      have other := elsewhere used
      rw [others j other] at used
      exact ⟨fun same => other (holding.dated.distinct j i used inUse same), j, used, rfl⟩

/-- The first part of the next packet takes a free slot and stays there. -/
theorem opened (numbered : Numbered source) (recent : ∀ m ∈ waiting, ledger.count < m + 65536)
    (room : waiting.card < lcFragCount) :
    ∃ i, table.allocates ((source ledger.count).wireHeader 0) = some i ∧
      (table.step ((source ledger.count).wireHeader 0) ((source ledger.count).chunk 0)).1.Holding
        source (insert ledger.count waiting) (ledger.record (some i)) := by
  have absent := holding.unkeyed numbered recent
  have wf := numbered.wellFormed ledger.count
  have two := numbered.parts ledger.count
  obtain ⟨free, unused⟩ := exists_free (holding.card_live ▸ room)
  have allocates := allocates_of_absent absent 0
  cases obtained : table.obtain ((source ledger.count).wireHeader 0) with
  | none =>
      have inUse := (obtain_eq_none_iff.mp obtained).2.1 free
      rw [unused] at inUse
      cases inUse
  | some choice =>
      obtain ⟨i, keyed⟩ := choice
      rw [obtained] at allocates
      have idle : (table.frags i).used = false := by
        rcases obtain_some obtained with ⟨here, _⟩ | ⟨_, _, idle | ⟨inUse, _⟩⟩
        · exact absurd (LanClientFragment.matches_wireHeader.mp here) (absent i)
        · exact idle
        · rw [inUse free] at unused
          cases unused
      obtain ⟨stores, _⟩ := obtain_stores wf (numbered.fragmented ledger.count) (by omega)
        (fun j here => absurd here (absent j)) obtained
      -- the second part is still missing
      have slot := step_stored obtained fun all => by
        rcases (stores.bits 1).mp ((stores.holds.complete_iff wf).mp all 1 (by omega)) with old | same
        · exact absent i old.1
        · cases same
      have fits : ((source ledger.count).wireHeader 0).Fits ((source ledger.count).chunk 0) :=
        wf.chunk_fits (Nat.lt_of_lt_of_eq Nat.zero_lt_two two.symm)
      have dated := holding.dated.step fun _ => fits
      rw [allocates] at dated
      refine ⟨i, allocates, holding.add dated idle ?_ ?_ (step_of_allocates_some (fun _ => fits) allocates).2.2⟩
      · rw [slot]
        exact stores.used
      · rw [slot]
        exact ⟨stores.holds, (stores.bits 0).mpr (Or.inr rfl)⟩

/-- The second part of the latest packet releases its slot. -/
theorem closed (numbered : Numbered source) {n : Nat} (latest : ledger.count = n + 1)
    (recent : ∀ m ∈ waiting, n < m + 65536) (member : n ∈ waiting) :
    table.allocates ((source n).wireHeader 1) = none ∧
      (table.step ((source n).wireHeader 1) ((source n).chunk 1)).1.Holding source
        (waiting.erase n) ledger := by
  have wf := numbered.wellFormed n
  have two := numbered.parts n
  obtain ⟨i, inUse, date⟩ := (holding.listed n).mp member
  have holds : (table.frags i).Holds (source n) := date ▸ (holding.begun i inUse).1
  -- the slot of the packet is the only one with its key
  have only {j : Fin lcFragCount} (keyed : (table.frags j).KeyedTo (source n)) : j = i := by
    have same := holding.born_of_keyedTo numbered (Nat.le_of_eq latest) recent keyed
    exact holding.dated.distinct j i keyed.1 inUse (same.trans date.symm)
  have found : table.find ((source n).wireHeader 1) = some i := by
    cases search : table.find ((source n).wireHeader 1) with
    | none =>
        have absent := find_eq_none_iff.mp search i
        exact absurd (LanClientFragment.matches_wireHeader.mpr ⟨inUse, holds.key⟩) absent
    | some j => rw [only (LanClientFragment.matches_wireHeader.mp (find_matches search))]
  have kept : table.allocates ((source n).wireHeader 1) = none := by
    unfold allocates
    rw [found]
  have obtained : table.obtain ((source n).wireHeader 1) = some (i, table) := by
    unfold Reassembly.obtain
    rw [found]
  obtain ⟨stores, _⟩ := obtain_stores wf (numbered.fragmented n) (by omega)
    (fun j keyed => only keyed ▸ holds) obtained
  have released := step_completed obtained <| (stores.holds.complete_iff wf).mpr fun k below => by
    rcases (by omega : k = 0 ∨ k = 1) with rfl | rfl
    · exact (stores.bits 0).mpr (Or.inl ⟨⟨inUse, holds.key⟩, (holding.begun i inUse).2⟩)
    · exact (stores.bits 1).mpr (Or.inr rfl)
  have fits : ((source n).wireHeader 1).Fits ((source n).chunk 1) :=
    wf.chunk_fits (Nat.lt_of_lt_of_eq Nat.one_lt_two two.symm)
  have dated := holding.dated.step fun _ => fits
  rw [kept] at dated
  have after := holding.remove dated inUse released fun j other => step_other fits obtained other
  rw [date] at after
  exact ⟨kept, after⟩

end Holding

end Reassembly

/-- A fragment that was sent fits. -/
theorem fragmentFits_fragment {t : Transmission} (wf : t.WellFormed) (fragmented : t.Fragmented) {k : Nat}
    (inside : k < t.parts) (table : Reassembly) : FragmentFits table (t.fragment k) := by
  have header : headerAt (t.fragment k) 1 = t.wireHeader k := by
    simpa using Transmission.headerAt_fragment wf fragmented inside []
  have chunk : (t.chunk k).length = (t.wireHeader k).len := length_slice _ _ _
  have ends := wf.chunk_fits inside
  unfold FragmentFits
  rw [header, t.length_fragment k]
  rw [chunk] at ends
  exact ⟨Nat.le_add_right _ _, fun _ => ⟨Nat.le_refl _, ends⟩⟩

/-- Runs of fragments that were sent. -/
theorem allFit_of_sent {arrivals : List (Env × Bytes)}
    (sent : ∀ arrival ∈ arrivals, ∃ t : Transmission, t.WellFormed ∧ t.Fragmented ∧
      ∃ k < t.parts, arrival.2 = t.fragment k) (s : LanPlay) : AllFit s arrivals := by
  refine Proc.along_of_forall (fun state arrival member _ => ?_) s
  obtain ⟨t, wf, fragmented, k, inside, same⟩ := sent arrival member
  rw [same]
  exact fragmentFits_fragment wf fragmented inside _

/-- A fragment that was sent keys the slot that its header asks for. -/
theorem allocates_fragment {t : Transmission} (wf : t.WellFormed) (fragmented : t.Fragmented) {k : Nat}
    (inside : k < t.parts) (s : LanPlay) :
    s.allocates (t.fragment k) = s.reassembly.allocates (t.wireHeader k) := by
  have dispatches : DispatchesFrag (t.fragment k) := ⟨List.cons_ne_nil _ _, rfl⟩
  unfold LanPlay.allocates LanPlay.arrivalPtr
  rw [if_pos dispatches, Transmission.headerAt_fragment wf fragmented inside]

/-- After the arrivals the packets in `waiting` have slots, out of the first
`count` ones. -/
def Held (s : LanPlay) (source : Nat → Transmission) (arrivals : List (Env × Bytes))
    (waiting : Finset Nat) (count : Nat) : Prop :=
  (receiveAll arrivals s).state.reassembly.Holding source waiting (allocations s arrivals) ∧
    (allocations s arrivals).count = count

/-- The first parts of `many` packets. -/
def opening (env : Env) (source : Nat → Transmission) (first many : Nat) : List (Env × Bytes) :=
  (List.range' first many).map fun n => (env, (source n).fragment 0)

/-- Both parts of each of `many` packets. -/
def finishing (env : Env) (source : Nat → Transmission) (first many : Nat) : List (Env × Bytes) :=
  (List.range' first many).flatMap fun n => [(env, (source n).fragment 0), (env, (source n).fragment 1)]

theorem allocations_snoc (s : LanPlay) (arrivals : List (Env × Bytes)) (env : Env) (datagram : Bytes) :
    allocations s (arrivals ++ [(env, datagram)]) =
      (allocations s arrivals).record ((receiveAll arrivals s).state.allocates datagram) := by
  unfold allocations
  rw [Proc.noting_snoc]
  rfl

/-- A run continues with one more fragment as its table does. -/
theorem holding_snoc {t : Transmission} (wf : t.WellFormed) (fragmented : t.Fragmented) {k : Nat}
    (inside : k < t.parts) {s : LanPlay} {arrivals : List (Env × Bytes)} (env : Env)
    {source : Nat → Transmission} {waiting : Finset Nat} {allocated : Option (Fin lcFragCount)}
    (allocates : (receiveAll arrivals s).state.reassembly.allocates (t.wireHeader k) = allocated)
    (after : ((receiveAll arrivals s).state.reassembly.step (t.wireHeader k) (t.chunk k)).1.Holding
      source waiting ((allocations s arrivals).record allocated)) :
    (receiveAll (arrivals ++ [(env, t.fragment k)]) s).state.reassembly.Holding source waiting
        (allocations s (arrivals ++ [(env, t.fragment k)])) ∧
      allocations s (arrivals ++ [(env, t.fragment k)]) =
        (allocations s arrivals).record allocated := by
  have table := (receive_fragment wf fragmented inside env (receiveAll arrivals s).state).1
  have ledger := allocations_snoc s arrivals env (t.fragment k)
  rw [allocates_fragment wf fragmented inside, allocates] at ledger
  refine ⟨?_, ledger⟩
  rw [ledger, receiveAll, Proc.runAll_snoc_state]
  change (receive env _ (receiveAll arrivals s).state).state.reassembly.Holding source _ _
  rw [table]
  exact after

theorem held_nil {s : LanPlay} (fresh : s.reassembly = .zero) (source : Nat → Transmission) :
    Held s source [] ∅ 0 := by
  refine ⟨?_, rfl⟩
  change s.reassembly.Holding source ∅ .zero
  rw [fresh]
  exact Reassembly.holding_zero

namespace Held

variable {s : LanPlay} {source : Nat → Transmission} (numbered : Numbered source)
  {arrivals : List (Env × Bytes)} {waiting : Finset Nat} {count : Nat}
  (held : Held s source arrivals waiting count) (env : Env)

include numbered held

theorem opened (recent : ∀ m ∈ waiting, count < m + 65536) (room : waiting.card < lcFragCount) :
    Held s source (arrivals ++ [(env, (source count).fragment 0)]) (insert count waiting)
      (count + 1) := by
  obtain ⟨holding, rfl⟩ := held
  have inside : 0 < (source (allocations s arrivals).count).parts := by
    rw [numbered.parts]
    decide
  obtain ⟨i, allocated, after⟩ := holding.opened numbered recent room
  obtain ⟨next, ledger⟩ := holding_snoc (numbered.wellFormed _) (numbered.fragmented _) inside env
    allocated after
  exact ⟨next, congrArg Ledger.count ledger⟩

theorem closed {n : Nat} (latest : count = n + 1) (recent : ∀ m ∈ waiting, n < m + 65536)
    (member : n ∈ waiting) :
    Held s source (arrivals ++ [(env, (source n).fragment 1)]) (waiting.erase n) count := by
  obtain ⟨holding, rfl⟩ := held
  have inside : 1 < (source n).parts := by
    rw [numbered.parts]
    decide
  obtain ⟨kept, after⟩ := holding.closed numbered latest recent member
  obtain ⟨next, ledger⟩ := holding_snoc (numbered.wellFormed n) (numbered.fragmented n) inside env
    kept after
  exact ⟨next, congrArg Ledger.count ledger⟩

/-- The first parts of several packets, as long as there are free slots. -/
theorem opening (many : Nat) (recent : ∀ m ∈ waiting, count + many ≤ m + 65536)
    (room : waiting.card + many ≤ lcFragCount) :
    Held s source (arrivals ++ opening env source count many)
      (waiting ∪ Finset.Ico count (count + many)) (count + many) := by
  induction many with
  | zero => simpa [SwitchLanPlay.opening] using held
  | succ many ih =>
      have before := ih (fun m member => by have := recent m member; omega) (by omega)
      have few : many < 100 := lt_of_lt_of_le (by omega) room
      have card : (waiting ∪ Finset.Ico count (count + many)).card < lcFragCount := by
        refine lt_of_le_of_lt (Finset.card_union_le _ _) ?_
        rw [Nat.card_Ico]
        omega
      have next := before.opened numbered env ?_ card
      · have shape : insert (count + many) (waiting ∪ Finset.Ico count (count + many)) =
            waiting ∪ Finset.Ico count (count + (many + 1)) := by
          rw [← Nat.add_assoc, Nat.Ico_succ_right_eq_insert_Ico (Nat.le_add_right _ _),
            Finset.union_insert]
        rw [shape, List.append_assoc] at next
        unfold SwitchLanPlay.opening at next ⊢
        rw [List.range'_1_concat, List.map_append]
        exact next
      · intro m member
        rcases Finset.mem_union.mp member with old | new
        · have := recent m old
          omega
        · have := Finset.mem_Ico.mp new
          omega

/-- Packets that are completed one after the other leave the table as it was. -/
theorem finishing (many : Nat) (recent : ∀ m ∈ waiting, count + many ≤ m + 65536)
    (room : waiting.card < lcFragCount) :
    Held s source (arrivals ++ finishing env source count many) waiting (count + many) := by
  induction many with
  | zero => simpa [SwitchLanPlay.finishing] using held
  | succ many ih =>
      have before := ih (fun m member => by have := recent m member; omega)
      have fresh : count + many ∉ waiting := fun member => by
        have past := before.1.lt_count member
        rw [before.2] at past
        exact absurd past (Nat.lt_irrefl _)
      have near : ∀ m ∈ waiting, count + many < m + 65536 := fun m member => by
        have := recent m member
        omega
      have next := (before.opened numbered env near room).closed numbered env rfl ?_
        (Finset.mem_insert_self _ _)
      · rw [Finset.erase_insert fresh, List.append_assoc, List.append_assoc] at next
        unfold SwitchLanPlay.finishing at next ⊢
        rw [List.range'_1_concat, List.flatMap_append]
        exact next
      · intro m member
        rcases Finset.mem_insert.mp member with rfl | old
        · omega
        · exact near m old

/-- With a hundred packets waiting, one of them old by its stamp, the next
packet takes over a slot that has no greater stamp. -/
theorem evicts (hundred : waiting.card = lcFragCount) (recent : ∀ m ∈ waiting, count < m + 65536)
    (few : count < 2 ^ 31) {n : Nat} (member : n ∈ waiting) (old : 100 + n % 65536 < count) :
    ∃ i, (receiveAll arrivals s).state.Evicts ((source count).fragment 0) i ∧
      (allocations s arrivals).born i ∈ waiting ∧
      (allocations s arrivals).stamp i ≤ n % 65536 := by
  obtain ⟨holding, rfl⟩ := held
  have full := Reassembly.used_of_card_live (holding.card_live.trans hundred)
  have absent := holding.unkeyed numbered recent
  have inside : 0 < (source (allocations s arrivals).count).parts := by
    rw [numbered.parts]
    decide
  obtain ⟨j, used, date⟩ := (holding.listed n).mp member
  have stamp : (allocations s arrivals).stamp j = n % 65536 := by rw [Ledger.stamp, date]
  have allocates := allocates_fragment (numbered.wellFormed _) (numbered.fragmented _) inside
    (receiveAll arrivals s).state
  cases obtained : (receiveAll arrivals s).state.reassembly.obtain
      ((source (allocations s arrivals).count).wireHeader 0) with
  | none =>
      have young := (Reassembly.obtain_eq_none_iff.mp obtained).2.2 j
      rw [holding.dated.dif_eq few used, stamp] at young
      have bound : (lcFragCount : Int) = 100 := rfl
      omega
  | some choice =>
      have allocated : (receiveAll arrivals s).state.reassembly.allocates
          ((source (allocations s arrivals).count).wireHeader 0) = some choice.1 := by
        rw [Reassembly.allocates_of_absent absent, obtained]
        rfl
      have smallest := (holding.dated.evicted_stamp few full allocated j).1
      rw [stamp] at smallest
      exact ⟨choice.1, ⟨full, allocates.trans allocated⟩, holding.mem_waiting (full _), smallest⟩

end Held

/-- Any number of packets are completed, then up to a hundred are left
unfinished. -/
theorem held_finishing_opening {s : LanPlay} {source : Nat → Transmission} (numbered : Numbered source)
    (fresh : s.reassembly = .zero) (env : Env) (first : Nat) {many : Nat} (few : many ≤ lcFragCount) :
    Held s source (finishing env source 0 first ++ opening env source first many)
      (Finset.Ico first (first + many)) (first + many) := by
  have completed := (held_nil fresh source).finishing numbered env first (by simp) (by decide)
  have held := completed.opening numbered env many (by simp) (by simpa using few)
  rw [Nat.zero_add, Finset.empty_union, List.nil_append] at held
  exact held

/-- In every run from the zeroed table, an eviction by a fragment that fits changes no
other slot, and where all fragments of the run fit, until the counter overflows it takes
the slot with the oldest date exactly when that slot is also the first with the smallest
stamp. -/
theorem eviction_oldest_iff (arrivals : List (Env × Bytes)) (s : LanPlay)
    (fresh : s.reassembly = .zero) (env : Env) (datagram : Bytes) (i : Fin lcFragCount)
    (evicts : (receiveAll arrivals s).state.Evicts datagram i) :
    (FragmentFits (receiveAll arrivals s).state.reassembly datagram →
      ∀ j, j ≠ i → (receive env datagram (receiveAll arrivals s).state).state.reassembly.frags j =
        (receiveAll arrivals s).state.reassembly.frags j) ∧
      (AllFit s arrivals → (allocations s arrivals).count < 2 ^ 31 →
        ((∀ j, (allocations s arrivals).born i ≤ (allocations s arrivals).born j) ↔
          (allocations s arrivals).OldestFirst)) := by
  obtain ⟨dispatches, allocated⟩ := evicts.fragment
  constructor
  · intro fits j other
    obtain ⟨payload, size, table⟩ := receive_step env dispatches (receiveAll arrivals s).state
    rw [table]
    exact (Reassembly.step_of_allocates_some (fits.copy size) allocated).2.2 j other
  · intro fit few
    exact Ledger.oldest_iff ((dated_receiveAll arrivals fresh fit).evicted_stamp few evicts.1 allocated)

/-- Packet 0 is left unfinished, packet 1 is completed, and 99 more are left
unfinished. -/
def oneBlockArrivals : List (Env × Bytes) :=
  opening ⟨0, id, fun _ => []⟩ (fun n => stepTransmission n 1000) 0 1 ++
    finishing ⟨0, id, fun _ => []⟩ (fun n => stepTransmission n 1000) 1 1 ++
    opening ⟨0, id, fun _ => []⟩ (fun n => stepTransmission n 1000) 2 99

theorem oneBlockArrivals_held :
    Held (lanPlayStart 0 none (fun _ => 0) fun _ => 0) (fun n => stepTransmission n 1000)
      oneBlockArrivals (Finset.Ico 0 1 ∪ Finset.Ico 2 101) 101 := by
  have start := held_nil (s := lanPlayStart 0 none (fun _ => 0) fun _ => 0) rfl
    fun n => stepTransmission n 1000
  have first := start.opening numbered_stepTransmission ⟨0, id, fun _ => []⟩ 1 (by simp) (by decide)
  have second := first.finishing numbered_stepTransmission ⟨0, id, fun _ => []⟩ 1
    (by simp) (by decide)
  exact second.opening numbered_stepTransmission ⟨0, id, fun _ => []⟩ 99 (by simp) (by decide)

theorem oneBlockArrivals_fit (s : LanPlay) : AllFit s oneBlockArrivals := by
  refine allFit_of_sent (fun arrival member => ?_) s
  have sent : ∃ n, ∃ k < 2, arrival.2 = (stepTransmission n 1000).fragment k := by
    simp only [oneBlockArrivals, opening, finishing, List.mem_append, List.mem_map, List.mem_flatMap,
      List.mem_cons, List.not_mem_nil, or_false] at member
    obtain (⟨n, _, rfl⟩ | ⟨n, _, rfl | rfl⟩) | ⟨n, _, rfl⟩ := member
    exacts [⟨n, 0, by decide, rfl⟩, ⟨n, 0, by decide, rfl⟩, ⟨n, 1, by decide, rfl⟩, ⟨n, 0, by decide, rfl⟩]
  obtain ⟨n, k, below, same⟩ := sent
  exact ⟨_, numbered_stepTransmission.wellFormed n, numbered_stepTransmission.fragmented n, k,
    by rwa [numbered_stepTransmission.parts], same⟩

/-- Packet 101 takes the slot of packet 0 over. -/
theorem eviction_oldest_one_block :
    ∃ i, (receiveAll oneBlockArrivals (lanPlayStart 0 none (fun _ => 0) fun _ => 0)).state.Evicts
        ((stepTransmission 101 1000).fragment 0) i ∧
      (∀ j, j ≠ i → (receive ⟨0, id, fun _ => []⟩ ((stepTransmission 101 1000).fragment 0)
          (receiveAll oneBlockArrivals (lanPlayStart 0 none (fun _ => 0) fun _ => 0)).state
          ).state.reassembly.frags j =
        (receiveAll oneBlockArrivals (lanPlayStart 0 none (fun _ => 0) fun _ => 0)
          ).state.reassembly.frags j) ∧
      ∀ j, (allocations (lanPlayStart 0 none (fun _ => 0) fun _ => 0) oneBlockArrivals).born i ≤
        (allocations (lanPlayStart 0 none (fun _ => 0) fun _ => 0) oneBlockArrivals).born j := by
  have held := oneBlockArrivals_held
  obtain ⟨i, evicts, _⟩ := held.evicts numbered_stepTransmission (by decide)
    (fun m member => by omega) (by decide) (n := 0) (by simp) (by decide)
  have few := held.2
  obtain ⟨others, oldest⟩ := eviction_oldest_iff oneBlockArrivals _ rfl ⟨0, id, fun _ => []⟩ _ i evicts
  have fits := fragmentFits_fragment (numbered_stepTransmission.wellFormed 101)
    (numbered_stepTransmission.fragmented 101) (k := 0) (by rw [numbered_stepTransmission.parts]; decide)
  exact ⟨i, evicts, others (fits _), (oldest (oneBlockArrivals_fit _) (by omega)).mpr
    (held.1.dated.oldestFirst evicts.1 (by omega))⟩

/-- The packets before 65500 are completed, and a hundred more are left
unfinished. -/
def straddlingArrivals : List (Env × Bytes) :=
  finishing ⟨0, id, fun _ => []⟩ (fun n => stepTransmission n 1000) 0 65500 ++
    opening ⟨0, id, fun _ => []⟩ (fun n => stepTransmission n 1000) 65500 100

/-- Packet 65600 takes the slot of packet 65536 over, and 36 packets that came
before that one keep theirs. -/
theorem eviction_not_oldest_straddling :
    ∃ i k, (receiveAll straddlingArrivals (lanPlayStart 0 none (fun _ => 0) fun _ => 0)).state.Evicts
        ((stepTransmission 65600 1000).fragment 0) i ∧
      (allocations (lanPlayStart 0 none (fun _ => 0) fun _ => 0) straddlingArrivals).born i = 65536 ∧
      (allocations (lanPlayStart 0 none (fun _ => 0) fun _ => 0) straddlingArrivals).born k = 65500 := by
  have held : Held (lanPlayStart 0 none (fun _ => 0) fun _ => 0) (fun n => stepTransmission n 1000)
      straddlingArrivals (Finset.Ico 65500 65600) 65600 :=
    held_finishing_opening numbered_stepTransmission rfl _ 65500 (Nat.le_refl 100)
  have recent : ∀ m ∈ Finset.Ico 65500 65600, 65600 < m + 65536 := by
    intro m member
    have bounds := Finset.mem_Ico.mp member
    omega
  obtain ⟨i, evicts, waits, stamp⟩ := held.evicts numbered_stepTransmission (by rw [Nat.card_Ico])
    recent (by decide) (n := 65536) (Finset.mem_Ico.mpr (by decide)) (by decide)
  obtain ⟨k, _, date⟩ := (held.1.listed 65500).mp (Finset.mem_Ico.mpr (by decide))
  have bounds := Finset.mem_Ico.mp waits
  unfold Ledger.stamp at stamp
  exact ⟨i, k, evicts, by omega, date⟩

end SwitchLanPlay
