import SwitchLanPlay.Client.FragmentBounds
import SwitchLanPlay.Client.Eviction
import Mathlib.Data.Finset.Max

/-!
# The age of a slot

A slot that is keyed anew is stamped with the counter `local_id`, of which the
slot keeps 16 bits.  The ledger beside a run dates the slots by the counter
itself.  Eviction compares stamps: it takes the oldest slot exactly when the
oldest date has the smallest stamp.
-/

namespace SwitchLanPlay

open Library SlotTable

/-! ## Dates -/

/-- The slot that a fragment keys anew. -/
def Reassembly.allocates (table : Reassembly) (header : LanClientFragmentHeader) :
    Option (Fin lcFragCount) :=
  match table.find header with
  | some _ => none
  | none => (table.obtain header).map Prod.fst

instance (datagram : Bytes) : Decidable (DispatchesFrag datagram) :=
  inferInstanceAs (Decidable (_ ∧ _))

/-- The slot that a datagram keys anew. -/
def LanPlay.allocates (s : LanPlay) (datagram : Bytes) : Option (Fin lcFragCount) :=
  if DispatchesFrag datagram then
    s.reassembly.allocates (headerAt (s.arrivalPtr datagram).memory 1)
  else none

/-- How often a slot was keyed anew, and for each slot the number of the last
time it was. -/
structure Ledger where
  count : Nat
  born : Fin lcFragCount → Nat

def Ledger.zero : Ledger := ⟨0, fun _ => 0⟩

def Ledger.record (ledger : Ledger) : Option (Fin lcFragCount) → Ledger
  | none => ledger
  | some i => ⟨ledger.count + 1, Function.update ledger.born i ledger.count⟩

theorem Ledger.born_self (ledger : Ledger) (i : Fin lcFragCount) :
    (ledger.record (some i)).born i = ledger.count := Function.update_self _ _ _

theorem Ledger.born_other (ledger : Ledger) {i j : Fin lcFragCount} (other : j ≠ i) :
    (ledger.record (some i)).born j = ledger.born j := Function.update_of_ne other _ _

/-- The ledger of a run. -/
def allocations (s : LanPlay) (arrivals : List (Env × Bytes)) : Ledger :=
  Proc.noting (fun arrival => receive arrival.1 arrival.2)
    (fun state arrival ledger => ledger.record (state.allocates arrival.2)) s .zero arrivals

/-- The copy into the slot does not leave it. -/
def LanClientFragmentHeader.Fits (header : LanClientFragmentHeader) (payload : Bytes) : Prop :=
  header.pmtu * header.part + payload.length ≤ etherMtu

/-- What the table knows of the dates. -/
structure Reassembly.Dated (table : Reassembly) (ledger : Ledger) : Prop where
  counter : table.localId = int32 ledger.count
  stamp : ∀ i, (table.frags i).used = true → (table.frags i).localId = ledger.born i % 65536
  past : ∀ i, (table.frags i).used = true → ledger.born i < ledger.count
  distinct : ∀ i j, (table.frags i).used = true → (table.frags j).used = true →
    ledger.born i = ledger.born j → i = j

namespace Reassembly

variable {table : Reassembly} {header : LanClientFragmentHeader} {ledger : Ledger}

theorem dated_zero : Reassembly.zero.Dated .zero := by
  have idle (i : Fin lcFragCount) : (Reassembly.zero.frags i).used ≠ true := by
    intro used
    cases used
  exact ⟨(int32_of_small (by decide) (by decide)).symm, fun i used => absurd used (idle i),
    fun i used => absurd used (idle i), fun i _ used => absurd used (idle i)⟩

/-- A slot keyed anew was not in use, or was evicted from a full table. -/
theorem allocates_some {i : Fin lcFragCount} (allocated : table.allocates header = some i) :
    table.obtain header = some (i, table.allocate i header) ∧
      ∀ j, ¬ (table.frags j).Matches header := by
  unfold allocates at allocated
  cases found : table.find header with
  | some j =>
      rw [found] at allocated
      cases allocated
  | none =>
      rw [found] at allocated
      have absent := find_eq_none_iff.mp found
      obtain ⟨⟨i', keyed⟩, obtained, rfl⟩ := Option.map_eq_some_iff.mp allocated
      rcases obtain_some obtained with ⟨here, _⟩ | ⟨_, rfl, _⟩
      · exact absurd here (absent i')
      · exact ⟨obtained, absent⟩

/-- A fragment that keys no slot anew goes to a slot keyed before, or nowhere. -/
theorem allocates_none {i : Fin lcFragCount} {keyed : Reassembly}
    (kept : table.allocates header = none) (obtained : table.obtain header = some (i, keyed)) :
    (table.frags i).used = true ∧ keyed = table := by
  unfold allocates at kept
  cases found : table.find header with
  | some j =>
      unfold Reassembly.obtain at obtained
      rw [found] at obtained
      cases obtained
      exact ⟨(find_matches found).1, rfl⟩
  | none =>
      rw [found, obtained] at kept
      cases kept

/-- Every slot but the one that was obtained stays as it was. -/
theorem step_other {i : Fin lcFragCount} {keyed : Reassembly} {payload : Bytes} (fits : header.Fits payload)
    (obtained : table.obtain header = some (i, keyed)) {j : Fin lcFragCount} (other : j ≠ i) :
    (table.step header payload).1.frags j = keyed.frags j := by
  unfold step finish
  rw [obtained]
  dsimp only
  rw [spill_of_fits _ _ fits]
  split <;> exact Function.update_of_ne other _ _

/-- A fragment stays in its slot until the last one is there. -/
theorem step_stored {i : Fin lcFragCount} {keyed : Reassembly} {payload : Bytes}
    (obtained : table.obtain header = some (i, keyed))
    (missing : lowBits header.totalPart ≠ ((keyed.frags i).store header payload).part) :
    (table.step header payload).1.frags i = (keyed.frags i).store header payload := by
  unfold step finish
  rw [obtained]
  simp only [if_neg missing, Function.update_self]

/-- The last fragment releases the slot. -/
theorem step_completed {i : Fin lcFragCount} {keyed : Reassembly} {payload : Bytes}
    (obtained : table.obtain header = some (i, keyed))
    (all : lowBits header.totalPart = ((keyed.frags i).store header payload).part) :
    ((table.step header payload).1.frags i).used = false := by
  unfold step finish
  rw [obtained]
  simp only [if_pos all, Function.update_self]

/-- The fragment itself changes neither the counter nor the stamp of its slot. -/
theorem step_stamp {i : Fin lcFragCount} {keyed : Reassembly} (payload : Bytes)
    (obtained : table.obtain header = some (i, keyed)) :
    (table.step header payload).1.localId = keyed.localId ∧
      ((table.step header payload).1.frags i).localId = (keyed.frags i).localId := by
  unfold step finish
  rw [obtained]
  dsimp only
  have counter := (keyed.spill_kept i (header.pmtu * header.part) payload).1
  split
  all_goals
    refine ⟨counter, ?_⟩
    simp only [Function.update_self]
    rfl

/-- Without a slot keyed anew, no slot comes into use and no stamp changes. -/
theorem step_of_allocates_none {payload : Bytes} (fits : table.obtain header ≠ none → header.Fits payload)
    (kept : table.allocates header = none) :
    (table.step header payload).1.localId = table.localId ∧
      ∀ j, ((table.step header payload).1.frags j).used = true → (table.frags j).used = true ∧
        ((table.step header payload).1.frags j).localId = (table.frags j).localId := by
  cases obtained : table.obtain header with
  | none =>
      have same : table.step header payload = (table, none) := by
        unfold step
        rw [obtained]
      rw [same]
      exact ⟨rfl, fun j used => ⟨used, rfl⟩⟩
  | some choice =>
      obtain ⟨i, keyed⟩ := choice
      obtain ⟨inUse, rfl⟩ := allocates_none kept obtained
      obtain ⟨counter, stamp⟩ := step_stamp payload obtained
      refine ⟨counter, fun j used => ?_⟩
      by_cases here : j = i
      · subst here
        exact ⟨inUse, stamp⟩
      · rw [step_other (fits (by simp [obtained])) obtained here] at used ⊢
        exact ⟨used, rfl⟩

/-- A slot keyed anew is stamped with the counter, and no other slot changes. -/
theorem step_of_allocates_some {payload : Bytes} (fits : table.obtain header ≠ none → header.Fits payload)
    {i : Fin lcFragCount} (allocated : table.allocates header = some i) :
    (table.step header payload).1.localId = int32 (table.localId + 1) ∧
      ((table.step header payload).1.frags i).localId = (table.localId % 2 ^ 16).toNat ∧
      ∀ j, j ≠ i → (table.step header payload).1.frags j = table.frags j := by
  obtain ⟨obtained, _⟩ := allocates_some allocated
  obtain ⟨counter, stamp⟩ := step_stamp payload obtained
  refine ⟨counter, ?_, fun j other => ?_⟩
  · rw [stamp]
    simp only [allocate, Function.update_self]
  · rw [step_other (fits (by simp [obtained])) obtained other]
    exact Function.update_of_ne other _ _

theorem int32_mod (count : Nat) : (int32 count % 2 ^ 16).toNat = count % 65536 := by
  unfold int32
  rw [Int.bmod_def]
  split <;> omega

theorem int32_succ (count : Nat) : int32 (int32 count + 1) = int32 (count + 1 : Nat) := by
  unfold int32
  rw [Int.bmod_add_bmod]
  rfl

/-- Every fragment that fits keeps the dates right. -/
theorem Dated.step (dated : table.Dated ledger) {header : LanClientFragmentHeader} {payload : Bytes}
    (fits : table.obtain header ≠ none → header.Fits payload) :
    (table.step header payload).1.Dated (ledger.record (table.allocates header)) := by
  cases allocated : table.allocates header with
  | none =>
      obtain ⟨counter, kept⟩ := step_of_allocates_none fits allocated
      refine ⟨counter.trans dated.counter, fun j used => ?_, fun j used => ?_, fun j k used used' => ?_⟩
      · rw [(kept j used).2]
        exact dated.stamp j (kept j used).1
      · exact dated.past j (kept j used).1
      · exact dated.distinct j k (kept j used).1 (kept k used').1
  | some i =>
      obtain ⟨counter, stamp, others⟩ := step_of_allocates_some fits allocated
      have date := ledger.born_self i
      -- the new date is later than every date of another slot in use
      have earlier {j : Fin lcFragCount} (other : j ≠ i)
          (used : ((table.step header payload).1.frags j).used = true) :
          (ledger.record (some i)).born j < ledger.count := by
        rw [others j other] at used
        rw [ledger.born_other other]
        exact dated.past j used
      refine ⟨?_, fun j used => ?_, fun j used => ?_, fun j k used used' equal => ?_⟩
      · rw [counter, dated.counter]
        exact int32_succ ledger.count
      · by_cases here : j = i
        · subst here
          rw [stamp, date, dated.counter, int32_mod]
        · rw [others j here] at used ⊢
          rw [ledger.born_other here]
          exact dated.stamp j used
      · by_cases here : j = i
        · subst here
          rw [date]
          exact Nat.lt_succ_self _
        · exact Nat.lt_succ_of_lt (earlier here used)
      · by_cases here : j = i <;> by_cases there : k = i
        · exact here.trans there.symm
        · have less := earlier there used'
          rw [← equal, here, date] at less
          exact absurd less (Nat.lt_irrefl _)
        · have less := earlier here used
          rw [equal, there, date] at less
          exact absurd less (Nat.lt_irrefl _)
        · rw [others j here] at used
          rw [others k there] at used'
          rw [ledger.born_other here, ledger.born_other there] at equal
          exact dated.distinct j k used used' equal

end Reassembly

/-! ## Runs -/

/-- A fragment datagram is one step of the table. -/
theorem receive_step (env : Env) {datagram : Bytes} (dispatches : DispatchesFrag datagram) (s : LanPlay) :
    ∃ payload, payload.length = (headerAt (s.arrivalPtr datagram).memory 1).len ∧
      (receive env datagram s).state.reassembly =
        (s.reassembly.step (headerAt (s.arrivalPtr datagram).memory 1) payload).1 := by
  obtain ⟨len, outcome⟩ := receive_frag_outcome env dispatches s
  rw [outcome]
  exact ⟨_, length_slice _ _ _,
    (lanClientProcessFrag_step env.now (s.arrivalPtr datagram) len (s.arrival datagram)).1⟩

theorem FragmentFits.copy {s : LanPlay} {datagram payload : Bytes} (fits : FragmentFits s.reassembly datagram)
    (size : payload.length = (headerAt (s.arrivalPtr datagram).memory 1).len) :
    s.reassembly.obtain (headerAt (s.arrivalPtr datagram).memory 1) ≠ none →
      (headerAt (s.arrivalPtr datagram).memory 1).Fits payload := by
  have header : headerAt (s.arrivalPtr datagram).memory 1 = headerAt datagram 1 := headerAt_append _ _ fits.1
  rw [LanClientFragmentHeader.Fits, size, header]
  exact fun kept => (fits.2 kept).2

theorem Reassembly.Dated.receive {s : LanPlay} {ledger : Ledger} (dated : s.reassembly.Dated ledger)
    (env : Env) {datagram : Bytes} (fits : DispatchesFrag datagram → FragmentFits s.reassembly datagram) :
    (receive env datagram s).state.reassembly.Dated (ledger.record (s.allocates datagram)) := by
  unfold LanPlay.allocates
  by_cases dispatches : DispatchesFrag datagram
  · obtain ⟨payload, size, table⟩ := receive_step env dispatches s
    rw [if_pos dispatches, table]
    exact dated.step ((fits dispatches).copy size)
  · rw [if_neg dispatches, receive_other env dispatches s]
    exact dated

/-- Every fragment of the run fits where its header puts it. -/
def AllFit (s : LanPlay) (arrivals : List (Env × Bytes)) : Prop :=
  Proc.Along (fun arrival => receive arrival.1 arrival.2)
    (fun state arrival => DispatchesFrag arrival.2 → FragmentFits state.reassembly arrival.2) s arrivals

/-- The stamps are right in every run from the zeroed table. -/
theorem dated_receiveAll (arrivals : List (Env × Bytes)) {s : LanPlay} (fresh : s.reassembly = .zero)
    (fit : AllFit s arrivals) : (receiveAll arrivals s).state.reassembly.Dated (allocations s arrivals) := by
  refine Proc.noting_preserves _ _ (fun (state : LanPlay) ledger => state.reassembly.Dated ledger) ?_
    arrivals fit ?_
  · intro arrival state ledger fits dated
    exact dated.receive arrival.1 fits
  · rw [fresh]
    exact Reassembly.dated_zero

/-! ## Evictions -/

/-- The datagram takes a slot over: all slots are in use, and one of them is
keyed anew. -/
def LanPlay.Evicts (s : LanPlay) (datagram : Bytes) (i : Fin lcFragCount) : Prop :=
  (∀ j, (s.reassembly.frags j).used = true) ∧ s.allocates datagram = some i

/-- The 16 bits of a date that the slot keeps. -/
def Ledger.stamp (ledger : Ledger) (i : Fin lcFragCount) : Nat := ledger.born i % 65536

/-- The oldest slot has the smallest stamp, and no slot before it has the same. -/
def Ledger.OldestFirst (ledger : Ledger) : Prop :=
  ∃ oldest, ∀ j, ledger.born oldest ≤ ledger.born j ∧ ledger.stamp oldest ≤ ledger.stamp j ∧
    (j < oldest → ledger.stamp oldest < ledger.stamp j)

namespace Reassembly

variable {table : Reassembly} {header : LanClientFragmentHeader} {ledger : Ledger}
  {i : Fin lcFragCount}

/-- From a full table the first of the slots with the greatest difference is
taken. -/
theorem allocates_greatest (full : ∀ j, (table.frags j).used = true)
    (allocated : table.allocates header = some i) (j : Fin lcFragCount) :
    table.dif j ≤ table.dif i ∧ (j < i → table.dif j < table.dif i) := by
  obtain ⟨obtained, absent⟩ := allocates_some allocated
  unfold Reassembly.obtain at obtained
  rw [find_eq_none_iff.mpr absent, findFree_eq_none_iff.mpr full] at obtained
  have scored (k : Fin lcFragCount) :
      (if (table.frags k).used then some (table.dif k) else none) = some (table.dif k) :=
    if_pos (full k)
  by_cases old : (lcFragCount : Int) < table.findOldest.1
  · simp only [if_pos old] at obtained
    obtain ⟨k, chosen, same⟩ := Option.map_eq_some_iff.mp obtained
    cases (Prod.mk.inj same).1
    have greatest := ((farthest_best _).found i chosen).2
    rw [scored i] at greatest
    rw [Option.some.inj greatest]
    exact ⟨le_farthest (scored j), fun before => lt_farthest chosen before (scored j)⟩
  · simp only [if_neg old] at obtained
    cases obtained

/-- As long as the counter has not left the range of an `int`, the difference
is the distance from the stamp to the counter. -/
theorem Dated.dif_eq (dated : table.Dated ledger) (few : ledger.count < 2 ^ 31)
    (used : (table.frags i).used = true) : table.dif i = ledger.count - ledger.stamp i := by
  have past := dated.past i used
  have small : ledger.stamp i ≤ ledger.born i := Nat.mod_le _ _
  have counter : table.localId = ledger.count :=
    dated.counter.trans (int32_of_small (by omega) (by omega))
  have stamp : (table.frags i).localId = ledger.stamp i := dated.stamp i used
  unfold dif labs
  rw [counter, stamp, int32_of_small (by omega) (by omega), if_pos (by omega),
    int32_of_small (by omega) (by omega)]
  omega

/-- An eviction goes by the stamps. -/
theorem Dated.evicted_stamp (dated : table.Dated ledger) (few : ledger.count < 2 ^ 31)
    (full : ∀ j, (table.frags j).used = true) (allocated : table.allocates header = some i)
    (j : Fin lcFragCount) :
    ledger.stamp i ≤ ledger.stamp j ∧ (j < i → ledger.stamp i < ledger.stamp j) := by
  have greatest := allocates_greatest full allocated j
  rw [dated.dif_eq few (full i), dated.dif_eq few (full j)] at greatest
  constructor
  · have less := greatest.1
    omega
  · intro before
    have less := greatest.2 before
    omega

end Reassembly

/-- The slot with the smallest stamp is the oldest exactly when the oldest has
the smallest stamp. -/
theorem Ledger.oldest_iff {ledger : Ledger} {i : Fin lcFragCount}
    (smallest : ∀ j, ledger.stamp i ≤ ledger.stamp j ∧ (j < i → ledger.stamp i < ledger.stamp j)) :
    (∀ j, ledger.born i ≤ ledger.born j) ↔ ledger.OldestFirst := by
  constructor
  · intro oldest
    exact ⟨i, fun j => ⟨oldest j, smallest j⟩⟩
  · rintro ⟨oldest, first⟩
    -- both slots are the first one with the smallest stamp
    have same : oldest = i := by
      rcases lt_trichotomy oldest i with before | same | after
      · exact absurd ((smallest oldest).2 before) (not_lt_of_ge (first i).2.1)
      · exact same
      · exact absurd ((first i).2.2 after) (not_lt_of_ge (smallest oldest).1)
    exact fun j => same ▸ (first j).1

theorem LanPlay.Evicts.fragment {s : LanPlay} {datagram : Bytes} {i : Fin lcFragCount}
    (evicts : s.Evicts datagram i) :
    DispatchesFrag datagram ∧
      s.reassembly.allocates (headerAt (s.arrivalPtr datagram).memory 1) = some i := by
  have allocated := evicts.2
  unfold LanPlay.allocates at allocated
  by_cases dispatches : DispatchesFrag datagram
  · rw [if_pos dispatches] at allocated
    exact ⟨dispatches, allocated⟩
  · rw [if_neg dispatches] at allocated
    cases allocated

/-- Until the counter has passed 16 bits, the oldest slot has the smallest
stamp. -/
theorem Reassembly.Dated.oldestFirst {table : Reassembly} {ledger : Ledger} (dated : table.Dated ledger)
    (full : ∀ j, (table.frags j).used = true) (few : ledger.count ≤ 65536) : ledger.OldestFirst := by
  have stamp (j : Fin lcFragCount) : ledger.stamp j = ledger.born j := by
    have past := dated.past j (full j)
    exact Nat.mod_eq_of_lt (by omega)
  obtain ⟨oldest, _, least⟩ := Finset.exists_min_image Finset.univ ledger.born ⟨0, Finset.mem_univ _⟩
  refine ⟨oldest, fun j => ?_⟩
  have first := least j (Finset.mem_univ j)
  rw [stamp, stamp]
  refine ⟨first, first, fun before => lt_of_le_of_ne first fun same => ?_⟩
  exact absurd (dated.distinct oldest j (full oldest) (full j) same) (ne_of_gt before)

end SwitchLanPlay
