import SwitchLanPlay.Client.Fragments
import SwitchLanPlay.Lan.Sending

/-!
# One fragment at the reassembly table

`lan_client_process_frag` acts on the table as a pure step of the header and
the payload it reads: everything that happens after a packet is complete
leaves the table alone.  What a slot knows about the packet it is keyed to is
the predicate `Holds`, and what a fragment can do to the table is said once, by
`Advance`.
-/

namespace SwitchLanPlay

open Library SlotTable

/-! ## Deliveries -/

/-- The arguments of a call of `lan_client_process`. -/
def Event.process? : Event → Option (Bytes × Nat)
  | .process packet len => some (packet, len)
  | _ => none

def deliveries (events : List Event) : List (Bytes × Nat) := events.filterMap Event.process?

@[simp] theorem deliveries_append (first second : List Event) :
    deliveries (first ++ second) = deliveries first ++ deliveries second :=
  List.filterMap_append

@[simp] theorem deliveries_nil : deliveries [] = [] := rfl

/-- An event that is neither a delivery nor the loss of a fragment. -/
def Event.Quiet : Event → Prop
  | .process _ _ | .fragmentIgnored => False
  | _ => True

theorem deliveries_eq_nil {α : Type} {m : Proc LanPlay Event α} {s : LanPlay}
    (quiet : m.Emits Event.Quiet s) : deliveries (m s).events = [] := by
  refine List.filterMap_eq_nil_iff.mpr fun event member => ?_
  cases event with
  | process packet len => cases quiet _ member
  | _ => rfl

theorem not_ignored {α : Type} {m : Proc LanPlay Event α} {s : LanPlay}
    (quiet : m.Emits Event.Quiet s) : .fragmentIgnored ∉ (m s).events :=
  fun member => quiet _ member

/-! ## Delivery leaves the table alone -/

theorem reassembly_of_core {s s' : LanPlay} (same : s.core = s'.core) :
    s.reassembly = s'.reassembly := by
  have fields := congrArg LanPlay.reassembly same
  exact fields

section Forward

variable {Q : Event → Prop} (now : Int) {packet : Ptr} (sends : Sends Q packet.region) (len : Nat)

include sends

theorem lanClientOnBroadcast_framed :
    (lanClientOnBroadcast now packet len).Framed LanPlay.core Q := by
  have send : ∀ mac, (sendEther mac etherTypeIpv4 [⟨packet, len⟩]).Framed LanPlay.core Q := fun mac =>
    sendEther_framed sends mac _ (List.forall_mem_singleton.mpr (Or.inl rfl))
  unfold lanClientOnBroadcast
  refine Proc.framed_read.bind fun lanPlay => Proc.framed_ite ?_ ?_
  · exact (Proc.framed_update (by exact fun _ => rfl)).bind fun _ => send _
  · refine (arpForEachFrom_framed now (fun item => ?_) _).bind fun _ => Proc.framed_pure _
    exact (send item.mac).bind fun _ => Proc.framed_pure _

theorem lanClientForward_framed : (lanClientForward now packet len).Framed LanPlay.core Q := by
  unfold lanClientForward
  refine Proc.framed_ite (Proc.framed_pure _) (Proc.framed_read.bind fun _ => ?_)
  refine (cpyIpv4_framed (sends.load (packet.offset + ipv4OffDst) 4)).bind fun dst =>
    Proc.framed_ite (lanClientOnBroadcast_framed now sends len) ?_
  refine (arpGetMacByIp_framed sends now dst).bind fun found => ?_
  cases found with
  | none => exact Proc.framed_pure _
  | some mac => exact sendEther_framed sends mac _ (List.forall_mem_singleton.mpr (Or.inl rfl))

end Forward

theorem quiet_sends (region : Region) : Sends Event.Quiet region := by
  constructor <;> intros <;> trivial

/-- `lan_client_process` delivers what it is called with, and leaves the table
alone. -/
theorem lanClientProcess_frame (now : Int) (packet : Ptr) (len : Nat) (s : LanPlay) :
    (lanClientProcess now packet len s).state.reassembly = s.reassembly ∧
      deliveries (lanClientProcess now packet len s).events =
        [(slice packet.memory packet.offset len, len)] ∧
      .fragmentIgnored ∉ (lanClientProcess now packet len s).events := by
  obtain ⟨kept, quiet⟩ := lanClientForward_framed now (quiet_sends packet.region) len s
  refine ⟨reassembly_of_core kept, ?_, ?_⟩
  · unfold lanClientProcess
    rw [Proc.bind_events, deliveries_append]
    exact congrArg (deliveries _ ++ ·) (deliveries_eq_nil quiet)
  · unfold lanClientProcess
    rw [Proc.bind_events, List.mem_append, not_or]
    exact ⟨by simp, not_ignored quiet⟩

/-! ## The step on the table -/

@[simp] theorem readHeader_value {σ : Type} (packet : Ptr) (s : σ) :
    (readHeader packet s).value = headerAt packet.memory packet.offset := rfl

@[simp] theorem readHeader_state {σ : Type} (packet : Ptr) (s : σ) :
    (readHeader packet s).state = s := rfl

/-- The table once a fragment is in its slot, and the call of
`lan_client_process` that follows when the packet is complete. -/
def Reassembly.finish (table : Reassembly) (i : Fin lcFragCount) (slot : LanClientFragment)
    (totalPart : Nat) : Reassembly × Option (Bytes × Nat) :=
  if lowBits totalPart = slot.part then
    ({ table with frags := Function.update table.frags i { slot with used := false } },
      some (slice slot.buffer 0 slot.totalLen, slot.totalLen))
  else
    ({ table with frags := Function.update table.frags i slot }, none)

/-- The table after a fragment, and the call of `lan_client_process` it leads to. -/
def Reassembly.step (table : Reassembly) (header : LanClientFragmentHeader) (payload : Bytes) :
    Reassembly × Option (Bytes × Nat) :=
  match table.obtain header with
  | none => (table, none)
  | some (i, keyed) =>
      (keyed.spill i (header.pmtu * header.part) payload).finish i ((keyed.frags i).store header payload)
        header.totalPart

theorem finishFragment_step (now : Int) (table : Reassembly) (i : Fin lcFragCount)
    (slot : LanClientFragment) (totalPart : Nat) (s : LanPlay) :
    (finishFragment now table i slot totalPart s).state.reassembly =
        (table.finish i slot totalPart).1 ∧
      deliveries (finishFragment now table i slot totalPart s).events =
        (table.finish i slot totalPart).2.toList ∧
      .fragmentIgnored ∉ (finishFragment now table i slot totalPart s).events := by
  unfold finishFragment Reassembly.finish
  by_cases complete : lowBits totalPart = slot.part
  · rw [if_pos complete, if_pos complete]
    exact lanClientProcess_frame now ⟨.slot, slot.buffer, 0⟩ slot.totalLen _
  · rw [if_neg complete, if_neg complete]
    exact ⟨rfl, rfl, List.not_mem_nil⟩

/-- `lan_client_process_frag` changes the table and calls `lan_client_process`
as `Reassembly.step` says, and reports the loss of a fragment that obtains no
slot. -/
theorem lanClientProcessFrag_step (now : Int) (packet : Ptr) (len : Nat) (s : LanPlay) :
    let header := headerAt packet.memory packet.offset
    let payload := slice packet.memory (packet.offset + lcFragHeaderLen) header.len
    (lanClientProcessFrag now packet len s).state.reassembly =
        (s.reassembly.step header payload).1 ∧
      deliveries (lanClientProcessFrag now packet len s).events =
        (s.reassembly.step header payload).2.toList ∧
      (.fragmentIgnored ∈ (lanClientProcessFrag now packet len s).events ↔
        s.reassembly.obtain header = none) := by
  intro header payload
  have reads : deliveries (readHeader packet s).events = [] := rfl
  have quiet : .fragmentIgnored ∉ (readHeader packet s).events := by
    intro member
    simp [readHeader, cpyIpv4, readNet16, readNet8] at member
  unfold lanClientProcessFrag Reassembly.step
  simp only [Proc.bind_state, Proc.bind_events, readHeader_value, readHeader_state,
    Proc.read_value, Proc.read_state, Proc.read_events, List.nil_append, deliveries_append, reads,
    List.mem_append, quiet, false_or]
  cases found : s.reassembly.obtain (headerAt packet.memory packet.offset) with
  | none => exact ⟨rfl, rfl, iff_of_true List.mem_cons_self rfl⟩
  | some choice =>
      obtain ⟨table, delivered, kept⟩ := finishFragment_step now
        (choice.2.spill choice.1 (header.pmtu * header.part) payload) choice.1
        ((choice.2.frags choice.1).store header payload) header.totalPart s
      refine ⟨table, delivered, iff_of_false ?_ (Option.some_ne_none _)⟩
      simp only [loadBytes, Proc.bind_events, Proc.emit_events, Proc.pure_events, List.mem_append,
        List.mem_singleton, List.not_mem_nil, reduceCtorEq, false_or]
      exact kept

/-! ## Which slot a fragment gets -/

/-- The slot is in use for the packet the header belongs to. -/
def LanClientFragment.Matches (slot : LanClientFragment) (header : LanClientFragmentHeader) : Prop :=
  slot.used = true ∧ slot.id = header.id ∧ slot.src = header.src

namespace Reassembly

variable {table : Reassembly} {header : LanClientFragmentHeader}

theorem find_matches {i : Fin lcFragCount} (found : table.find header = some i) :
    (table.frags i).Matches header := by
  have passes := firstIndex_passes found
  simp only [Bool.and_eq_true, decide_eq_true_eq] at passes
  exact ⟨passes.1.1, passes.1.2, passes.2⟩

theorem find_eq_none_iff :
    table.find header = none ↔ ∀ i, ¬ (table.frags i).Matches header := by
  unfold find
  rw [firstIndex_eq_none_iff]
  refine forall_congr' fun i => ?_
  simp [LanClientFragment.Matches, Bool.and_assoc]

theorem findFree_eq_none_iff : table.findFree = none ↔ ∀ i, (table.frags i).used = true := by
  unfold findFree
  rw [firstIndex_eq_none_iff]
  simp

/-- The eviction threshold is passed exactly when some slot in use is older. -/
theorem lt_findOldest_iff :
    (lcFragCount : Int) < table.findOldest.1 ↔
      ∃ i, (table.frags i).used = true ∧ (lcFragCount : Int) < table.dif i := by
  unfold findOldest
  constructor
  · intro old
    obtain ⟨i, _, scored⟩ := farthest_of_pos (lt_trans (by decide) old)
    by_cases used : (table.frags i).used = true
    · rw [if_pos used] at scored
      exact ⟨i, used, by rw [Option.some.inj scored]; exact old⟩
    · rw [if_neg used] at scored
      cases scored
  · rintro ⟨i, used, old⟩
    exact lt_of_lt_of_le old (le_farthest (if_pos used))

/-- What a fragment can get: the slot of its packet; else, once no slot is
keyed to its packet, a slot keyed anew, which is a free one, or an old one
when there is no free one. -/
theorem obtain_some {i : Fin lcFragCount} {keyed : Reassembly}
    (obtained : table.obtain header = some (i, keyed)) :
    ((table.frags i).Matches header ∧ keyed = table) ∨
      ((∀ j, ¬ (table.frags j).Matches header) ∧ keyed = table.allocate i header ∧
        ((table.frags i).used = false ∨
          (∀ j, (table.frags j).used = true) ∧ (lcFragCount : Int) < table.dif i)) := by
  unfold Reassembly.obtain at obtained
  cases found : table.find header with
  | some j =>
      rw [found] at obtained
      cases obtained
      exact Or.inl ⟨find_matches found, rfl⟩
  | none =>
      rw [found] at obtained
      have fresh := find_eq_none_iff.mp found
      cases free : table.findFree with
      | some j =>
          rw [free] at obtained
          cases obtained
          have unused := firstIndex_passes free
          exact Or.inr ⟨fresh, rfl, Or.inl (by simpa using unused)⟩
      | none =>
          rw [free] at obtained
          have full := findFree_eq_none_iff.mp free
          by_cases old : (lcFragCount : Int) < table.findOldest.1
          · obtain ⟨j, chosen, scored⟩ := farthest_of_pos (lt_trans (by decide) old)
            have chosen' : table.findOldest.2 = some j := chosen
            rw [if_pos (full j)] at scored
            have age : table.dif j = table.findOldest.1 := Option.some.inj scored
            rw [if_pos old, chosen'] at obtained
            cases obtained
            exact Or.inr ⟨fresh, rfl, Or.inr ⟨full, by rw [age]; exact old⟩⟩
          · rw [if_neg old] at obtained
            cases obtained

/-- The fragment is ignored exactly when no slot is keyed to its packet, all
slots are in use and none is older than the threshold. -/
theorem obtain_eq_none_iff :
    table.obtain header = none ↔
      (∀ i, ¬ (table.frags i).Matches header) ∧ (∀ i, (table.frags i).used = true) ∧
        ∀ i, table.dif i ≤ lcFragCount := by
  unfold Reassembly.obtain
  cases found : table.find header with
  | some j =>
      refine ⟨fun impossible => (by cases impossible), fun fresh => ?_⟩
      exact absurd (find_matches found) (fresh.1 j)
  | none =>
      have fresh := find_eq_none_iff.mp found
      cases free : table.findFree with
      | some j =>
          refine ⟨fun impossible => (by cases impossible), fun full => ?_⟩
          have unused := firstIndex_passes free
          simp [full.2.1 j] at unused
      | none =>
          have full := findFree_eq_none_iff.mp free
          by_cases old : (lcFragCount : Int) < table.findOldest.1
          · obtain ⟨j, chosen, _⟩ := farthest_of_pos (lt_trans (by decide) old)
            have chosen' : table.findOldest.2 = some j := chosen
            simp only [if_pos old, chosen', Option.map_some]
            refine ⟨fun impossible => (by cases impossible), fun young => ?_⟩
            obtain ⟨k, _, older⟩ := lt_findOldest_iff.mp old
            exact absurd (young.2.2 k) (not_le_of_gt older)
          · simp only [if_neg old]
            refine ⟨fun _ => ⟨fresh, full, fun i => ?_⟩, fun _ => by trivial⟩
            by_contra older
            exact old (lt_findOldest_iff.mpr ⟨i, full i, lt_of_not_ge older⟩)

end Reassembly

/-! ## What a slot knows of its packet -/

/-- The slot is keyed to the packet, and it has the bytes of each part whose
bit is set; with the last part it also has the length.  What else is in the
buffer, or was the length before, can come from an earlier packet. -/
structure LanClientFragment.Holds (slot : LanClientFragment) (t : Transmission) : Prop where
  key : (slot.src, slot.id) = t.key
  parts : ∀ k, slot.part.testBit k = true → k < t.parts
  bytes : ∀ offset < t.packet.length, slot.part.testBit (offset / t.pmtu.toNat) = true →
    byteAt slot.buffer offset = byteAt t.packet offset
  total : slot.part.testBit (t.parts - 1) = true → slot.totalLen = t.packet.length

/-- The slot is in use for a packet with the same source and id. -/
def LanClientFragment.KeyedTo (slot : LanClientFragment) (t : Transmission) : Prop :=
  slot.used = true ∧ (slot.src, slot.id) = t.key

/-- The slots keyed like the packet belong to it. -/
def Reassembly.Agrees (table : Reassembly) (t : Transmission) : Prop :=
  ∀ i, (table.frags i).KeyedTo t → (table.frags i).Holds t

theorem LanClientFragment.matches_wireHeader {slot : LanClientFragment} {t : Transmission} {k : Nat} :
    slot.Matches (t.wireHeader k) ↔ slot.KeyedTo t := by
  simp only [Matches, KeyedTo, Transmission.key, Prod.mk.injEq]
  exact and_congr_right fun _ => and_comm

namespace Transmission.WellFormed

variable {t : Transmission} (wf : t.WellFormed)

include wf

/-- The bytes of part `k`, as offsets into the packet. -/
theorem div_eq_iff {offset k : Nat} (inside : offset < t.packet.length) :
    offset / t.pmtu.toNat = k ↔
      t.pmtu.toNat * k ≤ offset ∧ offset < t.pmtu.toNat * k + t.partLen k := by
  rw [Nat.div_eq_iff wf.positive, Nat.mul_comm k]
  have positive := wf.positive
  unfold partLen
  rw [Nat.mul_comm k]
  omega

theorem div_lt_parts {offset : Nat} (inside : offset < t.packet.length) :
    offset / t.pmtu.toNat < t.parts := by
  rw [wf.lt_parts_iff]
  exact lt_of_le_of_lt (Nat.div_mul_le_self offset _) inside

/-- The last part ends with the packet. -/
theorem last_end (fragmented : t.Fragmented) :
    (t.parts - 1) * t.pmtu.toNat + t.partLen (t.parts - 1) = t.packet.length := by
  have many := fragmented.2
  have starts := (wf.lt_parts_iff (t.parts - 1)).mp (by omega)
  have ends := mt (wf.lt_parts_iff t.parts).mpr (Nat.lt_irrefl _)
  have next : (t.parts - 1) * t.pmtu.toNat + t.pmtu.toNat = t.parts * t.pmtu.toNat := by
    rw [← Nat.succ_mul]
    congr 1
    omega
  unfold partLen
  omega

theorem shiftedOne_part {k : Nat} (inside : k < t.parts) : shiftedOne k = 2 ^ k := by
  have few := wf.parts_le
  rw [shiftedOne, Nat.mod_eq_of_lt (by omega)]

theorem lowBits_parts : lowBits t.parts = 2 ^ t.parts - 1 := by
  have few := wf.parts_le
  rw [lowBits, Nat.mod_eq_of_lt (by omega)]

end Transmission.WellFormed

namespace LanClientFragment.Holds

variable {slot : LanClientFragment} {t : Transmission} (holds : slot.Holds t) (wf : t.WellFormed)

include holds wf

/-- A stored fragment sets its bit and no other. -/
theorem testBit_store {k : Nat} (inside : k < t.parts) (j : Nat) :
    (slot.store (t.wireHeader k) (t.chunk k)).part.testBit j = true ↔
      slot.part.testBit j = true ∨ j = k := by
  have few := wf.parts_le
  change ((slot.part ||| shiftedOne k) % 2 ^ 8).testBit j = true ↔ _
  rw [wf.shiftedOne_part inside, Nat.testBit_mod_two_pow, Nat.testBit_or, Nat.testBit_two_pow]
  simp only [Bool.and_eq_true, Bool.or_eq_true, decide_eq_true_eq]
  constructor
  · rintro ⟨_, old | new⟩
    · exact Or.inl old
    · exact Or.inr new.symm
  · rintro (old | new)
    · have below := holds.parts j old
      exact ⟨by omega, Or.inl old⟩
    · exact ⟨by omega, Or.inr new.symm⟩

theorem store (fragmented : t.Fragmented) {k : Nat} (inside : k < t.parts) :
    (slot.store (t.wireHeader k) (t.chunk k)).Holds t where
  key := holds.key
  parts := by
    intro j set
    rcases (holds.testBit_store wf inside j).mp set with old | new
    · exact holds.parts j old
    · omega
  bytes := by
    intro offset within set
    have lengthBound := wf.length
    have sized : (t.chunk k).length = t.partLen k := length_slice _ _ _
    change byteAt (overwrite slot.buffer (t.pmtu.toNat * k) (t.chunk k)) offset = _
    rw [byteAt_overwrite _ _ _ _ (by rw [slot.bufferSized]; omega), sized]
    by_cases here : offset / t.pmtu.toNat = k
    · have range := (wf.div_eq_iff within).mp here
      rw [if_pos range, Transmission.chunk, byteAt_slice _ _ _ _ (by omega), Nat.mul_comm k]
      congr 1
      omega
    · rw [if_neg (mt (wf.div_eq_iff within).mpr here)]
      rcases (holds.testBit_store wf inside _).mp set with old | new
      · exact holds.bytes offset within old
      · exact absurd new here
  total := by
    intro set
    have lengthBound : t.packet.length ≤ 1500 := wf.length
    have many := fragmented.2
    change (if k + 1 = t.parts then ((t.parts - 1) * t.pmtu.toNat + t.partLen k) % 2 ^ 16
      else slot.totalLen) = _
    by_cases last : k + 1 = t.parts
    · have here : k = t.parts - 1 := by omega
      rw [if_pos last, here, wf.last_end fragmented, Nat.mod_eq_of_lt (by omega)]
    · rw [if_neg last]
      rcases (holds.testBit_store wf inside _).mp set with old | new
      · exact holds.total old
      · omega

/-- The completion test of the source. -/
theorem complete_iff :
    lowBits t.parts = slot.part ↔ ∀ k < t.parts, slot.part.testBit k = true := by
  rw [wf.lowBits_parts]
  constructor
  · intro equal k below
    rw [← equal, Nat.testBit_two_pow_sub_one]
    exact decide_eq_true below
  · intro all
    refine Nat.eq_of_testBit_eq fun k => ?_
    rw [Nat.testBit_two_pow_sub_one, Bool.eq_iff_iff, decide_eq_true_eq]
    exact ⟨all k, holds.parts k⟩

/-- A slot with all parts has the packet. -/
theorem complete (fragmented : t.Fragmented)
    (all : ∀ k < t.parts, slot.part.testBit k = true) :
    (slice slot.buffer 0 slot.totalLen, slot.totalLen) = (t.packet, t.packet.length) := by
  have many := fragmented.2
  have total := holds.total (all _ (by omega))
  rw [total]
  refine congrArg (·, t.packet.length) ?_
  conv_rhs => rw [← slice_full t.packet]
  refine slice_congr fun offset within => ?_
  rw [Nat.zero_add]
  exact holds.bytes offset within (all _ (wf.div_lt_parts within))

end LanClientFragment.Holds

/-! ## What a fragment does to the table -/

namespace Reassembly

/-- Where a fragment goes: to the slot of its packet, or to one keyed anew,
which takes its age from the counter. -/
inductive Place (table : Reassembly) (t : Transmission) (i : Fin lcFragCount) (age : Nat)
    (counter : Int) : Prop
  | keyed (here : (table.frags i).KeyedTo t) (sameAge : age = (table.frags i).localId)
      (sameCounter : counter = table.localId)
  | allocated (absent : ∀ j, ¬ (table.frags j).KeyedTo t)
      (room : (table.frags i).used = false ∨
        (∀ j, (table.frags j).used = true) ∧ (lcFragCount : Int) < table.dif i)
      (newAge : age = (table.localId % 2 ^ 16).toNat)
      (counted : counter = int32 (table.localId + 1))

/-- The slot that part `k` of a packet ends up in, and its content. -/
structure Stores (table : Reassembly) (t : Transmission) (k : Nat) (i : Fin lcFragCount)
    (slot : LanClientFragment) (counter : Int) : Prop where
  place : table.Place t i slot.localId counter
  used : slot.used = true
  holds : slot.Holds t
  bits : ∀ j, slot.part.testBit j = true ↔
    ((table.frags i).KeyedTo t ∧ (table.frags i).part.testBit j = true) ∨ j = k

/-- What part `k` of a packet can do to the table, with the call of
`lan_client_process` that follows. -/
inductive Advance (table : Reassembly) (t : Transmission) (k : Nat) :
    Reassembly × Option (Bytes × Nat) → Prop
  | ignored (full : table.obtain (t.wireHeader k) = none) : Advance table t k (table, none)
  | stored (i : Fin lcFragCount) (slot : LanClientFragment) (after : Reassembly)
      (stores : table.Stores t k i slot after.localId)
      (missing : ¬ ∀ j < t.parts, slot.part.testBit j = true)
      (changed : after.frags = Function.update table.frags i slot) :
      Advance table t k (after, none)
  | completed (i : Fin lcFragCount) (slot : LanClientFragment) (after : Reassembly)
      (stores : table.Stores t k i slot after.localId)
      (all : ∀ j < t.parts, slot.part.testBit j = true)
      (changed : after.frags = Function.update table.frags i { slot with used := false }) :
      Advance table t k (after, some (t.packet, t.packet.length))

variable {table : Reassembly} {t : Transmission} {k : Nat}

/-- A slot keyed anew knows nothing of its packet yet. -/
theorem allocate_holds (i : Fin lcFragCount) :
    ((table.allocate i (t.wireHeader k)).frags i).Holds t := by
  have slot : (table.allocate i (t.wireHeader k)).frags i =
      { table.frags i with
        used := true
        id := (t.wireHeader k).id
        localId := (table.localId % 2 ^ 16).toNat
        src := (t.wireHeader k).src
        part := 0 } := Function.update_self _ _ _
  rw [slot]
  refine ⟨rfl, ?_, ?_, ?_⟩ <;> simp

/-- The slot a fragment obtains, once the fragment is stored in it. -/
theorem obtain_stores (wf : t.WellFormed) (fragmented : t.Fragmented) (inside : k < t.parts)
    (agree : table.Agrees t)
    {i : Fin lcFragCount} {keyed : Reassembly}
    (obtained : table.obtain (t.wireHeader k) = some (i, keyed)) :
    table.Stores t k i ((keyed.frags i).store (t.wireHeader k) (t.chunk k)) keyed.localId ∧
      ∀ slot, Function.update keyed.frags i slot = Function.update table.frags i slot := by
  rcases obtain_some obtained with ⟨found, same⟩ | ⟨fresh, allocated, room⟩
  · have here := LanClientFragment.matches_wireHeader.mp found
    subst same
    refine ⟨⟨.keyed here rfl rfl, here.1, (agree i here).store wf fragmented inside, fun j => ?_⟩,
      fun _ => rfl⟩
    rw [(agree i here).testBit_store wf inside j]
    exact or_congr_left (and_iff_right here).symm
  · have absent : ∀ j, ¬ (table.frags j).KeyedTo t := fun j =>
      mt LanClientFragment.matches_wireHeader.mpr (fresh j)
    have blank : (keyed.frags i).Holds t := allocated ▸ allocate_holds i
    have slot : (keyed.frags i).used = true ∧ (keyed.frags i).part = 0 ∧
        (keyed.frags i).localId = (table.localId % 2 ^ 16).toNat := by
      rw [allocated]
      simp [allocate]
    have counted : keyed.localId = int32 (table.localId + 1) := by
      rw [allocated]
      rfl
    refine ⟨⟨.allocated absent room slot.2.2 counted, slot.1, blank.store wf fragmented inside,
      fun j => ?_⟩, fun other => ?_⟩
    · rw [blank.testBit_store wf inside j, slot.2.1]
      simp [absent i]
    · rw [allocated]
      exact Function.update_idem _ _ _

/-- The step of the source is one of the advances, as long as no slot of
another packet has the key. -/
theorem step_advance (wf : t.WellFormed) (fragmented : t.Fragmented) (inside : k < t.parts)
    (agree : table.Agrees t) :
    table.Advance t k (table.step (t.wireHeader k) (t.chunk k)) := by
  unfold step
  cases obtained : table.obtain (t.wireHeader k) with
  | none => exact .ignored obtained
  | some choice =>
      obtain ⟨i, keyed⟩ := choice
      obtain ⟨stores, base⟩ := obtain_stores wf fragmented inside agree obtained
      have test := stores.holds.complete_iff wf
      have fits : (t.wireHeader k).pmtu * (t.wireHeader k).part + (t.chunk k).length ≤ etherMtu :=
        wf.chunk_fits inside
      change table.Advance t k ((keyed.spill i _ _).finish i _ t.parts)
      rw [spill_of_fits _ _ fits]
      unfold finish
      by_cases all : lowBits t.parts = ((keyed.frags i).store (t.wireHeader k) (t.chunk k)).part
      · rw [if_pos all, stores.holds.complete wf fragmented (test.mp all)]
        exact .completed i _ _ stores (test.mp all) (base _)
      · rw [if_neg all]
        exact .stored i _ _ stores (mt test.mpr all) (base _)

/-- What holds of every slot still does, if it holds of slots that hold the
packet and of slots not in use. -/
theorem Advance.forall_slots {outcome : Reassembly × Option (Bytes × Nat)}
    (advance : table.Advance t k outcome) (P : LanClientFragment → Prop)
    (before : ∀ i, P (table.frags i)) (stored : ∀ slot, slot.Holds t → P slot)
    (released : ∀ slot, slot.used = false → P slot) (i : Fin lcFragCount) :
    P (outcome.1.frags i) := by
  have updated {j : Fin lcFragCount} {slot : LanClientFragment} (new : P slot) :
      P (Function.update table.frags j slot i) := by
    by_cases here : i = j
    · subst here
      rwa [Function.update_self]
    · rw [Function.update_of_ne here]
      exact before i
  cases advance with
  | ignored full => exact before i
  | stored j slot after stores missing changed =>
      rw [changed]
      exact updated (stored slot stores.holds)
  | completed j slot after stores all changed =>
      rw [changed]
      exact updated (released _ rfl)

/-- A fragment delivers at most its own packet. -/
theorem Advance.delivered {outcome : Reassembly × Option (Bytes × Nat)}
    (advance : table.Advance t k outcome) :
    ∀ delivered ∈ outcome.2.toList, delivered = (t.packet, t.packet.length) := by
  cases advance <;> simp

end Reassembly

/-! ## Datagrams from the relay -/

/-- The state in which `lan_client_on_recv` calls the handler of a datagram. -/
def LanPlay.arrival (s : LanPlay) (datagram : Bytes) : LanPlay :=
  { s with
    clientBuf := datagram ++ s.clientBuf.drop datagram.length
    downloadPacket := (s.downloadPacket + 1) % 2 ^ 64
    downloadByte := (s.downloadByte + datagram.length % 2 ^ 16) % 2 ^ 64 }

/-- The pointer the handler gets. -/
def LanPlay.arrivalPtr (s : LanPlay) (datagram : Bytes) : Ptr :=
  ⟨.clientBuf, datagram ++ s.clientBuf.drop datagram.length, 1⟩

theorem receive_outcome (env : Env) (first : UInt8) (rest : Bytes) (s : LanPlay) :
    let handled := lanClientDispatch env (UInt8.ofNat (first.toNat % 0x80))
      (s.arrivalPtr (first :: rest)) ((rest.length + 1) % 2 ^ 16 - 1) (s.arrival (first :: rest))
    receive env (first :: rest) s =
      ⟨(), handled.state, .load .clientBuf 0 1 :: handled.events⟩ := by
  have arrived : ¬ ((first :: rest).length : Int) ≤ 0 := by
    rw [List.length_cons]
    omega
  unfold receive lanClientOnRecv
  rw [if_neg arrived]
  rfl

section Dispatch

variable (env : Env) (packet : Ptr) (len : Nat) (s : LanPlay)

theorem lanClientDispatch_frag :
    lanClientDispatch env lanClientTypeIpv4Frag packet len s =
      ⟨(), (lanClientProcessFrag env.now packet len s).state,
        (lanClientProcessFrag env.now packet len s).events⟩ := by
  have other : ¬ lanClientTypeIpv4Frag = lanClientTypeIpv4 := by decide
  rw [lanClientDispatch, if_neg other, if_pos rfl]
  apply Outcome.ext <;> simp

theorem lanClientDispatch_ipv4 :
    lanClientDispatch env lanClientTypeIpv4 packet len s =
      ⟨(), (lanClientProcess env.now packet len s).state,
        (lanClientProcess env.now packet len s).events⟩ := by
  rw [lanClientDispatch, if_pos rfl]
  apply Outcome.ext <;> simp

end Dispatch

/-- A fragment datagram, behind which the receive buffer has stale bytes. -/
theorem receive_fragment {t : Transmission} (wf : t.WellFormed) (fragmented : t.Fragmented)
    {k : Nat} (inside : k < t.parts) (env : Env) (s : LanPlay) :
    (receive env (t.fragment k) s).state.reassembly =
        (s.reassembly.step (t.wireHeader k) (t.chunk k)).1 ∧
      deliveries (receive env (t.fragment k) s).events =
        (s.reassembly.step (t.wireHeader k) (t.chunk k)).2.toList ∧
      (.fragmentIgnored ∈ (receive env (t.fragment k) s).events ↔
        s.reassembly.obtain (t.wireHeader k) = none) := by
  have header := Transmission.headerAt_fragment wf fragmented inside
    (s.clientBuf.drop (t.fragment k).length)
  have payload := t.slice_fragment k (s.clientBuf.drop (t.fragment k).length)
  have handled := lanClientProcessFrag_step env.now (s.arrivalPtr (t.fragment k))
    (((t.fragment k).length) % 2 ^ 16 - 1) (s.arrival (t.fragment k))
  simp only [LanPlay.arrivalPtr, header] at handled
  have size : (t.wireHeader k).len = t.partLen k := rfl
  rw [size, payload] at handled
  have outcome := receive_outcome env lanClientTypeIpv4Frag
    ((t.header k).toBytes ++ slice t.packet (k * t.pmtu.toNat) (t.partLen k)) s
  have type : UInt8.ofNat (lanClientTypeIpv4Frag.toNat % 0x80) = lanClientTypeIpv4Frag := rfl
  rw [type, lanClientDispatch_frag] at outcome
  rw [Transmission.fragment, outcome]
  refine ⟨handled.1, handled.2.1, ?_⟩
  rw [List.mem_cons, or_iff_right (by simp)]
  exact handled.2.2

/-- A datagram that carries a whole packet. -/
theorem receive_plain (env : Env) (packet : Bytes) (short : packet.length < 65535) (s : LanPlay) :
    (receive env (lanClientTypeIpv4 :: packet) s).state.reassembly = s.reassembly ∧
      deliveries (receive env (lanClientTypeIpv4 :: packet) s).events =
        [(packet, packet.length)] := by
  have handled := lanClientProcess_frame env.now (s.arrivalPtr (lanClientTypeIpv4 :: packet))
    ((packet.length + 1) % 2 ^ 16 - 1) (s.arrival (lanClientTypeIpv4 :: packet))
  have len : (packet.length + 1) % 2 ^ 16 - 1 = packet.length := by omega
  have content : slice (s.arrivalPtr (lanClientTypeIpv4 :: packet)).memory
      (s.arrivalPtr (lanClientTypeIpv4 :: packet)).offset packet.length = packet := by
    conv_rhs => rw [← slice_full packet]
    refine slice_congr fun index below => ?_
    rw [Nat.zero_add, ← byteAt_append_left packet _ _ below, Nat.add_comm]
    rfl
  rw [len, content] at handled
  have outcome := receive_outcome env lanClientTypeIpv4 packet s
  have type : UInt8.ofNat (lanClientTypeIpv4.toNat % 0x80) = lanClientTypeIpv4 := rfl
  rw [type, lanClientDispatch_ipv4, len] at outcome
  rw [outcome]
  exact ⟨handled.1, handled.2.1⟩

/-- The datagram is one of the packet's fragments, or carries all of it. -/
def Transmission.Carries (t : Transmission) (datagram : Bytes) : Prop :=
  (t.Fragmented ∧ ∃ k < t.parts, datagram = t.fragment k) ∨
    (¬ t.Fragmented ∧ datagram = lanClientTypeIpv4 :: t.packet)

theorem Transmission.carries_of_mem {t : Transmission} {datagram : Bytes}
    (member : datagram ∈ t.datagrams) : t.Carries datagram := by
  by_cases fragmented : t.Fragmented
  · rw [datagrams_of_fragmented fragmented] at member
    obtain ⟨k, below, same⟩ := List.mem_map.mp member
    exact Or.inl ⟨fragmented, k, List.mem_range.mp below, same.symm⟩
  · exact Or.inr ⟨fragmented, eq_plain_of_mem_datagrams fragmented member⟩

/-- Any datagram of a packet: a fragment advances the table, another one is
delivered as it is. -/
theorem receive_carried {t : Transmission} (wf : t.WellFormed) {datagram : Bytes}
    (carries : t.Carries datagram) (env : Env) (s : LanPlay)
    (agree : t.Fragmented → s.reassembly.Agrees t) :
    (t.Fragmented ∧ ∃ k outcome, s.reassembly.Advance t k outcome ∧
        (receive env datagram s).state.reassembly = outcome.1 ∧
        deliveries (receive env datagram s).events = outcome.2.toList) ∨
      (¬ t.Fragmented ∧ (receive env datagram s).state.reassembly = s.reassembly ∧
        deliveries (receive env datagram s).events = [(t.packet, t.packet.length)]) := by
  rcases carries with ⟨fragmented, k, inside, rfl⟩ | ⟨whole, rfl⟩
  · obtain ⟨table, delivered, _⟩ := receive_fragment wf fragmented inside env s
    exact Or.inl ⟨fragmented, k, _, Reassembly.step_advance wf fragmented inside (agree fragmented),
      table, delivered⟩
  · have lengthBound : t.packet.length ≤ 1500 := wf.length
    exact Or.inr ⟨whole, receive_plain env t.packet (by omega) s⟩

end SwitchLanPlay
