import SwitchLanPlay.Client.Reassembly

/-!
# Only sent packets are delivered

Runs of the receiver over datagrams that senders emitted.  The network may
lose, duplicate and reorder them; whatever `lan_client_process` is handed is
one of the packets, as long as no two packets share a source and a 16-bit id.
-/

namespace SwitchLanPlay

open Library SlotTable

/-- The datagrams arrive one after the other, each in its own environment. -/
def receiveAll (arrivals : List (Env × Bytes)) : Proc LanPlay Event Unit :=
  Proc.runAll (fun arrival => receive arrival.1 arrival.2) arrivals

/-- Every slot in use holds parts of some packet with the property. -/
def Reassembly.HoldsOnly (table : Reassembly) (P : Transmission → Prop) : Prop :=
  ∀ i, (table.frags i).used = true → ∃ t, P t ∧ (table.frags i).Holds t

theorem Reassembly.holdsOnly_zero (P : Transmission → Prop) : Reassembly.zero.HoldsOnly P := by
  intro i used
  cases used

theorem Reassembly.Advance.holdsOnly {table : Reassembly} {t : Transmission} {k : Nat}
    {outcome : Reassembly × Option (Bytes × Nat)} (advance : table.Advance t k outcome)
    {P : Transmission → Prop} (only : table.HoldsOnly P) (sent : P t) :
    outcome.1.HoldsOnly P := by
  refine advance.forall_slots (fun slot => slot.used = true → ∃ u, P u ∧ slot.Holds u) only
    (fun slot holds _ => ⟨t, sent, holds⟩) ?_
  intro slot unused used
  rw [unused] at used
  cases used

/-- The packets that leave in fragments have different keys. -/
def DistinctKeys (packets : List Transmission) : Prop :=
  ∀ t ∈ packets, ∀ u ∈ packets, t.Fragmented → u.Fragmented → t.key = u.key → t = u

/-- Whatever the network does to the datagrams, each call of
`lan_client_process` gets one of the packets. -/
theorem delivered_packet_was_sent (packets : List Transmission)
    (wellFormed : ∀ t ∈ packets, t.WellFormed) (distinct : DistinctKeys packets)
    (arrivals : List (Env × Bytes))
    (emitted : ∀ arrival ∈ arrivals, ∃ t ∈ packets, arrival.2 ∈ t.datagrams)
    (s : LanPlay) (fresh : s.reassembly = .zero) :
    ∀ delivered ∈ deliveries (receiveAll arrivals s).events,
      ∃ t ∈ packets, delivered = (t.packet, t.packet.length) := by
  let P : Transmission → Prop := fun t => t ∈ packets ∧ t.Fragmented
  have run := Proc.runAll_induction (fun arrival => receive arrival.1 arrival.2) s
    (fun _ state events => state.reassembly.HoldsOnly P ∧
      ∀ delivered ∈ deliveries events, ∃ t ∈ packets, delivered = (t.packet, t.packet.length))
    arrivals ⟨by rw [fresh]; exact Reassembly.holdsOnly_zero P, by simp⟩ ?_
  · exact run.2
  · rintro done arrival state events within ⟨only, known⟩
    obtain ⟨t, member, sent⟩ := emitted arrival (within.subset (by simp))
    have agree : t.Fragmented → state.reassembly.Agrees t := by
      -- a slot with this key holds some packet with it, and there is only one
      intro fragmented i keyed
      obtain ⟨u, ⟨other, split⟩, holds⟩ := only i keyed.1
      rwa [distinct t member u other fragmented split (keyed.2.symm.trans holds.key)]
    rw [deliveries_append, List.forall_mem_append]
    rcases receive_carried (wellFormed t member) (Transmission.carries_of_mem sent) arrival.1 state
      agree with ⟨fragmented, k, outcome, advance, table, handed⟩ | ⟨_, table, handed⟩
    · rw [table, handed]
      exact ⟨advance.holdsOnly only ⟨member, fragmented⟩, known,
        fun delivered new => ⟨t, member, advance.delivered delivered new⟩⟩
    · rw [table, handed]
      exact ⟨only, known, fun delivered new => ⟨t, member, List.mem_singleton.mp new⟩⟩

theorem delivered_packet_was_sent_reordered :
    let t : Transmission := ⟨500, 7, List.replicate 1000 0⟩
    let env : Env := ⟨0, id, fun _ => []⟩
    ∀ delivered ∈ deliveries (receiveAll [(env, t.fragment 1), (env, t.fragment 1), (env, t.fragment 0)]
        (lanPlayStart 0 none (fun _ => 0) fun _ => 0)).events,
      delivered = (List.replicate 1000 0, 1000) := by
  intro t env delivered member
  have length : t.packet.length = 1000 := List.length_replicate
  have wf : t.WellFormed := ⟨by decide, by rw [length]; decide⟩
  have parts : t.parts = 2 := wf.parts_eq_two (by rw [length]; decide) (by rw [length]; decide)
  have fragmented : t.Fragmented := ⟨by decide, by rw [parts]; decide⟩
  have emitted : ∀ arrival ∈ [(env, t.fragment 1), (env, t.fragment 1), (env, t.fragment 0)],
      ∃ u ∈ [t], arrival.2 ∈ u.datagrams := by
    simp [Transmission.datagrams_of_fragmented fragmented, parts, List.range_succ]
  obtain ⟨u, sent, same⟩ := delivered_packet_was_sent [t] (by simpa using wf)
    (by simp [DistinctKeys]) _ emitted _ rfl delivered member
  rw [same, List.mem_singleton.mp sent, length]

end SwitchLanPlay
