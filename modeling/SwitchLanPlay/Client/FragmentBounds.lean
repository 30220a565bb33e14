import SwitchLanPlay.Client.Reassembly

/-!
# Fragment datagrams and the bounds of buffers

`lan_client_process_frag` trusts the header of a datagram: it never compares
the length of the payload with the bytes received, nor its end with the slot.
The theorem says exactly which datagrams keep every access inside, along runs
that start with the zeroed table and consist of arbitrary datagrams.
-/

namespace SwitchLanPlay

open Library SlotTable

/-- The accesses in question: reads of the `received` bytes, the copy into a
slot, and the length handed to `lan_client_process`. -/
def FragmentInBounds (received : Nat) : Event → Prop
  | .load .clientBuf offset size => offset + size ≤ received
  | .store .slot offset size => offset + size ≤ etherMtu
  | .process _ len => len ≤ etherMtu
  | _ => True

/-- `lan_client_on_recv` hands the datagram to `lan_client_process_frag`. -/
def DispatchesFrag (datagram : Bytes) : Prop :=
  datagram ≠ [] ∧ UInt8.ofNat ((byteAt datagram 0).toNat % 0x80) = lanClientTypeIpv4Frag

/-- The datagram has a whole header and, unless the fragment is ignored, the
payload lies in the datagram and fits where the header puts it. -/
def FragmentFits (table : Reassembly) (datagram : Bytes) : Prop :=
  1 + lcFragHeaderLen ≤ datagram.length ∧
    (table.obtain (headerAt datagram 1) ≠ none →
      1 + lcFragHeaderLen + (headerAt datagram 1).len ≤ datagram.length ∧
        (headerAt datagram 1).pmtu * (headerAt datagram 1).part + (headerAt datagram 1).len ≤ etherMtu)

/-- No slot has a length beyond its buffer. -/
def Reassembly.Bounded (table : Reassembly) : Prop := ∀ i, (table.frags i).totalLen ≤ etherMtu

/-! ## One fragment -/

theorem fragmentInBounds_sends (received : Nat) : Sends (FragmentInBounds received) .slot := by
  constructor <;> intros <;> trivial

/-- A header that was received is read without the stale bytes behind it. -/
theorem headerAt_append (datagram stale : Bytes)
    (whole : 1 + lcFragHeaderLen ≤ datagram.length) :
    headerAt (datagram ++ stale) 1 = headerAt datagram 1 := by
  have inside : ∀ offset < 17, byteAt (datagram ++ stale) offset = byteAt datagram offset :=
    fun offset below => byteAt_append_left _ _ _ (lt_of_lt_of_le below whole)
  simp only [headerAt, net16At, LanClientFragmentHeader.mk.injEq, lcFragSrc, lcFragDst,
    lcFragId, lcFragPart, lcFragTotalPart, lcFragLen, lcFragPmtu]
  refine ⟨?_, ?_, ?_, ?_, ?_, ?_, ?_⟩
  · exact funext fun index => inside _ (by omega)
  · exact funext fun index => inside _ (by omega)
  · rw [inside _ (by decide), inside _ (by decide)]
  · rw [inside _ (by decide)]
  · rw [inside _ (by decide)]
  · rw [inside _ (by decide), inside _ (by decide)]
  · rw [inside _ (by decide), inside _ (by decide)]

theorem emits_readHeader {σ : Type} (received : Nat) (memory : Bytes) (s : σ) :
    (readHeader ⟨.clientBuf, memory, 1⟩).Emits (FragmentInBounds received) s ↔
      1 + lcFragHeaderLen ≤ received := by
  simp only [readHeader, emits_cpyIpv4, emits_readNet16, emits_readNet8, Proc.emits_bind,
    Proc.emits_pure, and_true, FragmentInBounds, Ptr.plus, lcFragSrc, lcFragDst, lcFragId,
    lcFragPart, lcFragTotalPart, lcFragLen, lcFragPmtu, lcFragHeaderLen]
  omega

theorem emits_finishFragment (received : Nat) (now : Int) (table : Reassembly) (i : Fin lcFragCount)
    (slot : LanClientFragment) (bounded : slot.totalLen ≤ etherMtu) (totalPart : Nat) (s : LanPlay) :
    (finishFragment now table i slot totalPart).Emits (FragmentInBounds received) s := by
  unfold finishFragment
  rw [Proc.emits_ite]
  refine ⟨fun _ => ?_, fun _ => by simp⟩
  have forwarded : ∀ s, (lanClientForward now ⟨.slot, slot.buffer, 0⟩ slot.totalLen).Emits
      (FragmentInBounds received) s := fun s =>
    (lanClientForward_framed now (fragmentInBounds_sends received) slot.totalLen s).2
  simp only [lanClientProcess, Proc.emits_bind, Proc.emits_update, Proc.emits_emit, true_and]
  exact ⟨bounded, forwarded _⟩

/-- The length a fragment leaves in its slot. -/
theorem store_totalLen_le {slot : LanClientFragment} {header : LanClientFragmentHeader}
    {payload : Bytes} (bounded : slot.totalLen ≤ etherMtu)
    (fits : header.pmtu * header.part + header.len ≤ etherMtu) :
    (slot.store header payload).totalLen ≤ etherMtu := by
  change (if header.part + 1 = header.totalPart then
    ((header.totalPart - 1) * header.pmtu + header.len) % 2 ^ 16 else slot.totalLen) ≤ _
  split
  · rename_i last
    have part : header.totalPart - 1 = header.part := by omega
    rw [part, Nat.mul_comm]
    exact le_trans (Nat.mod_le _ _) fits
  · exact bounded

/-- Keying a slot anew leaves its length. -/
theorem Reassembly.Bounded.obtain {table keyed : Reassembly} (bounded : table.Bounded)
    {header : LanClientFragmentHeader} {i : Fin lcFragCount}
    (obtained : table.obtain header = some (i, keyed)) : keyed.Bounded := by
  rcases Reassembly.obtain_some obtained with ⟨_, rfl⟩ | ⟨_, rfl, _⟩
  · exact bounded
  · intro j
    by_cases here : j = i
    · subst here
      simpa [Reassembly.allocate] using bounded j
    · simpa [Reassembly.allocate, Function.update_of_ne here] using bounded j

/-- The accesses of `lan_client_process_frag` on a table whose lengths are
bounded. -/
theorem emits_lanClientProcessFrag (received : Nat) (now : Int) (memory : Bytes) (len : Nat)
    (s : LanPlay) (bounded : s.reassembly.Bounded) :
    (lanClientProcessFrag now ⟨.clientBuf, memory, 1⟩ len).Emits (FragmentInBounds received) s ↔
      1 + lcFragHeaderLen ≤ received ∧
        (s.reassembly.obtain (headerAt memory 1) ≠ none →
          1 + lcFragHeaderLen + (headerAt memory 1).len ≤ received ∧
            (headerAt memory 1).pmtu * (headerAt memory 1).part + (headerAt memory 1).len ≤
              etherMtu) := by
  unfold lanClientProcessFrag
  rw [Proc.emits_bind, emits_readHeader]
  refine and_congr_right fun _ => ?_
  simp only [Proc.emits_bind, Proc.emits_read, true_and, Proc.read_value, Proc.read_state,
    readHeader_value, readHeader_state]
  cases obtained : s.reassembly.obtain (headerAt memory 1) with
  | none => simp [FragmentInBounds]
  | some choice =>
      obtain ⟨i, keyed⟩ := choice
      simp only [Proc.emits_bind, Proc.emits_emit, emits_loadBytes]
      constructor
      · rintro ⟨read, copied, _⟩ _
        exact ⟨read, copied⟩
      · intro fits
        obtain ⟨read, copied⟩ := fits (Option.some_ne_none _)
        exact ⟨read, copied, emits_finishFragment received now _ i _
          (store_totalLen_le (bounded.obtain obtained i) copied) _ _⟩

/-- The lengths stay bounded when the copy fits. -/
theorem Reassembly.Bounded.step {table : Reassembly} (bounded : table.Bounded)
    {header : LanClientFragmentHeader} {payload : Bytes} (size : payload.length = header.len)
    (fits : table.obtain header ≠ none → header.pmtu * header.part + header.len ≤ etherMtu) :
    (table.step header payload).1.Bounded := by
  unfold Reassembly.step
  cases obtained : table.obtain header with
  | none => exact bounded
  | some choice =>
      obtain ⟨i, keyed⟩ := choice
      have keptBounded := bounded.obtain obtained
      have inside := fits (by rw [obtained]; exact Option.some_ne_none _)
      have stored : ((keyed.frags i).store header payload).totalLen ≤ etherMtu :=
        store_totalLen_le (keptBounded i) inside
      have updated : ∀ slot : LanClientFragment, slot.totalLen ≤ etherMtu →
          ∀ j, (Function.update keyed.frags i slot j).totalLen ≤ etherMtu := by
        intro slot small j
        by_cases here : j = i
        · subst here
          rwa [Function.update_self]
        · rw [Function.update_of_ne here]
          exact keptBounded j
      change ((keyed.spill i _ _).finish i _ _).1.Bounded
      rw [Reassembly.spill_of_fits _ _ (size ▸ inside)]
      unfold Reassembly.finish
      split
      · exact updated _ stored
      · exact updated _ stored

/-! ## One datagram -/

theorem receive_frag_outcome (env : Env) {datagram : Bytes} (dispatches : DispatchesFrag datagram)
    (s : LanPlay) :
    ∃ len, receive env datagram s =
      ⟨(), (lanClientProcessFrag env.now (s.arrivalPtr datagram) len (s.arrival datagram)).state,
        .load .clientBuf 0 1 ::
          (lanClientProcessFrag env.now (s.arrivalPtr datagram) len (s.arrival datagram)).events⟩ := by
  obtain ⟨nonempty, type⟩ := dispatches
  cases datagram with
  | nil => exact absurd rfl nonempty
  | cons first rest =>
      have outcome := receive_outcome env first rest s
      rw [byteAt_cons_zero] at type
      rw [type, lanClientDispatch_frag] at outcome
      exact ⟨(rest.length + 1) % 2 ^ 16 - 1, outcome⟩

theorem emits_receive_frag (env : Env) {datagram : Bytes} (dispatches : DispatchesFrag datagram)
    (s : LanPlay) (bounded : s.reassembly.Bounded) :
    (receive env datagram).Emits (FragmentInBounds datagram.length) s ↔
      FragmentFits s.reassembly datagram := by
  obtain ⟨len, outcome⟩ := receive_frag_outcome env dispatches s
  have nonempty : 0 < datagram.length := List.length_pos_iff.mpr dispatches.1
  have handled := emits_lanClientProcessFrag datagram.length env.now
    (datagram ++ s.clientBuf.drop datagram.length) len (s.arrival datagram) bounded
  unfold Proc.Emits at handled ⊢
  rw [outcome, List.forall_mem_cons]
  change _ ∧ (∀ event ∈ (lanClientProcessFrag env.now (s.arrivalPtr datagram) len
    (s.arrival datagram)).events, _) ↔ _
  rw [LanPlay.arrivalPtr, handled]
  unfold FragmentFits
  constructor
  · rintro ⟨_, whole, fits⟩
    rw [headerAt_append _ _ whole] at fits
    exact ⟨whole, fits⟩
  · rintro ⟨whole, fits⟩
    rw [headerAt_append _ _ whole]
    exact ⟨nonempty, whole, fits⟩

theorem receive_frag_bounded (env : Env) {datagram : Bytes} (dispatches : DispatchesFrag datagram)
    (s : LanPlay) (bounded : s.reassembly.Bounded) (fits : FragmentFits s.reassembly datagram) :
    (receive env datagram s).state.reassembly.Bounded := by
  obtain ⟨len, outcome⟩ := receive_frag_outcome env dispatches s
  have stepped := (lanClientProcessFrag_step env.now (s.arrivalPtr datagram) len
    (s.arrival datagram)).1
  rw [outcome]
  change (lanClientProcessFrag env.now (s.arrivalPtr datagram) len
    (s.arrival datagram)).state.reassembly.Bounded
  rw [stepped]
  refine bounded.step (length_slice _ _ _) ?_
  simp only [LanPlay.arrivalPtr, headerAt_append _ _ fits.1]
  exact fun kept => (fits.2 kept).2

/-- The computation leaves the table alone. -/
abbrev KeepsTable {α : Type} (m : Proc LanPlay Event α) : Prop :=
  m.Framed LanPlay.reassembly fun _ => True

theorem loadBytes_keepsTable (pointer : Ptr) (size : Nat) : KeepsTable (loadBytes pointer size) :=
  (Proc.framed_emit trivial).bind fun _ => Proc.framed_pure _

theorem lanClientProcessAuthMe_keepsTable (sha1 : Bytes → Bytes) (packet : Ptr) (len : Nat) :
    KeepsTable (lanClientProcessAuthMe sha1 packet len) := by
  refine Proc.framed_read.bind fun lanPlay => ?_
  cases lanPlay.username with
  | none => exact Proc.framed_pure _
  | some username =>
      have read : KeepsTable (readNet8 packet 0) :=
        (Proc.framed_emit trivial).bind fun _ => Proc.framed_pure _
      refine read.bind fun authType => Proc.framed_ite ?_ (Proc.framed_pure _)
      refine (loadBytes_keepsTable _ _).bind fun challenge => ?_
      refine Proc.Framed.bind (Proc.framed_zoom (fun _ _ => rfl) ?_) fun _ => Proc.framed_pure _
      exact fun _ _ _ => trivial

theorem lanClientDispatch_keepsTable (env : Env) {type : UInt8} (other : type ≠ lanClientTypeIpv4Frag)
    (packet : Ptr) (len : Nat) : KeepsTable (lanClientDispatch env type packet len) := by
  unfold lanClientDispatch
  refine Proc.framed_ite ?_ ?_
  · refine Proc.Framed.bind ?_ fun _ => Proc.framed_pure _
    have forward := lanClientForward_framed env.now (sends_anything packet.region) len
    exact (Proc.framed_emit trivial).bind fun _ => forward.coarsen fun _ _ => reassembly_of_core
  · rw [if_neg other]
    refine Proc.framed_ite (lanClientProcessAuthMe_keepsTable _ _ _) (Proc.framed_ite ?_ ?_)
    · exact (loadBytes_keepsTable _ _).bind fun _ => Proc.framed_emit trivial
    · exact Proc.framed_pure _

/-- A datagram of another type leaves the table alone. -/
theorem receive_other (env : Env) {datagram : Bytes} (other : ¬ DispatchesFrag datagram)
    (s : LanPlay) : (receive env datagram s).state.reassembly = s.reassembly := by
  cases datagram with
  | nil => rfl
  | cons first rest =>
      have type : UInt8.ofNat (first.toNat % 0x80) ≠ lanClientTypeIpv4Frag := fun same =>
        other ⟨List.cons_ne_nil _ _, same⟩
      rw [receive_outcome]
      exact (lanClientDispatch_keepsTable env type _ _ (s.arrival (first :: rest))).1

/-! ## Runs -/

/-- In every run of datagrams of any content: the accesses of each call of
`lan_client_process_frag` are inside exactly when each of the datagrams fits. -/
theorem fragment_accesses_inside_iff (arrivals : List (Env × Bytes)) (s : LanPlay)
    (fresh : s.reassembly = .zero) :
    Proc.Along (fun arrival => receive arrival.1 arrival.2)
        (fun state arrival => DispatchesFrag arrival.2 →
          (receive arrival.1 arrival.2).Emits (FragmentInBounds arrival.2.length) state) s arrivals ↔
      Proc.Along (fun arrival => receive arrival.1 arrival.2)
        (fun state arrival => DispatchesFrag arrival.2 →
          FragmentFits state.reassembly arrival.2) s arrivals := by
  have agree : ∀ state (arrival : Env × Bytes), state.reassembly.Bounded →
      ((DispatchesFrag arrival.2 →
        (receive arrival.1 arrival.2).Emits (FragmentInBounds arrival.2.length) state) ↔
      (DispatchesFrag arrival.2 → FragmentFits state.reassembly arrival.2)) :=
    fun state arrival bounded => forall_congr' fun dispatches =>
      emits_receive_frag arrival.1 dispatches state bounded
  refine Proc.along_congr (fun state => state.reassembly.Bounded) agree ?_ arrivals s ?_
  · intro state arrival bounded inside
    by_cases dispatches : DispatchesFrag arrival.2
    · exact receive_frag_bounded arrival.1 dispatches state bounded
        ((agree state arrival bounded).mp inside dispatches)
    · rw [receive_other arrival.1 dispatches state]
      exact bounded
  · rw [fresh]
    exact fun i => Nat.zero_le _

theorem fragment_accesses_inside_first_part :
    Proc.Along (fun arrival => receive arrival.1 arrival.2)
      (fun state arrival => DispatchesFrag arrival.2 →
        (receive arrival.1 arrival.2).Emits (FragmentInBounds arrival.2.length) state)
      (lanPlayStart 0 none (fun _ => 0) fun _ => 0)
      [((⟨0, id, fun _ => []⟩ : Env), (stepTransmission 0 1000).fragment 0)] := by
  have within : 1000 ≤ 1000 := Nat.le_refl _
  have partLen := stepTransmission_partLen within 0 (by decide : 0 < 2)
  have length := (stepTransmission 0 1000).length_fragment 0
  have header := Transmission.headerAt_fragment (stepTransmission_wellFormed within 0)
    (stepTransmission_fragmented within 0) (by rw [stepTransmission_parts within]; decide : 0 < _) []
  rw [partLen] at length
  rw [List.append_nil] at header
  refine (fragment_accesses_inside_iff _ _ rfl).mpr ⟨fun _ => ⟨by rw [length]; decide, fun _ => ?_⟩,
    trivial⟩
  have len : ((stepTransmission 0 1000).wireHeader 0).len = 500 := partLen
  have part : ((stepTransmission 0 1000).wireHeader 0).part = 0 := rfl
  rw [header, len, part, length]
  decide

/-- A fragment datagram of 217 bytes whose header puts the payload across the
end of the slot. -/
def overlongFragment : Bytes :=
  lanClientTypeIpv4Frag ::
    (LanClientFragmentHeader.toBytes ⟨noneIp, noneIp, 0, 1, 2, 200, 1400⟩ ++ List.replicate 200 0)

/-- On the zeroed table it is copied to bytes 1400 to 1600 of a slot. -/
theorem overlongFragment_leaves_slot :
    overlongFragment.length = 217 ∧ DispatchesFrag overlongFragment ∧
      ¬ (receive ⟨0, id, fun _ => []⟩ overlongFragment).Emits
        (FragmentInBounds overlongFragment.length) (lanPlayStart 0 none (fun _ => 0) fun _ => 0) := by
  have length : overlongFragment.length = 217 := by
    rw [overlongFragment, List.length_cons, List.length_append,
      LanClientFragmentHeader.length_toBytes, List.length_replicate]
  have dispatches : DispatchesFrag overlongFragment := ⟨List.cons_ne_nil _ _, rfl⟩
  refine ⟨length, dispatches, ?_⟩
  rw [emits_receive_frag _ dispatches _ fun i => Nat.zero_le _]
  rintro ⟨_, fits⟩
  have header : headerAt overlongFragment 1 = ⟨noneIp, noneIp, 0, 1, 2, 200, 1400⟩ :=
    headerAt_toBytes _ _ _
  have kept : (lanPlayStart 0 none (fun _ => 0) fun _ => 0).reassembly.obtain
      (headerAt overlongFragment 1) ≠ none := fun ignored => by
    have full := (Reassembly.obtain_eq_none_iff.mp ignored).2.1 0
    cases full
  have inside := (fits kept).2
  rw [header] at inside
  revert inside
  decide

end SwitchLanPlay
