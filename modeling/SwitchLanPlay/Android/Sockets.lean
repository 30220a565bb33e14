import Mathlib.Algebra.Order.Group.Multiset
import Mathlib.Algebra.Order.Sub.Basic
import Mathlib.Data.Multiset.OrderedMonoid
import SwitchLanPlay.Android.Replies

/-!
# The socket table over whole runs

Entries of the table are made and refreshed by intercepted packets and removed
by the watchdog.  `EntryStep` says what one step can do to the entry of a port;
which entries there are, what they hold and which sockets are open follows from
it for every run.
-/

namespace SwitchLanPlay.Android

open Library

/-! ## What happens to the entry of a port -/

/-- Where and when a packet came from. -/
structure Source where
  ip : InetAddress
  port : Nat
  time : Int

/-- What an entry has recorded. -/
def ManagedSocket.source (managed : ManagedSocket) : Source :=
  ⟨managed.lastSourceIp, managed.lastSourcePort, managed.lastActivity⟩

/-- The packet for a gateway port that `processFromTun` intercepts. -/
def intercepted (gatewayIp : Option InetAddress) (port : Nat) : RelayInput → Option Source
  | .tun read _ now =>
      match parseFromTun gatewayIp read with
      | none => none
      | some packet => if packet.dstPort = port then some ⟨packet.srcIp, packet.srcPort, now⟩ else none
  | _ => none

/-- The port has a socket already, or `DatagramSocket(port)` does not throw. -/
def Binds (port : Nat) (s : Relay) : RelayInput → Prop
  | .tun _ answer _ => port ∈ s.sockets ∨ (bindPort s.sockets port answer).isSome
  | _ => False

/-- A packet for the port is intercepted with an existing or successful bind. -/
def Recorded (port : Nat) (s : Relay) (input : RelayInput) : Prop :=
  (intercepted s.gatewayIp port input).isSome ∧ Binds port s input

/-- The cleanup finds the entry of the port idle. -/
def FoundIdle (port : Nat) (s : Relay) : RelayInput → Prop
  | .watchdog now =>
      ∃ managed, s.sockets.lookup port = some managed ∧ idleTimeoutMs < now - managed.lastActivity
  | _ => False

/-- What a step can make of the entry of a port. -/
inductive EntryStep (port : Nat) (s : Relay) (input : RelayInput) : Option ManagedSocket → Prop
  | recorded (managed : ManagedSocket)
      (packet : intercepted s.gatewayIp port input = some managed.source)
      (binds : Binds port s input) : EntryStep port s input (some managed)
  | refused (source : Source) (packet : intercepted s.gatewayIp port input = some source)
      (absent : port ∉ s.sockets) (throws : ¬ Binds port s input) : EntryStep port s input none
  | removed (quiet : intercepted s.gatewayIp port input = none) (idle : FoundIdle port s input) :
      EntryStep port s input none
  | kept (quiet : intercepted s.gatewayIp port input = none) (active : ¬ FoundIdle port s input) :
      EntryStep port s input (s.sockets.lookup port)

/-! ## One step -/

/-- The local port of the socket that a packet for the gateway port uses. -/
def Relay.binding (s : Relay) (port : Nat) (answer : Option Nat) : Option Nat :=
  match s.sockets.lookup port with
  | some managed => some managed.localPort
  | none => bindPort s.sockets port answer

theorem Relay.binding_eq_none_iff {s : Relay} {port : Nat} {answer : Option Nat} :
    s.binding port answer = none ↔ port ∉ s.sockets ∧ bindPort s.sockets port answer = none := by
  unfold Relay.binding
  cases found : s.sockets.lookup port with
  | some managed =>
      have present : port ∈ s.sockets := by
        rw [← AList.lookup_isSome, found]
        rfl
      exact iff_of_false (Option.some_ne_none _) fun refused => refused.1 present
  | none => exact (and_iff_right (AList.lookup_eq_none.mp found)).symm

/-- A packet that is intercepted records its source, or is dropped without a socket. -/
theorem handleInterceptedPacket_state (srcIp : InetAddress) (srcPort dstPort : Nat) (payload : Bytes)
    (answer : Option Nat) (now : Int) (s : Relay) :
    (handleInterceptedPacket srcIp srcPort dstPort payload answer now s).state =
      (s.binding dstPort answer).elim s (s.recording srcIp srcPort dstPort now) := by
  cases found : s.sockets.lookup dstPort with
  | some managed =>
      rw [handleInterceptedPacket_known _ _ _ _ _ _ found, forwardToServer_state, Relay.binding, found]
      rfl
  | none =>
      cases bound : bindPort s.sockets dstPort answer with
      | none =>
          rw [handleInterceptedPacket_refused _ _ _ _ _ _ found bound, Relay.binding, found, bound]
          rfl
      | some localPort =>
          rw [handleInterceptedPacket_bound _ _ _ _ _ _ found bound, forwardToServer_state,
            Relay.binding, found, bound]
          rfl

theorem SocketTable.lookup_active (sockets : SocketTable) (now : Int) (port : Nat)
    (managed : ManagedSocket) :
    (sockets.active now).lookup port = some managed ↔
      sockets.lookup port = some managed ∧ ¬ idleTimeoutMs < now - managed.lastActivity := by
  refine AList.mem_lookup_iff.trans (Iff.trans ?_ (and_congr_left' AList.mem_lookup_iff.symm))
  rw [SocketTable.active, List.mem_filter]
  simp [idle]

/-- A packet read from the tun writes to the entry of its port only. -/
theorem Relay.elim_recording_lookup_ne (s : Relay) (srcIp : InetAddress) (srcPort : Nat) (now : Int)
    {port dstPort : Nat} (other : port ≠ dstPort) (binding : Option Nat) :
    (binding.elim s (s.recording srcIp srcPort dstPort now)).sockets.lookup port =
      s.sockets.lookup port := by
  cases binding with
  | none => rfl
  | some localPort => exact AList.lookup_insert_ne other

theorem binds_iff_binding {s : Relay} {port : Nat} {read : TunRead} {answer : Option Nat} {now : Int} :
    Binds port s (.tun read answer now) ↔ s.binding port answer ≠ none := by
  rw [Ne, Relay.binding_eq_none_iff, Binds, not_and_or, not_not, Option.isSome_iff_ne_none]

theorem processFromTun_entry (port : Nat) (s : Relay) (read : TunRead) (answer : Option Nat) (now : Int) :
    EntryStep port s (.tun read answer now)
      ((processFromTun read answer now s).state.sockets.lookup port) := by
  rw [processFromTun, Proc.read_bind]
  cases parsed : parseFromTun s.gatewayIp read with
  | none => exact .kept (by simp [intercepted, parsed]) id
  | some packet =>
      rw [Proc.bind_state, Proc.pure_state, handleInterceptedPacket_state]
      rcases eq_or_ne port packet.dstPort with rfl | other
      · have source : intercepted s.gatewayIp packet.dstPort (.tun read answer now) =
            some ⟨packet.srcIp, packet.srcPort, now⟩ := by
          simp [intercepted, parsed]
        cases binding : s.binding packet.dstPort answer with
        | none =>
            have absent := (Relay.binding_eq_none_iff.mp binding).1
            rw [Option.elim_none, AList.lookup_eq_none.mpr absent]
            exact .refused _ source absent fun binds => binds_iff_binding.mp binds binding
        | some localPort =>
            have binds : Binds packet.dstPort s (.tun read answer now) :=
              binds_iff_binding.mpr (by simp [binding])
            rw [Option.elim_some, Relay.recording_sockets, AList.lookup_insert]
            exact .recorded _ source binds
      · rw [s.elim_recording_lookup_ne packet.srcIp packet.srcPort now other]
        exact .kept (by simp [intercepted, parsed, other.symm]) id

theorem SocketTable.active_entry (port : Nat) (s : Relay) (now : Int) :
    EntryStep port s (.watchdog now) ((s.sockets.active now).lookup port) := by
  by_cases idle : FoundIdle port s (.watchdog now)
  · obtain ⟨managed, found, late⟩ := id idle
    have removed : (s.sockets.active now).lookup port = none := by
      refine Option.eq_none_iff_forall_ne_some.mpr fun other present => ?_
      obtain ⟨same, active⟩ := (SocketTable.lookup_active _ _ _ _).mp present
      rw [found] at same
      cases same
      exact active late
    rw [removed]
    exact .removed rfl idle
  · have same : (s.sockets.active now).lookup port = s.sockets.lookup port := by
      refine Option.ext fun managed => (SocketTable.lookup_active _ _ _ _).trans ?_
      exact and_iff_left_of_imp fun found late => idle ⟨managed, found, late⟩
    rw [same]
    exact .kept rfl idle

theorem relayStep_entry (port : Nat) (s : Relay) (input : RelayInput) :
    EntryStep port s input ((relayStep input s).state.sockets.lookup port) := by
  cases input with
  | tun read answer now => exact processFromTun_entry port s read answer now
  | server received =>
      have unchanged : (relayStep (.server received) s).state = s := by
        simp only [relayStep, handleServerPacket]
        cases received.payload with
        | none => rfl
        | some payload => exact processFromServer_state payload 0 s
      rw [unchanged]
      exact .kept rfl id
  | watchdog now =>
      have step : (relayStep (.watchdog now) s).state.sockets = s.sockets.active now := by
        simp [relayStep, cleanupIdleSockets, closeAll_state]
      rw [step]
      exact SocketTable.active_entry port s now
  | rehash entries =>
      have same : (relayStep (.rehash entries) s).state.sockets.lookup port = s.sockets.lookup port :=
        SocketTable.lookup_reorder entries port
      rw [same]
      exact .kept rfl id
  | connected up => exact .kept rfl id

/-! ## Runs -/

theorem relayStep_mem_iff (port : Nat) (s : Relay) (input : RelayInput) :
    port ∈ (relayStep input s).state.sockets ↔
      Recorded port s input ∨ port ∈ s.sockets ∧ ¬ FoundIdle port s input := by
  have entry := relayStep_entry port s input
  rw [← AList.lookup_isSome, ← AList.lookup_isSome]
  generalize (relayStep input s).state.sockets.lookup port = after at entry ⊢
  cases entry with
  | recorded managed packet binds =>
      exact iff_of_true rfl (.inl ⟨by rw [packet]; rfl, binds⟩)
  | refused source packet absent throws =>
      refine iff_of_false Bool.false_ne_true ?_
      rintro (recorded | ⟨present, -⟩)
      · exact throws recorded.2
      · exact absent (AList.lookup_isSome.mp present)
  | removed quiet idle =>
      refine iff_of_false Bool.false_ne_true ?_
      rintro (recorded | ⟨-, active⟩)
      · rw [Recorded, quiet] at recorded
        cases recorded.1
      · exact active idle
  | kept quiet active =>
      have other : ¬ Recorded port s input := by
        rw [Recorded, quiet]
        exact fun recorded => Bool.false_ne_true recorded.1
      rw [or_iff_right other, and_iff_left active]

theorem relayStep_source {port : Nat} {s : Relay} {input : RelayInput} {managed : ManagedSocket}
    (found : (relayStep input s).state.sockets.lookup port = some managed) :
    intercepted s.gatewayIp port input = some managed.source ∨
      s.sockets.lookup port = some managed ∧ intercepted s.gatewayIp port input = none := by
  have entry := relayStep_entry port s input
  generalize (relayStep input s).state.sockets.lookup port = after at entry found
  cases entry with
  | recorded recorded packet _ =>
      cases found
      exact .inl packet
  | refused source packet _ _ => cases found
  | removed _ _ => cases found
  | kept quiet _ => exact .inr ⟨found, quiet⟩

/-! ## Open sockets -/

/-- The local ports of the sockets that are open once an event happened. -/
def openPortsAfter (ports : Multiset Nat) : RelayEvent → Multiset Nat
  | .opened localPort => localPort ::ₘ ports
  | .closed localPort => ports.erase localPort
  | _ => ports

def openPorts (events : List RelayEvent) : Multiset Nat := events.foldl openPortsAfter 0

/-- The local ports of the sockets in the table. -/
def SocketTable.localPorts (sockets : SocketTable) : Multiset Nat :=
  (sockets.values : Multiset ManagedSocket).map ManagedSocket.localPort

theorem forwardToServer_openPorts (payload : Bytes) (port : Nat) (s : Relay) (ports : Multiset Nat) :
    (forwardToServer payload port s).events.foldl openPortsAfter ports = ports := by
  by_cases sends : s.connected = true ∧ payload.length ≤ 2048
  · simp [forwardToServer, sends, openPortsAfter]
  · simp [forwardToServer, sends]

theorem processFromServer_openPorts (payload : Bytes) (port : Nat) (s : Relay) :
    (processFromServer payload port s).events.foldl openPortsAfter s.sockets.localPorts =
      (processFromServer payload port s).state.sockets.localPorts := by
  rw [processFromServer_state]
  unfold processFromServer
  rw [Proc.read_bind]
  cases s.managedFor port <;> rfl

theorem closeAll_openPorts (idleOnes : List ManagedSocket) (s : Relay) (ports : Multiset Nat) :
    (closeAll idleOnes s).events.foldl openPortsAfter ports =
      ports - (idleOnes : Multiset ManagedSocket).map ManagedSocket.localPort := by
  induction idleOnes generalizing ports with
  | nil => simp [closeAll]
  | cons managed rest ih =>
      rw [← Multiset.cons_coe, Multiset.map_cons, Multiset.sub_cons]
      exact ih (ports.erase managed.localPort)

theorem SocketTable.localPorts_insert_of_absent {sockets : SocketTable} {port : Nat}
    (absent : port ∉ sockets) (managed : ManagedSocket) :
    SocketTable.localPorts (sockets.insert port managed) = managed.localPort ::ₘ sockets.localPorts := by
  simp only [localPorts, values, AList.entries_insert_of_notMem absent, List.map_cons,
    ← Multiset.cons_coe, Multiset.map_cons]

theorem SocketTable.localPorts_insert_of_found {sockets : SocketTable} {port : Nat}
    {managed other : ManagedSocket} (found : sockets.lookup port = some managed)
    (same : other.localPort = managed.localPort) :
    SocketTable.localPorts (sockets.insert port other) = sockets.localPorts := by
  have member : ⟨port, managed⟩ ∈ sockets.entries := AList.mem_lookup_iff.mp found
  obtain ⟨entry, before, after, apart, split, erased⟩ :=
    List.exists_of_kerase (List.mem_keys_of_mem member)
  have own : entry = managed := by
    have here : ⟨port, entry⟩ ∈ sockets.entries := by simp [split]
    exact sockets.nodupKeys.eq_of_mk_mem here member
  subst own
  have inserted : (sockets.insert port other).entries = ⟨port, other⟩ :: (before ++ after) := by
    rw [AList.entries_insert]
    exact congrArg _ erased
  simp only [localPorts, values, inserted, split, List.map_append, List.map_cons,
    ← Multiset.cons_coe, ← Multiset.coe_add, Multiset.map_cons, Multiset.map_add, same,
    Multiset.add_cons]

/-- The sockets that are not idle keep their ports. -/
theorem SocketTable.localPorts_active (sockets : SocketTable) (now : Int) :
    sockets.localPorts - (sockets.values.filter (idle now) : Multiset ManagedSocket).map
        ManagedSocket.localPort = (sockets.active now).localPorts := by
  have left : (sockets.active now).values = sockets.values.filter fun managed => !idle now managed := by
    rw [values, values, List.filter_map]
    rfl
  have both : (sockets.values.filter (idle now) : Multiset ManagedSocket) + (sockets.active now).values =
      sockets.values := by
    rw [left, Multiset.coe_add]
    exact Multiset.coe_eq_coe.mpr (List.filter_append_perm (idle now) sockets.values)
  rw [localPorts, ← both, Multiset.map_add, add_tsub_cancel_left]
  rfl

/-- Sockets are opened and closed as entries come and go. -/
theorem relayStep_openPorts (input : RelayInput) (s : Relay) :
    (relayStep input s).events.foldl openPortsAfter s.sockets.localPorts =
      (relayStep input s).state.sockets.localPorts := by
  cases input with
  | tun read answer now =>
      have step : relayStep (.tun read answer now) s =
          (processFromTun read answer now >>= fun _ => pure ()) s := rfl
      rw [step, Proc.bind_events, Proc.bind_state, Proc.pure_events, Proc.pure_state, List.append_nil,
        processFromTun, Proc.read_bind]
      cases parsed : parseFromTun s.gatewayIp read with
      | none => rfl
      | some packet =>
          simp only [Proc.bind_events, Proc.bind_state, Proc.pure_events, Proc.pure_state, List.append_nil]
          cases found : s.sockets.lookup packet.dstPort with
          | some managed =>
              rw [handleInterceptedPacket_known _ _ _ _ _ _ found, forwardToServer_openPorts,
                forwardToServer_state, Relay.recording_sockets]
              exact (SocketTable.localPorts_insert_of_found found rfl).symm
          | none =>
              cases bound : bindPort s.sockets packet.dstPort answer with
              | none => rw [handleInterceptedPacket_refused _ _ _ _ _ _ found bound, List.foldl_nil]
              | some localPort =>
                  rw [handleInterceptedPacket_bound _ _ _ _ _ _ found bound, List.foldl_cons,
                    forwardToServer_openPorts, forwardToServer_state, Relay.recording_sockets,
                    SocketTable.localPorts_insert_of_absent (AList.lookup_eq_none.mp found)]
                  rfl
  | server received =>
      simp only [relayStep, handleServerPacket]
      cases received.payload with
      | none => rfl
      | some payload => exact processFromServer_openPorts payload 0 s
  | watchdog now =>
      simp only [relayStep, cleanupIdleSockets, Proc.bind_events, Proc.bind_state, Proc.read_events,
        Proc.read_value, Proc.read_state, Proc.update_events, Proc.update_state, closeAll_state,
        List.nil_append, List.append_nil, closeAll_openPorts]
      exact SocketTable.localPorts_active s.sockets now
  | rehash entries =>
      change s.sockets.localPorts = (s.sockets.reorder entries).localPorts
      unfold SocketTable.reorder
      split
      case isTrue same =>
        exact (Multiset.coe_eq_coe.mpr ((same.map Sigma.snd).map ManagedSocket.localPort)).symm
      case isFalse other => rfl
  | connected up => rfl

/-- `stop` closes what is open. -/
theorem stop_closes_all (s : Relay) :
    (stop s).events.foldl openPortsAfter s.sockets.localPorts = 0 ∧ (stop s).state.sockets = ∅ := by
  refine ⟨?_, rfl⟩
  simp only [stop, Proc.bind_events, Proc.read_events, Proc.read_value, Proc.read_state,
    Proc.update_events, List.nil_append, List.append_nil, closeAll_openPorts]
  exact tsub_self _

/-- A packet that an answer of the server is injected as goes to the source
recorded in an entry that no other one is newer than. -/
theorem injected_to_latest {s : Relay} (sound : s.sockets.Sound) {received : Received} {packet : Bytes}
    (injected : .tunWrite packet ∈ (handleServerPacket received s).events) :
    ∃ port managed, s.sockets.lookup port = some managed ∧
      (∀ other ∈ s.sockets.values, other.lastActivity ≤ managed.lastActivity) ∧
      inetAddressAt packet 16 = managed.lastSourceIp ∧ net16At packet 22 = managed.lastSourcePort := by
  cases accepted : received.payload with
  | none =>
      rw [handleServerPacket, accepted] at injected
      cases injected
  | some payload =>
      cases latest : maxByOrNull ManagedSocket.lastActivity s.sockets.values with
      | none =>
          have nobody : s.managedFor 0 = none := latest
          rw [handleServerPacket, accepted] at injected
          simp [processFromServer, nobody] at injected
      | some managed =>
          rw [handleServerPacket_events accepted latest, List.mem_singleton] at injected
          cases injected
          rw [maxByOrNull_eq_argmax] at latest
          obtain ⟨port, found⟩ := SocketTable.mem_values_iff.mp (List.argmax_mem latest)
          obtain ⟨-, wide, narrow⟩ := sound.range port managed found
          obtain ⟨-, ip, dstPort, -⟩ := buildRawUdpPacket_fields (s.gatewayIp.getD defaultGateway)
            managed.lastSourceIp managed.localPort managed.lastSourcePort payload wide narrow
          exact ⟨port, managed, found, fun other member => List.le_of_mem_argmax member latest, ip, dstPort⟩

/-- In every run: the table has an entry for a port exactly when some packet for
it was intercepted with a socket and no later cleanup found the entry idle; the
entry holds the source of the latest intercepted packet for the port; the open
sockets are those in the table; and answers are injected to the recorded source
of an entry that was active last. -/
theorem relay_sockets_exact (gatewayIp : Option InetAddress) (inputs : List RelayInput) :
    let final := Proc.runAll relayStep inputs (.start gatewayIp)
    (∀ port, port ∈ final.state.sockets ↔
        Proc.Since relayStep (Recorded port) (fun s input => ¬ FoundIdle port s input)
          (.start gatewayIp) inputs) ∧
      (∀ port managed, final.state.sockets.lookup port = some managed →
        Proc.Since relayStep (fun s input => intercepted s.gatewayIp port input = some managed.source)
          (fun s input => intercepted s.gatewayIp port input = none) (.start gatewayIp) inputs) ∧
      final.state.sockets.Sound ∧
      openPorts final.events = final.state.sockets.localPorts ∧
      ∀ received packet, .tunWrite packet ∈ (relayStep (.server received) final.state).events →
        ∃ port managed, final.state.sockets.lookup port = some managed ∧
          (∀ other ∈ final.state.sockets.values, other.lastActivity ≤ managed.lastActivity) ∧
          inetAddressAt packet 16 = managed.lastSourceIp ∧
          net16At packet 22 = managed.lastSourcePort := by
  have sound := relay_run_sound gatewayIp inputs
  refine ⟨fun port => ?_, fun port managed => ?_, sound, ?_, fun received packet => ?_⟩
  · induction inputs using List.reverseRecOn with
    | nil => exact iff_of_false (AList.notMem_empty port) (Proc.not_since_nil _)
    | append_singleton first last ih =>
        rw [Proc.runAll_snoc_state, relayStep_mem_iff, Proc.since_snoc,
          ih (relay_run_sound gatewayIp first)]
  · induction inputs using List.reverseRecOn with
    | nil => exact fun found => absurd found (by simp [Relay.start])
    | append_singleton first last ih =>
        intro found
        rw [Proc.runAll_snoc_state] at found
        rw [Proc.since_snoc]
        exact (relayStep_source found).imp_right fun ⟨older, quiet⟩ =>
          ⟨ih (relay_run_sound gatewayIp first) older, quiet⟩
  · refine Proc.runAll_induction relayStep _
      (fun _ s events => openPorts events = s.sockets.localPorts) inputs rfl ?_
    intro done input s events _ opened
    rw [openPorts, List.foldl_append, ← openPorts, opened, relayStep_openPorts]
  · exact injected_to_latest sound

end SwitchLanPlay.Android
