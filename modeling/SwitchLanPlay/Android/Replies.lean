import Mathlib.Data.List.MinMax
import SwitchLanPlay.Android.Relay

/-!
# Where the answers of the server go

`handleServerPacket` does not know which gateway port a datagram of the server
answers: it always passes port 0, and `processFromServer` then takes the entry
that was active last.  A reply reaches the flow it answers exactly when that
entry is the flow's own one.
-/

namespace SwitchLanPlay.Android

open Library

/-! ## The socket table -/

namespace SocketTable

variable {sockets : SocketTable}

theorem mem_values_iff {managed : ManagedSocket} :
    managed ∈ sockets.values ↔ ∃ port, sockets.lookup port = some managed := by
  simp only [values, List.mem_map]
  constructor
  · rintro ⟨⟨port, managed⟩, member, rfl⟩
    exact ⟨port, AList.mem_lookup_iff.mpr member⟩
  · rintro ⟨port, found⟩
    exact ⟨⟨port, managed⟩, AList.mem_lookup_iff.mp found, rfl⟩

theorem lookup_of_active {now : Int} {port : Nat} {managed : ManagedSocket}
    (found : (sockets.active now).lookup port = some managed) : sockets.lookup port = some managed :=
  AList.mem_lookup_iff.mpr (List.mem_of_mem_filter (AList.mem_lookup_iff.mp found))

theorem lookup_reorder (entries : List (Sigma fun _ : Nat => ManagedSocket)) (port : Nat) :
    (sockets.reorder entries).lookup port = sockets.lookup port := by
  unfold reorder
  split
  case isTrue same => exact AList.perm_lookup same
  case isFalse other => rfl

/-- The sockets in the table are bound to ports of their own, each to the gateway
port it serves unless that is 0. -/
structure Sound (sockets : SocketTable) : Prop where
  bound : ∀ port managed, sockets.lookup port = some managed → port ≠ 0 → managed.localPort = port
  range : ∀ port managed, sockets.lookup port = some managed →
    managed.localPort ≠ 0 ∧ managed.localPort < 2 ^ 16 ∧ managed.lastSourcePort < 2 ^ 16
  distinct : ∀ port other managed managed', sockets.lookup port = some managed →
    sockets.lookup other = some managed' → managed.localPort = managed'.localPort → port = other

theorem sound_empty : Sound ∅ := by
  constructor
  all_goals
    intros
    exact absurd ‹AList.lookup _ ∅ = some _› (by simp)

theorem Sound.mono {smaller : SocketTable} (sound : sockets.Sound)
    (kept : ∀ port managed, smaller.lookup port = some managed → sockets.lookup port = some managed) :
    smaller.Sound where
  bound := fun port managed found => sound.bound port managed (kept port managed found)
  range := fun port managed found => sound.range port managed (kept port managed found)
  distinct := fun port other managed managed' found found' =>
    sound.distinct port other managed managed' (kept _ _ found) (kept _ _ found')

theorem Sound.insert {port : Nat} {entry : ManagedSocket} (sound : sockets.Sound)
    (bound : port ≠ 0 → entry.localPort = port)
    (range : entry.localPort ≠ 0 ∧ entry.localPort < 2 ^ 16 ∧ entry.lastSourcePort < 2 ^ 16)
    (fresh : ∀ other managed, other ≠ port → sockets.lookup other = some managed →
      managed.localPort ≠ entry.localPort) :
    Sound (sockets.insert port entry) := by
  have cases : ∀ {other managed}, (sockets.insert port entry).lookup other = some managed →
      (other = port ∧ managed = entry) ∨ (other ≠ port ∧ sockets.lookup other = some managed) := by
    intro other managed found
    rcases eq_or_ne other port with rfl | away
    · rw [AList.lookup_insert] at found
      exact .inl ⟨rfl, (Option.some.inj found).symm⟩
    · rw [AList.lookup_insert_ne away] at found
      exact .inr ⟨away, found⟩
  constructor
  · intro other managed found
    rcases cases found with ⟨rfl, rfl⟩ | ⟨-, found⟩
    · exact bound
    · exact sound.bound other managed found
  · intro other managed found
    rcases cases found with ⟨rfl, rfl⟩ | ⟨-, found⟩
    · exact range
    · exact sound.range other managed found
  · intro first second managed managed' found found' same
    rcases cases found with ⟨rfl, rfl⟩ | ⟨away, found⟩
    · rcases cases found' with ⟨rfl, -⟩ | ⟨away', found'⟩
      · rfl
      · exact absurd same.symm (fresh second managed' away' found')
    · rcases cases found' with ⟨here, new⟩ | ⟨-, found'⟩
      · exact absurd (new ▸ same) (fresh first managed (here ▸ away) found)
      · exact sound.distinct first second managed managed' found found' same

end SocketTable

/-! ## Runs -/

theorem forwardToServer_state (payload : Bytes) (sourcePort : Nat) (s : Relay) :
    (forwardToServer payload sourcePort s).state = s := by
  by_cases sends : s.connected = true ∧ payload.length ≤ 2048
  · simp [forwardToServer, sends]
  · simp [forwardToServer, sends]

section Intercepted

variable (srcIp : InetAddress) (srcPort dstPort : Nat) (payload : Bytes) (answer : Option Nat) (now : Int)
  {s : Relay}

/-- The state once the source of a packet is recorded. -/
def Relay.recording (s : Relay) (localPort : Nat) : Relay :=
  { s with sockets := s.sockets.insert dstPort ⟨localPort, srcIp, srcPort, now⟩ }

theorem Relay.recording_sockets (localPort : Nat) :
    (s.recording srcIp srcPort dstPort now localPort).sockets =
      s.sockets.insert dstPort ⟨localPort, srcIp, srcPort, now⟩ := rfl

theorem handleInterceptedPacket_known {managed : ManagedSocket}
    (found : s.sockets.lookup dstPort = some managed) :
    handleInterceptedPacket srcIp srcPort dstPort payload answer now s =
      forwardToServer payload dstPort (s.recording srcIp srcPort dstPort now managed.localPort) := by
  unfold handleInterceptedPacket
  rw [Proc.read_bind]
  simp only [found]
  rfl

theorem handleInterceptedPacket_refused (absent : s.sockets.lookup dstPort = none)
    (throws : bindPort s.sockets dstPort answer = none) :
    handleInterceptedPacket srcIp srcPort dstPort payload answer now s = ⟨(), s, []⟩ := by
  unfold handleInterceptedPacket
  rw [Proc.read_bind]
  simp only [absent, throws]
  rfl

theorem handleInterceptedPacket_bound {localPort : Nat} (absent : s.sockets.lookup dstPort = none)
    (bound : bindPort s.sockets dstPort answer = some localPort) :
    let done := forwardToServer payload dstPort (s.recording srcIp srcPort dstPort now localPort)
    handleInterceptedPacket srcIp srcPort dstPort payload answer now s =
      ⟨(), done.state, .opened localPort :: done.events⟩ := by
  unfold handleInterceptedPacket
  rw [Proc.read_bind]
  simp only [absent, bound]
  rfl

end Intercepted

theorem bindPort_spec {sockets : SocketTable} {port localPort : Nat} {answer : Option Nat}
    (answered : bindPort sockets port answer = some localPort) :
    (port ≠ 0 → localPort = port) ∧ localPort ≠ 0 ∧ localPort < 2 ^ 16 ∧
      ∀ other managed, sockets.lookup other = some managed → managed.localPort ≠ localPort := by
  obtain ⟨free, -, chosen⟩ := Option.bind_eq_some_iff.mp answered
  simp only [Option.ite_none_left_eq_some, not_or, Option.some.injEq] at chosen
  obtain ⟨⟨nonzero, wide, unused⟩, rfl⟩ := chosen
  refine ⟨fun named => if_neg named, nonzero, Nat.lt_of_not_le wide, ?_⟩
  intro other managed found same
  refine unused (List.any_eq_true.mpr ⟨managed, SocketTable.mem_values_iff.mpr ⟨other, found⟩, ?_⟩)
  exact decide_eq_true same

/-- An intercepted packet leaves the table alone or records its source. -/
theorem handleInterceptedPacket_sound {s : Relay} (sound : s.sockets.Sound) (srcIp : InetAddress)
    {srcPort : Nat} (narrow : srcPort < 2 ^ 16) (dstPort : Nat) (payload : Bytes)
    (answer : Option Nat) (now : Int) :
    (handleInterceptedPacket srcIp srcPort dstPort payload answer now s).state.sockets.Sound := by
  cases found : s.sockets.lookup dstPort with
  | some managed =>
      rw [handleInterceptedPacket_known _ _ _ _ _ _ found, forwardToServer_state, Relay.recording_sockets]
      obtain ⟨nonzero, wide, -⟩ := sound.range dstPort managed found
      refine sound.insert (sound.bound dstPort managed found) ⟨nonzero, wide, narrow⟩ ?_
      exact fun other managed' away found' same =>
        away (sound.distinct other dstPort managed' managed found' found same)
  | none =>
      cases answered : bindPort s.sockets dstPort answer with
      | none =>
          rw [handleInterceptedPacket_refused _ _ _ _ _ _ found answered]
          exact sound
      | some localPort =>
          rw [handleInterceptedPacket_bound _ _ _ _ _ _ found answered, forwardToServer_state,
            Relay.recording_sockets]
          obtain ⟨bound, nonzero, wide, fresh⟩ := bindPort_spec answered
          exact sound.insert bound ⟨nonzero, wide, narrow⟩ fun other managed _ => fresh other managed

theorem parseFromTun_srcPort {gatewayIp : Option InetAddress} {read : TunRead} {packet : Intercepted}
    (parsed : parseFromTun gatewayIp read = some packet) : packet.srcPort < 2 ^ 16 := by
  simp only [parseFromTun, Option.ite_none_left_eq_some, Option.some.injEq] at parsed
  obtain ⟨-, -, -, -, -, rfl⟩ := parsed
  exact net16At_lt _ _

theorem processFromServer_state (payload : Bytes) (gatewayPort : Nat) (s : Relay) :
    (processFromServer payload gatewayPort s).state = s := by
  simp only [processFromServer, Proc.bind_state, Proc.read_value, Proc.read_state]
  cases s.managedFor gatewayPort <;> rfl

theorem closeAll_state (idleOnes : List ManagedSocket) (s : Relay) :
    (closeAll idleOnes s).state = s := by
  induction idleOnes with
  | nil => rfl
  | cons managed rest ih => exact ih

theorem relayStep_sound (input : RelayInput) {s : Relay} (sound : s.sockets.Sound) :
    (relayStep input s).state.sockets.Sound := by
  cases input with
  | tun read answer now =>
      simp only [relayStep, processFromTun, Proc.bind_state, Proc.read_value, Proc.read_state]
      cases parsed : parseFromTun s.gatewayIp read with
      | none => exact sound
      | some packet =>
          exact handleInterceptedPacket_sound sound _ (parseFromTun_srcPort parsed) _ _ _ _
  | server received =>
      simp only [relayStep, handleServerPacket]
      cases received.payload with
      | none => exact sound
      | some payload => rwa [processFromServer_state]
  | watchdog now =>
      simp only [relayStep, cleanupIdleSockets, Proc.bind_state, Proc.read_value, Proc.read_state,
        closeAll_state]
      exact sound.mono fun port managed => SocketTable.lookup_of_active
  | rehash entries =>
      refine sound.mono fun port managed found => ?_
      rwa [← SocketTable.lookup_reorder entries]
  | connected up => exact sound

theorem relay_run_sound (gatewayIp : Option InetAddress) (inputs : List RelayInput) :
    (Proc.runAll relayStep inputs (.start gatewayIp)).state.sockets.Sound :=
  Proc.runAll_preserves relayStep _ (fun s => s.sockets.Sound) inputs SocketTable.sound_empty
    fun input _ _ sound => relayStep_sound input sound

/-! ## The fields of an injected packet -/

section Fields

variable (srcIp dstIp : InetAddress) (srcPort dstPort : Nat) (payload : Bytes)

/-- The bytes of a packet, up to the two checksums. -/
theorem buildRawUdpPacket_eq :
    ∃ ipChecksum udpChecksum,
      buildRawUdpPacket srcIp srcPort dstIp dstPort payload =
        ipHeader (20 + 8 + payload.length) ipChecksum srcIp dstIp ++
          udpHeader srcPort dstPort (8 + payload.length) udpChecksum ++ payload :=
  ⟨_, _, rfl⟩

theorem net16_read {value : Nat} (narrow : value < 2 ^ 16) :
    256 * (UInt8.ofNat (value / 256)).toNat + (UInt8.ofNat value).toNat = value :=
  (net16_toNat value).trans (Nat.mod_eq_of_lt narrow)

/-- What a receiver reads from an injected packet. -/
theorem buildRawUdpPacket_fields (narrowSrc : srcPort < 2 ^ 16) (narrowDst : dstPort < 2 ^ 16) :
    net16At (buildRawUdpPacket srcIp srcPort dstIp dstPort payload) 20 = srcPort ∧
      inetAddressAt (buildRawUdpPacket srcIp srcPort dstIp dstPort payload) 16 = dstIp ∧
      net16At (buildRawUdpPacket srcIp srcPort dstIp dstPort payload) 22 = dstPort ∧
      (buildRawUdpPacket srcIp srcPort dstIp dstPort payload).drop 28 = payload := by
  obtain ⟨ipChecksum, udpChecksum, packet⟩ := buildRawUdpPacket_eq srcIp dstIp srcPort dstPort payload
  rw [packet]
  exact ⟨net16_read narrowSrc, rfl, net16_read narrowDst, rfl⟩

end Fields

/-! ## Replies -/

/-- The events are one packet, from the gateway port `port` to this address and port. -/
def Injects (port : Nat) (ip : InetAddress) (dstPort : Nat) (payload : Bytes) (events : List RelayEvent) :
    Prop :=
  ∃ packet, events = [.tunWrite packet] ∧ net16At packet 20 = port ∧ inetAddressAt packet 16 = ip ∧
    net16At packet 22 = dstPort ∧ packet.drop 28 = payload

/-- No entry of the table was active later, and of those active at the same time
this one comes first. -/
def SocketTable.Latest (sockets : SocketTable) (managed : ManagedSocket) : Prop :=
  (∀ other ∈ sockets.values, other.lastActivity ≤ managed.lastActivity) ∧
    ∀ other ∈ sockets.values, managed.lastActivity ≤ other.lastActivity →
      sockets.values.idxOf managed ≤ sockets.values.idxOf other

instance (sockets : SocketTable) (managed : ManagedSocket) : Decidable (sockets.Latest managed) :=
  inferInstanceAs (Decidable (_ ∧ _))

theorem maxByOrNull_eq_argmax {α β : Type} [LinearOrder β] (key : α → β) (items : List α) :
    maxByOrNull key items = items.argmax key := by
  cases items with
  | nil => rfl
  | cons first rest =>
      rw [maxByOrNull, List.argmax, List.foldl_cons]
      change some _ = rest.foldl _ (some first)
      induction rest generalizing first with
      | nil => rfl
      | cons next rest ih =>
          rw [List.foldl_cons, List.foldl_cons, ih]
          congr 1
          by_cases later : key first < key next
          · simp [List.argAux, later]
          · simp [List.argAux, later]

/-- The entry that a datagram of the server goes to. -/
theorem handleServerPacket_events {s : Relay} {received : Received} {payload : Bytes}
    (accepted : received.payload = some payload) {managed : ManagedSocket}
    (latest : maxByOrNull ManagedSocket.lastActivity s.sockets.values = some managed) :
    (handleServerPacket received s).events =
      [.tunWrite (buildRawUdpPacket (s.gatewayIp.getD defaultGateway) managed.localPort
        managed.lastSourceIp managed.lastSourcePort payload)] := by
  have chosen : s.managedFor 0 = some managed := latest
  rw [handleServerPacket, accepted]
  simp [processFromServer, chosen]

theorem SocketTable.latest_iff {sockets : SocketTable} {managed : ManagedSocket}
    (member : managed ∈ sockets.values) :
    sockets.Latest managed ↔
      maxByOrNull ManagedSocket.lastActivity sockets.values = some managed := by
  rw [maxByOrNull_eq_argmax, List.argmax_eq_some_iff, and_iff_right member, SocketTable.Latest]

/-- A table with an entry has one that was active last. -/
theorem SocketTable.exists_last {sockets : SocketTable} {managed : ManagedSocket}
    (member : managed ∈ sockets.values) :
    ∃ last port, maxByOrNull ManagedSocket.lastActivity sockets.values = some last ∧
      sockets.lookup port = some last := by
  cases latest : maxByOrNull ManagedSocket.lastActivity sockets.values with
  | none =>
      rw [maxByOrNull_eq_argmax] at latest
      rw [List.argmax_eq_none.mp latest] at member
      cases member
  | some last =>
      rw [maxByOrNull_eq_argmax] at latest
      obtain ⟨port, found⟩ := SocketTable.mem_values_iff.mp (List.argmax_mem latest)
      exact ⟨last, port, rfl, found⟩

theorem injects_iff {s : Relay} (sound : s.sockets.Sound) {received : Received} {payload : Bytes}
    (accepted : received.payload = some payload) {port : Nat} {managed : ManagedSocket}
    (found : s.sockets.lookup port = some managed) :
    Injects port managed.lastSourceIp managed.lastSourcePort payload
        (handleServerPacket received s).events ↔
      port ≠ 0 ∧ s.sockets.Latest managed := by
  have member : managed ∈ s.sockets.values := SocketTable.mem_values_iff.mpr ⟨port, found⟩
  obtain ⟨last, lastPort, latest, lastFound⟩ := SocketTable.exists_last member
  obtain ⟨nonzero, wide, narrow⟩ := sound.range lastPort last lastFound
  obtain ⟨source, ip, dstPort, rest⟩ :=
    buildRawUdpPacket_fields (s.gatewayIp.getD defaultGateway) last.lastSourceIp last.localPort
      last.lastSourcePort payload wide narrow
  rw [SocketTable.latest_iff member, handleServerPacket_events accepted latest, latest]
  constructor
  · rintro ⟨packet, same, fromPort, -, -, -⟩
    cases same
    rw [source] at fromPort
    subst fromPort
    -- the port belongs to one socket, so the two entries are the same
    have own := sound.bound _ managed found nonzero
    have here := sound.distinct _ lastPort managed last found lastFound own
    rw [here, lastFound] at found
    exact ⟨nonzero, found⟩
  · rintro ⟨named, same⟩
    cases same
    refine ⟨_, rfl, ?_, ip, dstPort, rest⟩
    rw [source]
    exact sound.bound port _ found named

/-- In every run: a datagram of the server is injected from the gateway port it
answers to the source recorded for that port exactly when the port is not 0 and
its entry is the one active last. -/
theorem reply_returns_to_its_flow_iff (gatewayIp : Option InetAddress) (inputs : List RelayInput)
    (received : Received) (payload : Bytes) (accepted : received.payload = some payload)
    (port : Nat) (managed : ManagedSocket)
    (found : (Proc.runAll relayStep inputs (.start gatewayIp)).state.sockets.lookup port = some managed) :
    Injects port managed.lastSourceIp managed.lastSourcePort payload
        (relayStep (.server received) (Proc.runAll relayStep inputs (.start gatewayIp)).state).events ↔
      port ≠ 0 ∧ (Proc.runAll relayStep inputs (.start gatewayIp)).state.sockets.Latest managed :=
  injects_iff (relay_run_sound gatewayIp inputs) accepted found

/-! Two consoles behind one gateway, each with a port of its own. -/

def gatewayAddress : InetAddress := ⟨192, 168, 43, 1⟩

def firstConsole : InetAddress := ⟨192, 168, 43, 10⟩

def secondConsole : InetAddress := ⟨192, 168, 43, 11⟩

/-- A packet at the beginning of an otherwise empty TUN buffer. -/
def TunRead.of (packet : Bytes) (short : packet.length ≤ 32767) : TunRead where
  buffer := packet ++ List.replicate (32767 - packet.length) 0
  length := packet.length
  sized := by
    rw [List.length_append, List.length_replicate, Nat.add_sub_cancel' short]
  within := short

/-- A datagram at the beginning of an otherwise empty receive buffer. -/
def Received.of (datagram : Bytes) (short : datagram.length ≤ 4096) : Received where
  buffer := datagram ++ List.replicate (4096 - datagram.length) 0
  length := datagram.length
  sized := by
    rw [List.length_append, List.length_replicate, Nat.add_sub_cancel' short]
  within := short

def firstRequest : TunRead :=
  .of (buildRawUdpPacket firstConsole 40000 gatewayAddress 5000 [1]) (by decide +kernel)

def secondRequest : TunRead :=
  .of (buildRawUdpPacket secondConsole 40001 gatewayAddress 6000 [2]) (by decide +kernel)

/-- An answer of one byte. -/
def answer : Received :=
  .of (Header.toBytes ⟨magicNumber, .connect, 0, 1, 1⟩ ++ [7]) (by decide)

/-- The first console sends, then the second one. -/
def bothSend : List RelayInput :=
  [.connected true, .tun firstRequest (some 0) 1, .tun secondRequest (some 0) 2]

theorem reply_returns_to_second_console :
    answer.payload = some [7] ∧
      (Proc.runAll relayStep bothSend (.start (some gatewayAddress))).state.sockets.lookup 6000 =
        some ⟨6000, secondConsole, 40001, 2⟩ ∧
      Injects 6000 secondConsole 40001 [7]
        (relayStep (.server answer)
          (Proc.runAll relayStep bothSend (.start (some gatewayAddress))).state).events := by
  have accepted : answer.payload = some [7] := by decide +kernel
  have found : (Proc.runAll relayStep bothSend (.start (some gatewayAddress))).state.sockets.lookup 6000 =
      some ⟨6000, secondConsole, 40001, 2⟩ := by decide +kernel
  have latest : (Proc.runAll relayStep bothSend (.start (some gatewayAddress))).state.sockets.Latest
      ⟨6000, secondConsole, 40001, 2⟩ := by decide +kernel
  exact ⟨accepted, found,
    (reply_returns_to_its_flow_iff (some gatewayAddress) bothSend answer [7] accepted 6000 _ found).mpr
      ⟨by decide, latest⟩⟩

/-- The same answer meant for the first console, whose payload was forwarded: the
second console gets it. -/
theorem reply_to_first_console_misrouted :
    (Proc.runAll relayStep bothSend (.start (some gatewayAddress))).state.sockets.lookup 5000 =
        some ⟨5000, firstConsole, 40000, 1⟩ ∧
      RelayEvent.forwarded 5000 (Header.toBytes ⟨magicNumber, .connect, 0, 1, 1⟩ ++ [1]) ∈
        (Proc.runAll relayStep bothSend (.start (some gatewayAddress))).events ∧
      (relayStep (.server answer)
          (Proc.runAll relayStep bothSend (.start (some gatewayAddress))).state).events =
        [.tunWrite (buildRawUdpPacket gatewayAddress 6000 secondConsole 40001 [7])] ∧
      ¬ Injects 5000 firstConsole 40000 [7]
        (relayStep (.server answer)
          (Proc.runAll relayStep bothSend (.start (some gatewayAddress))).state).events := by
  have events : (relayStep (.server answer)
        (Proc.runAll relayStep bothSend (.start (some gatewayAddress))).state).events =
      [.tunWrite (buildRawUdpPacket gatewayAddress 6000 secondConsole 40001 [7])] := by decide +kernel
  refine ⟨by decide +kernel, by decide +kernel, events, ?_⟩
  rintro ⟨packet, same, fromPort, -⟩
  cases events.symm.trans same
  revert fromPort
  decide +kernel

end SwitchLanPlay.Android
