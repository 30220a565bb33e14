import SwitchLanPlay.UvLwip.TcpRelay

/-!
# Whole runs of a TCP connection

What holds of a connection through the gateway whatever its two ends do, and in
whatever order: which bytes arrive, when each end is read, and how it is closed.
-/

namespace SwitchLanPlay.UvLwip.TcpRelay

open Library

/-! ## What every step keeps -/

section Invariant

variable {proxy : ProxyTcp} {conn : TcpConnection}

theorem flows_ended (ready : conn.ready) (one : conn.writes.length ≤ 1) (tcpOne : conn.tcpWrites.length ≤ 1)
    (direct : conn.connecting → proxy = .direct) (quiet : conn.connecting → conn.writes = [] ∧ conn.tcpWrites = [])
    (fits : conn.recvBuf.length ≤ uvlTcpRecvBufLen) : Flows proxy conn.ended where
  closing_of_stopped _ := rfl
  closed_of_closing _ := rfl
  unread_of_closed _ := rfl
  closing_of_killed _ := ⟨rfl, rfl⟩
  killed_iff _ := ⟨fun _ => rfl, fun _ => rfl⟩
  ready_of_closing _ _ := ready
  ready_of_killed _ _ := ready
  ready_of_direct _ := ready
  unready_of_connecting := by
    intro socks connecting
    cases (direct connecting).symm.trans socks
  quiet := by
    intro early
    have connecting : conn.connecting := by simpa [TcpConnection.ended, ready] using early
    exact ⟨rfl, rfl, by simp [TcpConnection.ended, (quiet connecting).1], (quiet connecting).2⟩
  writes_one := by
    cases closing : conn.closing <;> simp [TcpConnection.ended, closing, one]
  tcpWrites_one := tcpOne
  writes_of_reading := by simp [TcpConnection.ended]
  tcpWrites_of_readCb := by simp [TcpConnection.ended]
  busy := by simp [TcpConnection.ended]
  half_closed := by simp [TcpConnection.ended]
  wakes := by simp [TcpConnection.ended]
  fits := fits

theorem Flows.direct_of_connecting (flows : Flows proxy conn) (connecting : conn.connecting) (ready : conn.ready) :
    proxy = .direct := by
  cases proxy with
  | direct => rfl
  | socks5 =>
      have unready := flows.unready_of_connecting rfl connecting
      simp [ready] at unready

theorem Flows.ended (flows : Flows proxy conn) (ready : conn.ready) : Flows proxy conn.ended :=
  flows_ended ready flows.writes_one flows.tcpWrites_one (fun connecting => flows.direct_of_connecting connecting ready)
    (fun connecting => (flows.quiet (.inr connecting)).2.2) flows.fits

theorem Flows.settled (flows : Flows proxy conn) (connecting : conn.connecting) :
    Flows proxy { conn with connecting := false, ready := true }.ended :=
  flows_ended rfl flows.writes_one flows.tcpWrites_one (by simp) (fun _ => (flows.quiet (.inr connecting)).2.2) flows.fits

theorem Flows.opens (flows : Flows proxy conn) (connecting : conn.connecting) (here : conn.tcpClosing = false)
    (unclosed : conn.closed = false) :
    Flows proxy { conn with connecting := false, ready := true, reading := true, readCb := true, readReq := true } :=
  have alive := flows.alive (flows.open_of_unclosed unclosed)
  have ⟨_, _, noWrites, noTcpWrites⟩ := flows.quiet (.inr connecting)
  { flows with
    unread_of_closed := by simp [unclosed]
    closing_of_killed := by simp [alive]
    killed_iff := by simp [alive, here]
    ready_of_closing := fun _ _ => rfl
    ready_of_killed := fun _ _ => rfl
    ready_of_direct := fun _ => rfl
    unready_of_connecting := by simp
    quiet := by simp
    writes_of_reading := fun _ => noWrites
    tcpWrites_of_readCb := fun _ => noTcpWrites
    busy := fun _ _ _ => ⟨fun _ => rfl, fun _ => rfl⟩
    half_closed := by simp [unclosed]
    wakes := fun _ _ => rfl }

/-- Released before it was connected, and connected before it was freed. -/
theorem Flows.opensReleased (flows : Flows proxy conn) (connecting : conn.connecting) (here : conn.tcpClosing = false)
    (closing : conn.closing) (alive : conn.killed = false) :
    Flows proxy { conn with connecting := false, ready := true, reading := true } :=
  have ⟨_, _, noWrites, _⟩ := flows.quiet (.inr connecting)
  { flows with
    closing_of_killed := by simp [alive]
    killed_iff := by simp [alive, here]
    ready_of_closing := fun _ _ => rfl
    ready_of_killed := fun _ _ => rfl
    ready_of_direct := fun _ => rfl
    unready_of_connecting := by simp
    quiet := by simp
    writes_of_reading := fun _ => noWrites
    busy := by simp [flows.closed_of_closing closing]
    half_closed := by simp [closing] }

theorem Flows.forwards (flows : Flows proxy conn) (reads : conn.reading) (bytes : Bytes) :
    Flows proxy { conn with reading := false, writes := [bytes] } :=
  have ready := flows.ready_of_reading reads
  have connected : conn.connecting = false := by
    by_contra connecting
    have unread := (flows.quiet (.inr (by simpa using connecting))).1
    simp [reads] at unread
  { flows with
    closing_of_killed := fun killed => ⟨(flows.closing_of_killed killed).1, rfl⟩
    quiet := by simp [ready, connected]
    writes_one := le_refl 1
    writes_of_reading := by simp
    busy := fun _ _ unclosed => ⟨(flows.busy ready connected unclosed).1, by simp⟩ }

theorem Flows.resumes (flows : Flows proxy conn) (pending : conn.tcpWrites ≠ []) (unclosed : conn.closed = false) :
    Flows proxy { conn with tcpWrites := [], readCb := true, readReq := true } :=
  have ready := flows.ready_of_tcpWrites pending
  have connected : conn.connecting = false := by
    by_contra connecting
    exact pending (flows.quiet (.inr (by simpa using connecting))).2.2.2
  { flows with
    unread_of_closed := by simp [unclosed]
    quiet := by simp [ready, connected]
    tcpWrites_one := Nat.zero_le 1
    tcpWrites_of_readCb := fun _ => rfl
    busy := fun _ _ unclosed => ⟨fun _ => rfl, (flows.busy ready connected unclosed).2⟩
    half_closed := by simp [unclosed]
    wakes := fun _ _ => rfl }

theorem Flows.drained (flows : Flows proxy conn) (pending : conn.tcpWrites ≠ []) :
    Flows proxy { conn with tcpWrites := [] }.ended :=
  have ready := flows.ready_of_tcpWrites pending
  flows_ended (by exact ready) flows.writes_one (Nat.zero_le 1)
    (fun connecting => flows.direct_of_connecting connecting ready)
    (fun connecting => ⟨(flows.quiet (.inr connecting)).2.2.1, rfl⟩) flows.fits

theorem Flows.hands (flows : Flows proxy conn) (reads : conn.readCb) :
    Flows proxy { conn with readReq := false, recvBuf := [], readCb := false, tcpWrites := [conn.recvBuf] } :=
  have ready := flows.ready_of_readCb reads
  have connected : conn.connecting = false := by
    by_contra connecting
    have unread := (flows.quiet (.inr (by simpa using connecting))).2.1
    simp [reads] at unread
  { flows with
    unread_of_closed := fun _ => rfl
    quiet := by simp [ready, connected]
    tcpWrites_one := le_refl 1
    tcpWrites_of_readCb := by simp
    busy := fun _ _ unclosed => ⟨by simp, (flows.busy ready connected unclosed).2⟩
    half_closed := by simp
    wakes := by simp
    fits := Nat.zero_le _ }

theorem Flows.completes (flows : Flows proxy conn) (pending : conn.writes ≠ []) (fresh : conn.closing = false) :
    Flows proxy { conn with writes := [], reading := true } :=
  have ready := flows.ready_of_writes pending
  have connected : conn.connecting = false := by
    by_contra connecting
    exact pending (flows.quiet (.inr (by simpa using connecting))).2.2.1
  { flows with
    closing_of_killed := by simp [flows.alive fresh]
    quiet := by simp [ready, connected]
    writes_one := Nat.zero_le 1
    writes_of_reading := fun _ => rfl
    busy := fun _ _ unclosed => ⟨(flows.busy ready connected unclosed).1, fun _ => rfl⟩ }

theorem Flows.cancels (flows : Flows proxy conn) (closed : conn.closed) : Flows proxy { conn with writes := [] } :=
  { flows with
    quiet := fun early => ⟨(flows.quiet early).1, (flows.quiet early).2.1, rfl, (flows.quiet early).2.2.2⟩
    writes_one := Nat.zero_le 1
    writes_of_reading := fun _ => rfl
    busy := by simp [closed] }

theorem Flows.closes (flows : Flows proxy conn) (unclosed : conn.closed = false) (unread : conn.readCb = false) :
    Flows proxy { conn with closed := true } :=
  { flows with
    closed_of_closing := fun _ => rfl
    unread_of_closed := fun _ => unread
    busy := by simp
    half_closed := by
      intro ready connected _ _ none
      have reads := (flows.busy ready connected unclosed).1 none
      simp [unread] at reads }

theorem Flows.released (flows : Flows proxy conn) :
    Flows proxy { conn with closing := true, closed := true, readCb := false, writes := [] } :=
  { flows with
    closing_of_stopped := fun _ => rfl
    closed_of_closing := fun _ => rfl
    unread_of_closed := fun _ => rfl
    closing_of_killed := fun killed => ⟨rfl, (flows.closing_of_killed killed).2⟩
    quiet := fun early => ⟨(flows.quiet early).1, rfl, rfl, (flows.quiet early).2.2.2⟩
    writes_one := Nat.zero_le 1
    writes_of_reading := fun _ => rfl
    tcpWrites_of_readCb := by simp
    busy := by simp
    half_closed := by simp
    wakes := by simp }

theorem Flows.next (flows : Flows proxy conn) (running : conn.halted = false) {input : RelayInput}
    {next : TcpConnection} {events : List RelayEvent} (step : Advance proxy conn input next events) :
    Flows proxy next := by
  cases step with
  | opens connecting here unclosed => exact flows.opens connecting here unclosed
  | opensClosed connecting here closed fresh => exact flows.settled connecting
  | opensReleased connecting here closing =>
      exact flows.opensReleased connecting here closing (flows.unkilled running here)
  | gives socks connecting =>
      have unready := flows.unready_of_connecting socks connecting
      exact { flows with
        ready_of_closing := by simp
        unready_of_connecting := by simp
        quiet := fun _ => flows.quiet (.inr connecting)
        busy := by simp [unready]
        half_closed := by simp [unready] }
  | refusesAnswer connecting unready here =>
      exact { flows with
        killed_iff := by simp [unready]
        ready_of_closing := by simp
        unready_of_connecting := by simp
        quiet := fun _ => flows.quiet (.inr connecting)
        busy := by simp [unready]
        half_closed := by simp [unready] }
  | fails direct connecting alive =>
      exact flows_ended (by exact flows.ready_of_direct direct) flows.writes_one flows.tcpWrites_one (by simp)
        (by simp) flows.fits
  | forwards bytes reads here => exact flows.forwards reads bytes
  | resumes pending unclosed => exact flows.resumes pending unclosed
  | drains pending closed fresh => exact flows.drained pending
  | writes pending closing =>
      exact { flows with
        quiet := fun early => ⟨(flows.quiet early).1, (flows.quiet early).2.1, (flows.quiet early).2.2.1, rfl⟩
        tcpWrites_one := Nat.zero_le 1
        tcpWrites_of_readCb := fun _ => rfl
        busy := by simp [flows.closed_of_closing closing]
        half_closed := by simp [closing] }
  | ends input ready alive kills => exact flows.ended ready
  | notes closing => exact flows
  | refuses bytes unclosed => exact flows
  | accepts bytes unclosed fits => exact { flows with wakes := fun _ _ => rfl, fits := fits }
  | closes unclosed unread => exact flows.closes unclosed unread
  | wakes nothing =>
      refine { flows with wakes := ?_ }
      intro reads some
      rcases nothing with unread | none
      · simp [unread] at reads
      · exact absurd none some
  | hands reads some => exact flows.hands reads
  | completes count pending fresh => exact flows.completes pending fresh
  | cancels count closed fresh => exact flows.cancels closed
  | pends count unclosed => exact flows
  | released fresh => exact flows.released
  | frees closing killed => exact { flows with closing_of_stopped := fun _ => closing }
  | freesReady closing alive ready => exact { flows.ended ready with closing_of_stopped := fun _ => rfl }
  | faults closing alive unready =>
      exact { flows with
        closing_of_stopped := fun _ => closing
        closing_of_killed := fun _ => ⟨closing, (flows.quiet (.inl unready)).1⟩
        killed_iff := by simp [unready]
        ready_of_killed := by simp }

end Invariant

/-! ## Runs -/

def relayRun (proxy : ProxyTcp) (inputs : List RelayInput) : Outcome TcpConnection RelayEvent Unit :=
  Proc.runAll (relayStep proxy) inputs (TcpConnection.start proxy)

section Runs

variable {proxy : ProxyTcp}

theorem flows_start : Flows proxy (TcpConnection.start proxy) := by
  cases proxy <;> constructor <;> simp [TcpConnection.start]

/-- An input that does not arrive changes nothing, and one that does is handled. -/
theorem relayStep_cases (input : RelayInput) {conn : TcpConnection} (flows : Flows proxy conn) :
    ((conn.gone ∨ conn.halted ∨ input.arrives conn = false) ∧ relayStep proxy input conn = ⟨(), conn, []⟩) ∨
      (conn.gone = false ∧ conn.halted = false ∧ input.arrives conn ∧
        Advance proxy conn input (relayStep proxy input conn).state (relayStep proxy input conn).events) := by
  by_cases stops : conn.gone ∨ conn.halted ∨ input.arrives conn = false
  · refine .inl ⟨stops, ?_⟩
    rw [relayStep, Proc.read_bind, if_pos stops]
    rfl
  · obtain ⟨here, running, arrives⟩ : conn.gone = false ∧ conn.halted = false ∧ input.arrives conn := by
      simpa using stops
    refine .inr ⟨here, running, arrives, ?_⟩
    rw [relayStep, Proc.read_bind, if_neg stops]
    exact flows.advances arrives

/-- A relation between the inputs so far, the state and the trace holds after every run when
it holds at the start, an input that does not arrive leaves it true, and so does what a
callback does. -/
theorem relayRun_induction (J : List RelayInput → TcpConnection → List RelayEvent → Prop) (inputs : List RelayInput)
    (begins : J [] (TcpConnection.start proxy) [])
    (skips : ∀ done input conn past, Flows proxy conn → conn.gone ∨ conn.halted ∨ input.arrives conn = false →
      J done conn past → J (done ++ [input]) conn past)
    (moves : ∀ done input conn past next events, Flows proxy conn → conn.gone = false → conn.halted = false →
      input.arrives conn → Advance proxy conn input next events → J done conn past →
      J (done ++ [input]) next (past ++ events)) :
    Flows proxy (relayRun proxy inputs).state ∧ J inputs (relayRun proxy inputs).state (relayRun proxy inputs).events := by
  refine Proc.runAll_induction (relayStep proxy) _ (fun done conn past => Flows proxy conn ∧ J done conn past) inputs
    ⟨flows_start, begins⟩ ?_
  rintro done input conn past - ⟨flows, holds⟩
  rcases relayStep_cases input flows with ⟨stops, does⟩ | ⟨here, running, arrives, step⟩
  · rw [does, List.append_nil]
    exact ⟨flows, skips done input conn past flows stops holds⟩
  · exact ⟨flows.next running step, moves done input conn past _ _ flows here running arrives step holds⟩

/-- The same for a relation that the inputs do not enter. -/
theorem relayRun_stable (J : TcpConnection → List RelayEvent → Prop) (inputs : List RelayInput)
    (begins : J (TcpConnection.start proxy) [])
    (moves : ∀ input conn past next events, Flows proxy conn → Advance proxy conn input next events → J conn past →
      J next (past ++ events)) :
    Flows proxy (relayRun proxy inputs).state ∧ J (relayRun proxy inputs).state (relayRun proxy inputs).events := by
  refine relayRun_induction (fun _ => J) inputs begins ?_ ?_
  · intro done input conn past _ _ holds
    exact holds
  · intro done input conn past next events flows _ _ _ step holds
    exact moves input conn past next events flows step holds

theorem flows_relayRun (proxy : ProxyTcp) (inputs : List RelayInput) : Flows proxy (relayRun proxy inputs).state :=
  (relayRun_stable (fun _ _ => True) inputs trivial fun _ _ _ _ _ _ _ _ => trivial).1

end Runs

/-! ## Flow control -/

/-- Neither end is read twice. -/
def RelayEvent.Regular (event : RelayEvent) : Prop := event ≠ .assertFails ∧ event ≠ .alreadyReading

theorem regular_closings (conn : TcpConnection) : ∀ event ∈ conn.closings, event.Regular := by
  cases closing : conn.closing <;> simp [TcpConnection.closings, closing, RelayEvent.Regular]

theorem Advance.regular {proxy : ProxyTcp} {conn next : TcpConnection} {input : RelayInput} {events : List RelayEvent}
    (step : Advance proxy conn input next events) : ∀ event ∈ events, event.Regular := by
  cases step with
  | opensClosed | fails | drains | ends | freesReady => exact regular_closings conn
  | _ => simp [RelayEvent.Regular]

/-- Between the two ends there is never more than one piece of either direction, and none of
the two reads is started twice; while the connection is open, each end is read exactly when the
other has taken the last piece, and bytes that wait to be read have their callback pending. -/
theorem relay_flow_control (proxy : ProxyTcp) (inputs : List RelayInput) :
    let run := relayRun proxy inputs
    (∀ event ∈ run.events, event ≠ .assertFails ∧ event ≠ .alreadyReading) ∧
      run.state.writes.length ≤ 1 ∧ run.state.tcpWrites.length ≤ 1 ∧
      run.state.recvBuf.length ≤ uvlTcpRecvBufLen ∧
      (run.state.ready → run.state.connecting = false → run.state.closed = false →
        (run.state.readCb ↔ run.state.tcpWrites = []) ∧ (run.state.reading ↔ run.state.writes = []) ∧
        (run.state.readCb → run.state.recvBuf ≠ [] → run.state.readReq)) := by
  intro run
  obtain ⟨flows, regular⟩ : Flows proxy run.state ∧ ∀ event ∈ run.events, event.Regular := by
    refine relayRun_stable (fun _ past => ∀ event ∈ past, event.Regular) inputs (by simp) ?_
    intro input conn past next events _ step before
    exact List.forall_mem_append.mpr ⟨before, step.regular⟩
  refine ⟨regular, flows.writes_one, flows.tcpWrites_one, flows.fits, ?_⟩
  intro ready connected unclosed
  obtain ⟨reads, tcpReads⟩ := flows.busy ready connected unclosed
  exact ⟨⟨flows.tcpWrites_of_readCb, reads⟩, ⟨flows.writes_of_reading, tcpReads⟩, flows.wakes⟩

/-! ## The bytes -/

def RelayEvent.fromConsole : RelayEvent → Bytes
  | .accepted bytes => bytes
  | _ => []

def RelayEvent.toSocket : RelayEvent → Bytes
  | .tcpWrite bytes => bytes
  | _ => []

def RelayEvent.fromSocket : RelayEvent → Bytes
  | .tcpData bytes => bytes
  | _ => []

def RelayEvent.toConsole : RelayEvent → Bytes
  | .uvlWrite bytes => bytes
  | _ => []

/-- What was accepted is what was written to the socket and what waits in the buffer; what came
from the socket is what was written to the console. -/
def Conveys (conn : TcpConnection) (past : List RelayEvent) : Prop :=
  past.flatMap RelayEvent.fromConsole = past.flatMap RelayEvent.toSocket ++ conn.recvBuf ∧
    past.flatMap RelayEvent.fromSocket = past.flatMap RelayEvent.toConsole

theorem Conveys.closings {conn next : TcpConnection} {past : List RelayEvent} (conveys : Conveys conn past)
    (same : next.recvBuf = conn.recvBuf) : Conveys next (past ++ conn.closings) := by
  cases closing : conn.closing <;>
    simpa [Conveys, TcpConnection.closings, closing, same, RelayEvent.fromConsole, RelayEvent.toSocket,
      RelayEvent.fromSocket, RelayEvent.toConsole] using conveys

theorem Conveys.next {proxy : ProxyTcp} {conn next : TcpConnection} {input : RelayInput} {past events : List RelayEvent}
    (conveys : Conveys conn past) (step : Advance proxy conn input next events) : Conveys next (past ++ events) := by
  obtain ⟨console, socket⟩ := conveys
  cases step with
  | opensClosed | fails | drains | ends | freesReady => exact Conveys.closings ⟨console, socket⟩ rfl
  | _ =>
      simp [Conveys, console, socket, RelayEvent.fromConsole, RelayEvent.toSocket, RelayEvent.fromSocket,
        RelayEvent.toConsole]

theorem relayRun_conveys (proxy : ProxyTcp) (inputs : List RelayInput) :
    Conveys (relayRun proxy inputs).state (relayRun proxy inputs).events := by
  refine (relayRun_stable Conveys inputs ⟨by rfl, rfl⟩ ?_).2
  intro input conn past next events _ step before
  exact before.next step

/-- In both directions the bytes arrive in order, none twice, and none is missing but those
that still wait in the buffer. -/
theorem relay_streams (proxy : ProxyTcp) (inputs : List RelayInput) :
    let run := relayRun proxy inputs
    run.events.flatMap RelayEvent.fromConsole =
        run.events.flatMap RelayEvent.toSocket ++ run.state.recvBuf ∧
      run.events.flatMap RelayEvent.fromSocket = run.events.flatMap RelayEvent.toConsole :=
  relayRun_conveys proxy inputs

/-! ## Closing -/

/-- Each end is closed as often as its flag says, and both are when the connection is freed. -/
def Counts (conn : TcpConnection) (past : List RelayEvent) : Prop :=
  past.count .uvlTcpClose = conn.closing.toNat ∧ past.count .tcpClose = conn.tcpClosing.toNat ∧
    (conn.gone → conn.halted = false → conn.tcpClosing)

theorem Counts.ended {conn : TcpConnection} {past : List RelayEvent} (counts : Counts conn past)
    (here : conn.tcpClosing = false) : Counts conn.ended (past ++ conn.closings) := by
  obtain ⟨console, socket, -⟩ := counts
  refine ⟨?_, ?_, fun _ _ => rfl⟩
  · cases closing : conn.closing <;>
      simp [TcpConnection.ended, TcpConnection.closings, console, closing]
  · cases closing : conn.closing <;>
      simp [TcpConnection.ended, TcpConnection.closings, socket, here, closing]

theorem Counts.next {proxy : ProxyTcp} {conn next : TcpConnection} {input : RelayInput} {past events : List RelayEvent}
    (counts : Counts conn past) (flows : Flows proxy conn)
    (step : Advance proxy conn input next events) : Counts next (past ++ events) := by
  obtain ⟨console, socket, freed⟩ := counts
  cases step with
  | opensClosed connecting here _ _ =>
      exact @Counts.ended { conn with connecting := false, ready := true } past ⟨console, socket, freed⟩ here
  | fails direct connecting alive =>
      exact @Counts.ended { conn with connecting := false } past ⟨console, socket, freed⟩
        (flows.open_of_alive (flows.ready_of_direct direct) alive)
  | drains pending closed fresh =>
      exact @Counts.ended { conn with tcpWrites := [] } past ⟨console, socket, freed⟩
        (flows.open_of_alive (flows.ready_of_tcpWrites pending) (flows.alive fresh))
  | refusesAnswer connecting unready here => exact ⟨by simpa using console, by simp [socket, here], fun _ _ => rfl⟩
  | ends input ready alive => exact Counts.ended ⟨console, socket, freed⟩ (flows.open_of_alive ready alive)
  | freesReady closing alive ready =>
      obtain ⟨console', socket', -⟩ := Counts.ended ⟨console, socket, freed⟩ (flows.open_of_alive ready alive)
      exact ⟨console', socket', fun _ _ => rfl⟩
  | released fresh => exact ⟨by simp [console, fresh], by simpa using socket, freed⟩
  | frees closing killed =>
      refine ⟨by simpa using console, by simpa using socket, ?_⟩
      intro _ running
      exact (flows.killed_iff (flows.ready_of_killed running killed)).mp killed
  | faults closing alive unready => exact ⟨by simpa using console, by simpa using socket, by simp⟩
  | _ => exact ⟨by simpa using console, by simpa using socket, freed⟩

theorem relayRun_counts (proxy : ProxyTcp) (inputs : List RelayInput) :
    Counts (relayRun proxy inputs).state (relayRun proxy inputs).events := by
  refine (relayRun_stable Counts inputs ⟨rfl, rfl, by simp [TcpConnection.start]⟩ ?_).2
  intro input conn past next events flows step counts
  exact counts.next flows step

/-- Neither end is closed twice, and a connection that is freed has closed both. -/
theorem relay_closes_once (proxy : ProxyTcp) (inputs : List RelayInput) :
    let run := relayRun proxy inputs
    run.events.count .uvlTcpClose ≤ 1 ∧ run.events.count .tcpClose ≤ 1 ∧
      (run.state.gone → run.state.halted = false →
        run.events.count .uvlTcpClose = 1 ∧ run.events.count .tcpClose = 1) := by
  intro run
  have flows := flows_relayRun proxy inputs
  obtain ⟨console, socket, freed⟩ := relayRun_counts proxy inputs
  refine ⟨console ▸ Bool.toNat_le _, socket ▸ Bool.toNat_le _, ?_⟩
  intro gone running
  rw [console, socket, flows.closing_of_stopped (.inl gone), freed gone running]
  exact ⟨rfl, rfl⟩

/-! ## The console closes -/

theorem toSocket_closings (conn : TcpConnection) : ∀ event ∈ conn.closings, event.toSocket = [] := by
  cases closing : conn.closing <;> simp [TcpConnection.closings, closing, RelayEvent.toSocket]

/-- Once the console's end is closed, nothing more is written to the socket. -/
theorem Advance.closed {proxy : ProxyTcp} {conn next : TcpConnection} {input : RelayInput} {events : List RelayEvent}
    (step : Advance proxy conn input next events) (flows : Flows proxy conn) (closed : conn.closed ∨ input = .fin) :
    next.closed ∧ ∀ event ∈ events, event.toSocket = [] := by
  cases step with
  | opensClosed | fails | drains | ends | freesReady => exact ⟨rfl, toSocket_closings conn⟩
  | hands reads some =>
      have shut : conn.closed := by simpa using closed
      have unread := flows.unread_of_closed shut
      simp [reads] at unread
  | released | closes => exact ⟨rfl, by simp [RelayEvent.toSocket]⟩
  | opens connecting here unclosed => simp [unclosed] at closed
  | _ => exact ⟨by simpa using closed, by simp [RelayEvent.toSocket]⟩

/-- What every input leaves true after the console closed. -/
def Shut (proxy : ProxyTcp) (conn : TcpConnection) : Prop := Flows proxy conn ∧ conn.closed

theorem relayStep_shut {proxy : ProxyTcp} {conn : TcpConnection} {input : RelayInput} (flows : Flows proxy conn)
    (closed : conn.closed ∨ input = .fin) :
    Shut proxy (relayStep proxy input conn).state ∧ (relayStep proxy input).Emits (fun event => event.toSocket = []) conn := by
  rcases relayStep_cases input flows with ⟨stops, does⟩ | ⟨-, running, -, step⟩
  · have shut : conn.closed := by
      rcases closed with closed | rfl
      · exact closed
      · rcases stops with gone | halted | absent
        · exact flows.closed_of_closing (flows.closing_of_stopped (.inl gone))
        · exact flows.closed_of_closing (flows.closing_of_stopped (.inr halted))
        · simpa [RelayInput.arrives] using absent
    rw [Proc.Emits, does]
    exact ⟨⟨flows, shut⟩, by simp⟩
  · obtain ⟨shut, silent⟩ := step.closed flows closed
    exact ⟨⟨flows.next running step, shut⟩, silent⟩

theorem keeps_shut (proxy : ProxyTcp) (inputs : List RelayInput) :
    Proc.Keeps (Shut proxy) (fun event => event.toSocket = []) (Proc.runAll (relayStep proxy) inputs) := by
  refine Proc.keeps_runAll ?_ inputs
  intro input conn shut
  exact relayStep_shut shut.1 (.inl shut.2)

theorem flatMap_toSocket {events : List RelayEvent} (silent : ∀ event ∈ events, event.toSocket = []) :
    events.flatMap RelayEvent.toSocket = [] := by
  simpa [List.flatMap_eq_nil_iff] using silent

/-- From the moment the console closes, nothing is written to the socket. -/
theorem relayRun_fin (proxy : ProxyTcp) (before after : List RelayInput) :
    Shut proxy (relayRun proxy (before ++ .fin :: after)).state ∧
      (relayRun proxy (before ++ .fin :: after)).events.flatMap RelayEvent.toSocket =
        (relayRun proxy before).events.flatMap RelayEvent.toSocket := by
  obtain ⟨shut, silent⟩ := relayStep_shut (flows_relayRun proxy before) (.inr (rfl : RelayInput.fin = .fin))
  obtain ⟨ends, rest⟩ := keeps_shut proxy after _ shut
  have state : (relayRun proxy (before ++ .fin :: after)).state =
      (Proc.runAll (relayStep proxy) after (relayStep proxy .fin (relayRun proxy before).state).state).state :=
    Proc.runAll_append_state (relayStep proxy) _ before (.fin :: after)
  have events : (relayRun proxy (before ++ .fin :: after)).events =
      (relayRun proxy before).events ++ ((relayStep proxy .fin (relayRun proxy before).state).events ++
        (Proc.runAll (relayStep proxy) after (relayStep proxy .fin (relayRun proxy before).state).state).events) :=
    Proc.runAll_append_events (relayStep proxy) _ before (.fin :: after)
  rw [state, events, List.flatMap_append, List.flatMap_append, flatMap_toSocket silent, flatMap_toSocket rest]
  exact ⟨ends, List.append_nil _⟩

theorem closings_of_open {conn : TcpConnection} (fresh : conn.closing = false) :
    conn.closings = [.tcpClose, .uvlTcpClose] := by
  simp [TcpConnection.closings, fresh]

theorem Shut.in_progress {conn : TcpConnection} (shut : Shut .direct conn) (fresh : conn.closing = false) :
    conn.connecting ∨ conn.tcpWrites ≠ [] := by
  rcases Bool.eq_false_or_eq_true conn.connecting with connecting | connected
  · exact .inl connecting
  · exact .inr (shut.1.half_closed (shut.1.ready_of_direct rfl) connected shut.2 fresh)

theorem Shut.ends {conn : TcpConnection} {input : RelayInput} (shut : Shut .direct conn) (fresh : conn.closing = false)
    (ending : input ∈ [RelayInput.connected, .connectFails, .tcpWritten]) (arrives : input.arrives conn) :
    (relayStep .direct input conn).events = [.tcpClose, .uvlTcpClose] := by
  obtain ⟨flows, closed⟩ := shut
  rw [← closings_of_open fresh]
  rcases relayStep_cases input flows with ⟨gone | halted | absent, -⟩ | ⟨-, -, -, step⟩
  · exact absurd (flows.closing_of_stopped (.inl gone)) (by simp [fresh])
  · exact absurd (flows.closing_of_stopped (.inr halted)) (by simp [fresh])
  · simp [arrives] at absent
  · generalize relayStep .direct input conn = outcome at step
    obtain ⟨value, next, events⟩ := outcome
    simp only [List.mem_cons, List.not_mem_nil, or_false] at ending
    rcases ending with rfl | rfl | rfl
    · cases step with
      | opens _ _ unclosed => simp [closed] at unclosed
      | opensClosed => rfl
      | opensReleased _ _ closing => simp [fresh] at closing
      | ends _ _ _ kills => simp at kills
    · cases step with
      | gives socks => cases socks
      | fails => rfl
      | ends _ _ _ kills => simp at kills
    · cases step with
      | resumes _ unclosed => simp [closed] at unclosed
      | drains => rfl
      | writes _ closing => simp [fresh] at closing
      | ends _ _ _ kills => simp at kills

/-- When the console closes, what waits in the buffer never reaches the server.  With the
direct proxy the connection is then closed on both sides, at the latest when the connect or
the write that is in progress ends. -/
theorem console_closes (proxy : ProxyTcp) (before after : List RelayInput) :
    let run := relayRun proxy (before ++ .fin :: after)
    run.events.flatMap RelayEvent.toSocket = (relayRun proxy before).events.flatMap RelayEvent.toSocket ∧
      (proxy = .direct → run.state.closing = false →
        (run.state.connecting ∨ run.state.tcpWrites ≠ []) ∧
        ∀ input ∈ [RelayInput.connected, .connectFails, .tcpWritten], input.arrives run.state →
          (relayStep proxy input run.state).events = [.tcpClose, .uvlTcpClose]) := by
  obtain ⟨shut, silent⟩ := relayRun_fin proxy before after
  refine ⟨silent, ?_⟩
  rintro rfl fresh
  exact ⟨shut.in_progress fresh, fun input ending arrives => shut.ends fresh ending arrives⟩

/-! ## The SOCKS5 proxy -/

def RelayInput.isReport (input : RelayInput) : Bool :=
  input = .connected ∨ input = .connectFails ∨ input = .answerRefused

/-- How the negotiation with the server ended. -/
def report (inputs : List RelayInput) : Option RelayInput := inputs.find? RelayInput.isReport

/-- The gateway released the connection, and its handles were closed, without the negotiation
having succeeded. -/
def FreedEarly (inputs : List RelayInput) : Prop :=
  ∃ before after, inputs = before ++ .handlesClosed :: after ∧ .release ∈ before ∧ report before ≠ some .connected

theorem report_snoc (done : List RelayInput) (input : RelayInput) :
    report (done ++ [input]) = (report done).or (if input.isReport then some input else none) := by
  rw [report, List.find?_append, List.find?_singleton]
  rfl

theorem report_of_some {done : List RelayInput} (known : report done ≠ none) (input : RelayInput) :
    report (done ++ [input]) = report done := by
  obtain ⟨first, found⟩ := Option.ne_none_iff_exists'.mp known
  rw [report_snoc, found, Option.some_or]

theorem report_of_other (done : List RelayInput) {input : RelayInput} (other : input.isReport = false) :
    report (done ++ [input]) = report done := by
  simp [report_snoc, other]

theorem report_first {done : List RelayInput} (none : report done = none) {input : RelayInput}
    (reports : input.isReport) : report (done ++ [input]) = some input := by
  simp [report_snoc, none, reports]

theorem freedEarly_snoc (done : List RelayInput) (input : RelayInput) :
    FreedEarly (done ++ [input]) ↔
      FreedEarly done ∨ (input = .handlesClosed ∧ .release ∈ done ∧ report done ≠ some .connected) := by
  constructor
  · rintro ⟨before, after, split, released, failed⟩
    rcases List.eq_nil_or_concat after with rfl | ⟨front, last, rfl⟩
    · obtain ⟨rfl, here⟩ := List.append_inj' split rfl
      cases here
      exact .inr ⟨rfl, released, failed⟩
    · have inner : done ++ [input] = (before ++ .handlesClosed :: front) ++ [last] := by simpa using split
      exact .inl ⟨before, front, (List.append_inj' inner rfl).1, released, failed⟩
  · rintro (⟨before, after, rfl, released, failed⟩ | ⟨rfl, released, failed⟩)
    · exact ⟨before, after ++ [input], by simp, released, failed⟩
    · exact ⟨done, [], rfl, released, failed⟩

/-- What a connection that was not stopped tells about the inputs so far. -/
structure Negotiates (done : List RelayInput) (conn : TcpConnection) : Prop where
  ready : conn.ready ↔ report done = some .connected
  connecting : conn.connecting ↔ report done = none
  refused : conn.ready = false → (conn.tcpClosing ↔ report done = some .answerRefused)
  released : conn.ready = false → (conn.closing ↔ .release ∈ done)
  freed : conn.gone → conn.ready

section Negotiation

variable {conn next : TcpConnection} {done : List RelayInput} {input : RelayInput} {events : List RelayEvent}

/-- Where the report and the flags stay the same, so does what they tell. -/
theorem Negotiates.same (tells : Negotiates done conn) (report' : report (done ++ [input]) = report done)
    (ready : next.ready = conn.ready) (connecting : next.connecting = conn.connecting)
    (socket : conn.ready = false → next.tcpClosing = conn.tcpClosing)
    (closing : conn.ready = false → (next.closing ↔ .release ∈ done ++ [input]))
    (freed : next.gone → conn.ready) : Negotiates (done ++ [input]) next where
  ready := by rw [ready, report', tells.ready]
  connecting := by rw [connecting, report', tells.connecting]
  refused unready := by rw [socket (ready ▸ unready), report', tells.refused (ready ▸ unready)]
  released unready := closing (ready ▸ unready)
  freed gone := ready ▸ freed gone

/-- The negotiation is over. -/
theorem Negotiates.decided (tells : Negotiates done conn) (connected : conn.connecting = false) :
    report done ≠ none := by
  intro none
  have connecting := tells.connecting.mpr none
  simp [connected] at connecting

theorem Negotiates.settled (tells : Negotiates done conn) (flows : Flows .socks5 conn) (ready : conn.ready) :
    report done ≠ none := by
  refine tells.decided ?_
  by_contra connecting
  have unready := flows.unready_of_connecting rfl (by simpa using connecting)
  simp [ready] at unready

theorem Negotiates.skips (tells : Negotiates done conn) (flows : Flows .socks5 conn)
    (stops : conn.gone ∨ input.arrives conn = false) : Negotiates (done ++ [input]) conn := by
  have report' : report (done ++ [input]) = report done := by
    rcases stops with gone | absent
    · exact report_of_some (tells.settled flows (tells.freed gone)) input
    · rcases Bool.eq_false_or_eq_true input.isReport with reports | other
      · refine report_of_some ?_ input
        rcases Bool.eq_false_or_eq_true conn.connecting with connecting | connected
        · have unready := flows.unready_of_connecting rfl connecting
          have closing : conn.tcpClosing := by
            rcases (by simpa [RelayInput.isReport] using reports :
              input = .connected ∨ input = .connectFails ∨ input = .answerRefused) with rfl | rfl | rfl <;>
              simpa [RelayInput.arrives, connecting, unready] using absent
          exact tells.settled flows (flows.ready_of_closing closing connecting)
        · exact tells.decided connected
      · exact report_of_other done other
  refine tells.same report' rfl rfl (fun _ => rfl) ?_ tells.freed
  intro unready
  have arriving : input ≠ .release := by
    rintro rfl
    rcases stops with gone | absent
    · simp [tells.freed gone] at unready
    · cases absent
  simpa [arriving.symm] using tells.released unready

/-- The report that ends the negotiation. -/
theorem Negotiates.connects (tells : Negotiates done conn) (connecting : conn.connecting) (ready : next.ready)
    (settles : next.connecting = false) : Negotiates (done ++ [.connected]) next := by
  have first : report (done ++ [.connected]) = some .connected :=
    report_first (tells.connecting.mp connecting) rfl
  exact ⟨by simp [ready, first], by simp [settles, first], by simp [ready], by simp [ready], fun _ => ready⟩

/-- An input that is neither a report nor the release, where the flags stay. -/
theorem Negotiates.unmoved (tells : Negotiates done conn) (other : input.isReport = false) (unreleased : input ≠ .release)
    (ready : next.ready = conn.ready) (connecting : next.connecting = conn.connecting)
    (same : conn.ready = false → next.tcpClosing = conn.tcpClosing ∧ next.closing = conn.closing)
    (freed : next.gone → conn.ready) : Negotiates (done ++ [input]) next := by
  refine tells.same (report_of_other done other) ready connecting (fun unready => (same unready).1) ?_ freed
  intro unready
  simpa [(same unready).2, unreleased.symm] using tells.released unready

/-- The negotiation fails. -/
theorem Negotiates.fails (tells : Negotiates done conn) (connecting : conn.connecting) (reports : input.isReport)
    (failure : input ≠ .connected) (unready : conn.ready = false) (ready : next.ready = false)
    (settles : next.connecting = false) (socket : next.tcpClosing ↔ input = .answerRefused)
    (closing : next.closing = conn.closing) (here : next.gone = false) : Negotiates (done ++ [input]) next := by
  have first : report (done ++ [input]) = some input := report_first (tells.connecting.mp connecting) reports
  have unreleased : input ≠ .release := by
    rintro rfl
    cases reports
  refine ⟨by simp [ready, first, failure], by simp [settles, first], fun _ => by simp [socket, first], fun _ => ?_,
    by simp [here]⟩
  simpa [closing, unreleased.symm] using tells.released unready

theorem Negotiates.moves (tells : Negotiates done conn) (flows : Flows .socks5 conn) (here : conn.gone = false)
    (running : conn.halted = false) (step : Advance .socks5 conn input next events) :
    next.halted = false → Negotiates (done ++ [input]) next := by
  intro goes
  have stays : conn.gone → conn.ready := by simp [here]
  cases step with
  | opens connecting => exact tells.connects connecting rfl rfl
  | opensClosed connecting => exact tells.connects connecting rfl rfl
  | opensReleased connecting => exact tells.connects connecting rfl rfl
  | gives socks connecting =>
      have unready := flows.unready_of_connecting rfl connecting
      have open_ : conn.tcpClosing = false := by
        simpa [tells.connecting.mp connecting] using tells.refused unready
      exact tells.fails connecting rfl (by decide) unready unready rfl (by simp [open_]) rfl here
  | refusesAnswer connecting unready =>
      exact tells.fails connecting rfl (by decide) unready unready rfl (by simp) rfl here
  | fails direct => cases direct
  | ends input ready alive kills =>
      refine tells.unmoved ?_ ?_ rfl rfl (by simp [ready]) stays
      · rcases kills with rfl | rfl | rfl <;> rfl
      · rcases kills with rfl | rfl | rfl <;> simp
  | drains pending => exact tells.unmoved rfl (by simp) rfl rfl (by simp [flows.ready_of_tcpWrites pending]) stays
  | notes closing => exact tells.same (report_of_other done rfl) rfl rfl (fun _ => rfl) (by simp [closing]) stays
  | released fresh => exact tells.same (report_of_other done rfl) rfl rfl (fun _ => rfl) (by simp) stays
  | frees closing killed =>
      exact tells.unmoved rfl (by simp) rfl rfl (fun _ => ⟨rfl, rfl⟩) fun _ => flows.ready_of_killed running killed
  | freesReady closing alive ready => exact tells.unmoved rfl (by simp) rfl rfl (by simp [ready]) fun _ => ready
  | faults => cases goes
  | _ => exact tells.unmoved rfl (by simp) rfl rfl (fun _ => ⟨rfl, rfl⟩) stays

/-- Freeing an unready connection is the one step that stops the program. -/
theorem Negotiates.halts (tells : Negotiates done conn) (flows : Flows .socks5 conn) (running : conn.halted = false)
    (step : Advance .socks5 conn input next events) :
    next.halted ↔ input = .handlesClosed ∧ .release ∈ done ∧ report done ≠ some .connected := by
  cases step with
  | frees closing killed => simp [running, tells.ready.mp (flows.ready_of_killed running killed)]
  | freesReady closing alive ready =>
      simp [TcpConnection.ended, running, tells.ready.mp ready]
  | faults closing alive unready => simp [← tells.ready, unready, ← tells.released unready, closing]
  | ends input ready alive kills => rcases kills with rfl | rfl | rfl <;> simp [TcpConnection.ended, running]
  | _ => simp [TcpConnection.ended, running]

theorem Negotiates.absent (tells : Negotiates done conn) (stops : conn.gone ∨ input.arrives conn = false) :
    ¬ (input = .handlesClosed ∧ .release ∈ done ∧ report done ≠ some .connected) := by
  rintro ⟨rfl, released, failed⟩
  have unready : conn.ready = false := by
    simpa using mt tells.ready.mp failed
  rcases stops with gone | absent
  · simp [tells.freed gone] at unready
  · have closing : conn.closing := (tells.released unready).mpr released
    simp [RelayInput.arrives, closing] at absent

end Negotiation

theorem negotiates_start : Negotiates [] (TcpConnection.start .socks5) := by
  constructor <;> simp [TcpConnection.start, report]

theorem not_freedEarly_nil : ¬ FreedEarly [] := by
  rintro ⟨before, after, empty, -⟩
  simp at empty

/-- Which inputs stop the program, and what the flags tell as long as it runs. -/
theorem relayRun_socks5 (inputs : List RelayInput) :
    let conn := (relayRun .socks5 inputs).state
    (conn.halted = false → Negotiates inputs conn) ∧ (conn.halted ↔ FreedEarly inputs) := by
  refine (relayRun_induction (fun done conn _ =>
    (conn.halted = false → Negotiates done conn) ∧ (conn.halted ↔ FreedEarly done)) inputs ?_ ?_ ?_).2
  · exact ⟨fun _ => negotiates_start, iff_of_false (by simp [TcpConnection.start]) not_freedEarly_nil⟩
  · rintro done input conn past flows stops ⟨tells, halts⟩
    rcases Bool.eq_false_or_eq_true conn.halted with halted | running
    · refine ⟨by simp [halted], iff_of_true halted ?_⟩
      exact (freedEarly_snoc done input).mpr (.inl (halts.mp halted))
    · have stops : conn.gone ∨ input.arrives conn = false := by simpa [running] using stops
      refine ⟨fun _ => (tells running).skips flows stops, ?_⟩
      rw [freedEarly_snoc, halts]
      exact (or_iff_left ((tells running).absent stops)).symm
  · rintro done input conn past next events flows here running - step ⟨tells, halts⟩
    refine ⟨(tells running).moves flows here running step, ?_⟩
    have before : ¬ FreedEarly done := by simp [← halts, running]
    rw [freedEarly_snoc, or_iff_right before]
    exact (tells running).halts flows running step

/-! ### A call through the null handle -/

/-- The call through the null handle is what stops the program. -/
def Faults (conn : TcpConnection) (past : List RelayEvent) : Prop := .nullHandle ∈ past ↔ conn.halted

theorem Faults.next {proxy : ProxyTcp} {conn next : TcpConnection} {input : RelayInput} {past events : List RelayEvent}
    (faults : Faults conn past) (step : Advance proxy conn input next events) : Faults next (past ++ events) := by
  have silent : RelayEvent.nullHandle ∉ conn.closings := by
    cases closing : conn.closing <;> simp [TcpConnection.closings, closing]
  rw [Faults] at faults ⊢
  rw [List.mem_append, faults]
  cases step with
  | opensClosed | fails | drains | ends | freesReady => simp [silent, TcpConnection.ended]
  | _ => simp

theorem relayRun_faults (proxy : ProxyTcp) (inputs : List RelayInput) :
    .nullHandle ∈ (relayRun proxy inputs).events ↔ (relayRun proxy inputs).state.halted := by
  refine (relayRun_stable Faults inputs (by simp [Faults, TcpConnection.start]) ?_).2
  intro input conn past next events _ step faults
  exact faults.next step

theorem relayRun_direct_running (inputs : List RelayInput) : (relayRun .direct inputs).state.halted = false := by
  refine (relayRun_stable (fun conn _ => conn.halted = false) inputs rfl ?_).2
  intro input conn past next events flows step running
  cases step with
  | faults closing alive unready => simp [flows.ready_of_direct rfl] at unready
  | _ => exact running

/-- A call goes through the null handle exactly when, with the SOCKS5 proxy, the gateway
releases a connection before the negotiation has succeeded and the handles are closed before
it does. -/
theorem null_handle_iff (proxy : ProxyTcp) (inputs : List RelayInput) :
    .nullHandle ∈ (relayRun proxy inputs).events ↔
      proxy = .socks5 ∧ ∃ before after, inputs = before ++ .handlesClosed :: after ∧ .release ∈ before ∧
        before.find? RelayInput.isReport ≠ some .connected := by
  rw [relayRun_faults]
  cases proxy with
  | direct => simp [relayRun_direct_running]
  | socks5 => exact (relayRun_socks5 inputs).2.trans (and_iff_right rfl).symm

/-! ### A negotiation that fails -/

/-- The console's bytes are kept or refused, and the socket may be closed: nothing is passed on, and
the console's end is not closed. -/
def RelayEvent.Unseen (event : RelayEvent) : Prop :=
  event = .tcpClose ∨ ∃ bytes, event = .accepted bytes ∨ event = .refused bytes

/-- Nothing is passed on by a connection that is neither ready nor closed. -/
theorem Advance.unseen {proxy : ProxyTcp} {conn next : TcpConnection} {input : RelayInput} {events : List RelayEvent}
    (step : Advance proxy conn input next events) (flows : Flows proxy conn) (unready : next.ready = false)
    (kept : next.closing = false) :
    conn.ready = false ∧ conn.closing = false ∧ ∀ event ∈ events, event.Unseen := by
  cases step with
  | opens | opensClosed | opensReleased => cases unready
  | fails | drains | ends | freesReady | released => cases kept
  | forwards bytes reads => simp [flows.ready_of_reading reads] at unready
  | hands reads => simp [flows.ready_of_readCb reads] at unready
  | faults closing => simp [closing] at kept
  | refuses | accepts | refusesAnswer => exact ⟨unready, kept, by simp [RelayEvent.Unseen]⟩
  | _ => exact ⟨unready, kept, by simp⟩

end SwitchLanPlay.UvLwip.TcpRelay
