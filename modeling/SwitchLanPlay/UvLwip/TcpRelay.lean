import SwitchLanPlay.Library.Hoare
import SwitchLanPlay.UvLwip.Reading

/-!
# A TCP connection through the gateway

`TcpConnection` of `gateway.cpp` between its two ends: the connection of a console,
which ends in lwIP (`uv_lwip.c`, `IConnection`), and the socket of the proxy
(`DirectProxyTcp`, `Socks5ProxyTcp`).  Each end stops reading while what it read last
is being written to the other.

Of `uv_lwip.c` the write queue is seen through its requests: `uvl_write` adds one, the
write callback completes the first one, or all are cancelled.  libuv calls back for a
socket only while it is not being closed; a read callback gets at least one byte.  A call
through the null `tcp` of `Socks5ProxyTcp` ends the execution: it is `halted`.
-/

namespace SwitchLanPlay.UvLwip.TcpRelay

open Library

/-! ## State -/

inductive ProxyTcp where
  | direct
  | socks5
  deriving DecidableEq

/-- `recvBuf` to `writes` are fields of `struct uvl_tcp`; `writes` lists the requests that
are not completed.  `closing` is the flag of `IConnection`, `killed` the one of the same
name that `TcpConnection` has of its own.  `ready` says that the proxy's `tcp` is set,
`connecting` that neither success nor failure was reported; the other fields are those of
the socket. -/
structure TcpConnection where
  recvBuf : Bytes
  readCb : Bool
  closed : Bool
  readReq : Bool
  writes : List Bytes
  closing : Bool
  killed : Bool
  ready : Bool
  connecting : Bool
  reading : Bool
  tcpWrites : List Bytes
  tcpClosing : Bool
  gone : Bool
  halted : Bool

inductive RelayEvent where
  /-- `uvl_client_recv_func` returns `ERR_OK`, or `ERR_MEM`. -/
  | accepted (bytes : Bytes)
  | refused (bytes : Bytes)
  /-- `ptcp->write`: bytes of the console. -/
  | tcpWrite (bytes : Bytes)
  /-- A data event of the socket. -/
  | tcpData (bytes : Bytes)
  /-- `uvl_write`: bytes of the socket. -/
  | uvlWrite (bytes : Bytes)
  /-- `RT_ASSERT` in `IConnection::read`, which ends the program. -/
  | assertFails
  /-- `uv_read_start` for a socket that is read. -/
  | alreadyReading
  /-- A call through the null `tcp`. -/
  | nullHandle
  | tcpClose
  | uvlTcpClose
  deriving DecidableEq

abbrev Relay (α : Type) := Proc TcpConnection RelayEvent α

/-! ## Closing -/

def nullHandle : Relay Unit := do
  Proc.update fun conn => { conn with halted := true }
  Proc.emit .nullHandle

/-- `IConnection::close` with `uvl_tcp_close`.  The callbacks that `uvl_tcp_close` invokes
report an error and find `closing` set: they do nothing. -/
def close : Relay Unit := do
  let conn ← Proc.read
  if conn.closing then
    pure ()
  else do
    Proc.update fun conn => { conn with closing := true, closed := true, readCb := false, writes := [] }
    Proc.emit .uvlTcpClose

/-- `TcpConnection::kill` -/
def kill : Relay Unit := do
  let conn ← Proc.read
  if conn.killed then
    pure ()
  else do
    Proc.update fun conn => { conn with killed := true }
    if conn.ready then do
      Proc.update fun conn => { conn with reading := false, readCb := false, tcpClosing := true }
      Proc.emit .tcpClose
      close
    else
      nullHandle

/-- `IConnection::readCallback` without data. -/
def readCallbackEnd : Relay Unit := do
  let conn ← Proc.read
  if conn.closing then pure () else kill

/-- `uvl_client_freed` -/
def uvlClientFreed : Relay Unit := do
  Proc.update fun conn => { conn with closed := true }
  let conn ← Proc.read
  if conn.readCb then do
    readCallbackEnd
    Proc.update fun conn => { conn with readCb := false }
  else
    pure ()

/-- `uvl_cancel_reqs`, when a callback finds the connection closed. -/
def uvlCancelReqs : Relay Unit := do
  Proc.update fun conn => { conn with writes := [] }
  let conn ← Proc.read
  if conn.readCb then do
    readCallbackEnd
    Proc.update fun conn => { conn with readCb := false }
  else
    pure ()

/-! ## Reading and writing -/

/-- `IConnection::read` with `uvl_read_start`. -/
def read : Relay Unit := do
  let conn ← Proc.read
  if conn.readCb then
    Proc.emit .assertFails
  else if conn.closed then
    readCallbackEnd
  else
    Proc.update fun conn => { conn with readCb := true, readReq := true }

/-- `ptcp->read()`; libuv refuses a socket that is being closed, and the error event kills. -/
def tcpRead : Relay Unit := do
  let conn ← Proc.read
  if conn.ready then
    if conn.tcpClosing then
      kill
    else if conn.reading then
      Proc.emit .alreadyReading
    else
      Proc.update fun conn => { conn with reading := true }
  else
    nullHandle

/-- `TcpConnection::onData`: bytes of the console. -/
def onData (bytes : Bytes) : Relay Unit := do
  Proc.update fun conn => { conn with readCb := false }
  let conn ← Proc.read
  if conn.ready then do
    Proc.update fun conn => { conn with tcpWrites := conn.tcpWrites ++ [bytes] }
    Proc.emit (.tcpWrite bytes)
  else
    nullHandle

/-- The function given to `ptcp->onData`: bytes of the socket. -/
def onTcpData (bytes : Bytes) : Relay Unit := do
  Proc.update fun conn => { conn with reading := false, writes := conn.writes ++ [bytes] }
  Proc.emit (.uvlWrite bytes)

/-- `uvl_async_tcp_read_cb`; `allocCallback` provides 65536 bytes. -/
def uvlAsyncTcpReadCb : Relay Unit := do
  let conn ← Proc.read
  if conn.readCb ∧ conn.recvBuf ≠ [] then do
    Proc.update fun conn => { conn with recvBuf := [] }
    onData conn.recvBuf
  else
    pure ()

/-- The requests that are written, of which there is never more than one, are completed;
`IConnection::writeCallback` calls `onWrite`. -/
def completeWrites : Nat → Relay Unit
  | 0 => pure ()
  | count + 1 => do
      let conn ← Proc.read
      match conn.writes with
      | [] => pure ()
      | _ :: rest => do
          Proc.update fun conn => { conn with writes := rest }
          tcpRead
          completeWrites count

/-- `uvl_async_tcp_write_cb`, where the first `count` requests are sent and acknowledged. -/
def uvlAsyncTcpWriteCb (count : Nat) : Relay Unit := do
  completeWrites count
  let conn ← Proc.read
  if conn.closed then uvlCancelReqs else pure ()

/-- `uvl_client_recv_func` with a buffer. -/
def uvlClientRecvFunc (bytes : Bytes) : Relay Unit := do
  let conn ← Proc.read
  if bytes.length > uvlTcpRecvBufLen - conn.recvBuf.length then
    Proc.emit (.refused bytes)
  else do
    Proc.update fun conn => { conn with recvBuf := conn.recvBuf ++ bytes, readReq := true }
    Proc.emit (.accepted bytes)

/-! ## Steps -/

inductive RelayInput where
  /-- The proxy reports that it is connected. -/
  | connected
  /-- The connect fails, or the SOCKS5 server ends the connection before it has answered. -/
  | connectFails
  /-- `Socks5Protocol::Assert` finds the answer of the SOCKS5 server wrong. -/
  | answerRefused
  | tcpData (bytes : Bytes)
  | tcpWritten
  | tcpEnd
  | tcpError
  | recv (bytes : Bytes)
  /-- The console closes, or lwIP reports an error. -/
  | fin
  | asyncRead
  | asyncWrite (count : Nat)
  /-- `UvLwipBase::release` closes the connection. -/
  | release
  /-- The handles are closed: `closeCallback`. -/
  | handlesClosed
  deriving DecidableEq

/-- When libuv, lwIP and the gateway call back. -/
def RelayInput.arrives (conn : TcpConnection) : RelayInput → Bool
  | .connected | .connectFails => conn.connecting && !conn.tcpClosing
  | .answerRefused => conn.connecting && !conn.ready && !conn.tcpClosing
  | .tcpData bytes => conn.reading && !conn.tcpClosing && !bytes.isEmpty
  | .tcpWritten => !conn.tcpWrites.isEmpty && !conn.tcpClosing
  | .tcpEnd => conn.reading && !conn.tcpClosing
  | .tcpError => conn.ready && !conn.connecting && !conn.tcpClosing
  | .recv bytes => !conn.closed && !bytes.isEmpty
  | .fin => !conn.closed
  | .asyncRead => conn.readReq && !conn.closing
  | .asyncWrite _ => !conn.closing
  | .release => true
  | .handlesClosed => conn.closing

/-- The code that is called. -/
def handle (proxy : ProxyTcp) : RelayInput → Relay Unit
  | .connected => do
      Proc.update fun conn => { conn with connecting := false, ready := true }
      tcpRead
      read
  | .connectFails => do
      Proc.update fun conn => { conn with connecting := false }
      -- the protocol listens to neither the error nor the end of its socket
      match proxy with
      | .direct => kill
      | .socks5 => pure ()
  | .answerRefused => do
      Proc.update fun conn => { conn with connecting := false, tcpClosing := true }
      Proc.emit .tcpClose
  | .tcpData bytes => do
      Proc.emit (.tcpData bytes)
      onTcpData bytes
  | .tcpWritten => do
      Proc.update fun conn => { conn with tcpWrites := conn.tcpWrites.tail }
      read
  | .tcpEnd => kill
  | .tcpError => kill
  | .recv bytes => uvlClientRecvFunc bytes
  | .fin => uvlClientFreed
  | .asyncRead => do
      Proc.update fun conn => { conn with readReq := false }
      uvlAsyncTcpReadCb
  | .asyncWrite count => uvlAsyncTcpWriteCb count
  | .release => close
  | .handlesClosed => do
      kill
      Proc.update fun conn => { conn with gone := true }

def relayStep (proxy : ProxyTcp) (input : RelayInput) : Relay Unit := do
  let conn ← Proc.read
  if conn.gone ∨ conn.halted ∨ input.arrives conn = false then
    pure ()
  else
    handle proxy input

/-- The connection after `onConnection`. -/
def TcpConnection.start (proxy : ProxyTcp) : TcpConnection where
  recvBuf := []
  readCb := false
  closed := false
  readReq := false
  writes := []
  closing := false
  killed := false
  ready := proxy = .direct
  connecting := true
  reading := false
  tcpWrites := []
  tcpClosing := false
  gone := false
  halted := false

/-! ## What a step does -/

/-- Both ends are closed. -/
def TcpConnection.ended (conn : TcpConnection) : TcpConnection :=
  { conn with
    killed := true, reading := false, readCb := false, tcpClosing := true, closing := true, closed := true,
    writes := if conn.closing then conn.writes else [] }

def TcpConnection.closings (conn : TcpConnection) : List RelayEvent :=
  .tcpClose :: if conn.closing then [] else [.uvlTcpClose]

section Outcomes

variable {conn : TcpConnection}

theorem close_eq (fresh : conn.closing = false) :
    close conn = ⟨(), { conn with closing := true, closed := true, readCb := false, writes := [] }, [.uvlTcpClose]⟩ := by
  rw [close, Proc.read_bind, if_neg (by simp [fresh])]
  rfl

theorem close_of_closing (closing : conn.closing) : close conn = ⟨(), conn, []⟩ := by
  rw [close, Proc.read_bind, if_pos closing]
  rfl

theorem kill_of_killed (killed : conn.killed) : kill conn = ⟨(), conn, []⟩ := by
  rw [kill, Proc.read_bind, if_pos killed]
  rfl

theorem kill_eq (alive : conn.killed = false) (ready : conn.ready) (shut : conn.closing → conn.closed) :
    kill conn = ⟨(), conn.ended, conn.closings⟩ := by
  rw [kill, Proc.read_bind, if_neg (by simp [alive]), if_pos ready]
  cases closing : conn.closing with
  | false =>
      ext1
      · rfl
      · simp [close_eq, closing, TcpConnection.ended]
      · simp [close_eq, closing, TcpConnection.closings]
  | true =>
      ext1
      · rfl
      · simp [close_of_closing, closing, shut closing, TcpConnection.ended]
      · simp [close_of_closing, closing, TcpConnection.closings]

theorem kill_unready (alive : conn.killed = false) (unready : conn.ready = false) :
    kill conn = ⟨(), { conn with killed := true, halted := true }, [.nullHandle]⟩ := by
  rw [kill, Proc.read_bind, if_neg (by simp [alive]), if_neg (by simp [unready])]
  rfl

theorem readCallbackEnd_of_closing (closing : conn.closing) : readCallbackEnd conn = ⟨(), conn, []⟩ := by
  rw [readCallbackEnd, Proc.read_bind, if_pos closing]
  rfl

theorem readCallbackEnd_eq (alive : conn.killed = false) (ready : conn.ready) (open_ : conn.closing = false) :
    readCallbackEnd conn = ⟨(), conn.ended, conn.closings⟩ := by
  rw [readCallbackEnd, Proc.read_bind, if_neg (by simp [open_])]
  exact kill_eq alive ready (by simp [open_])

theorem read_of_open (unread : conn.readCb = false) (here : conn.closed = false) :
    read conn = ⟨(), { conn with readCb := true, readReq := true }, []⟩ := by
  rw [read, Proc.read_bind, if_neg (by simp [unread]), if_neg (by simp [here])]
  rfl

theorem read_of_closed (unread : conn.readCb = false) (closed : conn.closed) :
    read conn = readCallbackEnd conn := by
  rw [read, Proc.read_bind, if_neg (by simp [unread]), if_pos closed]

theorem tcpRead_eq (ready : conn.ready) (here : conn.tcpClosing = false) (unread : conn.reading = false) :
    tcpRead conn = ⟨(), { conn with reading := true }, []⟩ := by
  rw [tcpRead, Proc.read_bind, if_pos ready, if_neg (by simp [here]), if_neg (by simp [unread])]
  rfl

end Outcomes

/-- What holds of the connection between two inputs. -/
structure Flows (proxy : ProxyTcp) (conn : TcpConnection) : Prop where
  closing_of_stopped : conn.gone ∨ conn.halted → conn.closing
  closed_of_closing : conn.closing → conn.closed
  unread_of_closed : conn.closed → conn.readCb = false
  closing_of_killed : conn.killed → conn.closing ∧ conn.reading = false
  killed_iff : conn.ready → (conn.killed ↔ conn.tcpClosing)
  ready_of_closing : conn.tcpClosing → conn.connecting → conn.ready
  ready_of_killed : conn.halted = false → conn.killed → conn.ready
  ready_of_direct : proxy = .direct → conn.ready
  unready_of_connecting : proxy = .socks5 → conn.connecting → conn.ready = false
  quiet : conn.ready = false ∨ conn.connecting →
    conn.reading = false ∧ conn.readCb = false ∧ conn.writes = [] ∧ conn.tcpWrites = []
  writes_one : conn.writes.length ≤ 1
  tcpWrites_one : conn.tcpWrites.length ≤ 1
  writes_of_reading : conn.reading → conn.writes = []
  tcpWrites_of_readCb : conn.readCb → conn.tcpWrites = []
  -- each end is read as soon as the other has taken what was read before
  busy : conn.ready → conn.connecting = false → conn.closed = false →
    (conn.tcpWrites = [] → conn.readCb) ∧ (conn.writes = [] → conn.reading)
  half_closed : conn.ready → conn.connecting = false → conn.closed → conn.closing = false → conn.tcpWrites ≠ []
  wakes : conn.readCb → conn.recvBuf ≠ [] → conn.readReq
  fits : conn.recvBuf.length ≤ uvlTcpRecvBufLen

/-- What a callback does. -/
inductive Advance (proxy : ProxyTcp) (conn : TcpConnection) : RelayInput → TcpConnection → List RelayEvent → Prop where
  | opens : conn.connecting → conn.tcpClosing = false → conn.closed = false →
      Advance proxy conn .connected
        { conn with connecting := false, ready := true, reading := true, readCb := true, readReq := true } []
  | opensClosed : conn.connecting → conn.tcpClosing = false → conn.closed → conn.closing = false →
      Advance proxy conn .connected { conn with connecting := false, ready := true }.ended conn.closings
  | opensReleased : conn.connecting → conn.tcpClosing = false → conn.closing →
      Advance proxy conn .connected { conn with connecting := false, ready := true, reading := true } []
  | gives : proxy = .socks5 → conn.connecting → Advance proxy conn .connectFails { conn with connecting := false } []
  | refusesAnswer : conn.connecting → conn.ready = false → conn.tcpClosing = false →
      Advance proxy conn .answerRefused { conn with connecting := false, tcpClosing := true } [.tcpClose]
  | fails : proxy = .direct → conn.connecting → conn.killed = false →
      Advance proxy conn .connectFails { conn with connecting := false }.ended conn.closings
  | forwards (bytes) : conn.reading → conn.tcpClosing = false →
      Advance proxy conn (.tcpData bytes) { conn with reading := false, writes := [bytes] } [.tcpData bytes, .uvlWrite bytes]
  | resumes : conn.tcpWrites ≠ [] → conn.closed = false →
      Advance proxy conn .tcpWritten { conn with tcpWrites := [], readCb := true, readReq := true } []
  | drains : conn.tcpWrites ≠ [] → conn.closed → conn.closing = false →
      Advance proxy conn .tcpWritten { conn with tcpWrites := [] }.ended conn.closings
  | writes : conn.tcpWrites ≠ [] → conn.closing → Advance proxy conn .tcpWritten { conn with tcpWrites := [] } []
  | ends (input) : conn.ready → conn.killed = false → (input = .tcpEnd ∨ input = .tcpError ∨ input = .fin) →
      Advance proxy conn input conn.ended conn.closings
  | notes : conn.closing → Advance proxy conn .release conn []
  | refuses (bytes) : conn.closed = false → Advance proxy conn (.recv bytes) conn [.refused bytes]
  | accepts (bytes) : conn.closed = false → (conn.recvBuf ++ bytes).length ≤ uvlTcpRecvBufLen →
      Advance proxy conn (.recv bytes) { conn with recvBuf := conn.recvBuf ++ bytes, readReq := true } [.accepted bytes]
  | closes : conn.closed = false → conn.readCb = false → Advance proxy conn .fin { conn with closed := true } []
  | wakes : conn.readCb = false ∨ conn.recvBuf = [] → Advance proxy conn .asyncRead { conn with readReq := false } []
  | hands : conn.readCb → conn.recvBuf ≠ [] →
      Advance proxy conn .asyncRead
        { conn with readReq := false, recvBuf := [], readCb := false, tcpWrites := [conn.recvBuf] }
        [.tcpWrite conn.recvBuf]
  | completes (count) : conn.writes ≠ [] → conn.closing = false →
      Advance proxy conn (.asyncWrite count) { conn with writes := [], reading := true } []
  | cancels (count) : conn.closed → conn.closing = false → Advance proxy conn (.asyncWrite count) { conn with writes := [] } []
  | pends (count) : conn.closed = false → Advance proxy conn (.asyncWrite count) conn []
  | released : conn.closing = false →
      Advance proxy conn .release { conn with closing := true, closed := true, readCb := false, writes := [] } [.uvlTcpClose]
  | frees : conn.closing → conn.killed → Advance proxy conn .handlesClosed { conn with gone := true } []
  | freesReady : conn.closing → conn.killed = false → conn.ready →
      Advance proxy conn .handlesClosed { conn.ended with gone := true } conn.closings
  | faults : conn.closing → conn.killed = false → conn.ready = false →
      Advance proxy conn .handlesClosed { conn with killed := true, halted := true, gone := true } [.nullHandle]

section Steps

variable {proxy : ProxyTcp} {conn : TcpConnection}

theorem Flows.alive (flows : Flows proxy conn) (here : conn.closing = false) : conn.killed = false := by
  by_contra killed
  have closing := (flows.closing_of_killed (by simpa using killed)).1
  simp [here] at closing

/-- The callback does what `Advance` allows. -/
def Advances (proxy : ProxyTcp) (conn : TcpConnection) (input : RelayInput) : Prop :=
  Advance proxy conn input (handle proxy input conn).state (handle proxy input conn).events

theorem advances_of_eq {input : RelayInput} {next : TcpConnection} {events : List RelayEvent}
    (does : handle proxy input conn = ⟨(), next, events⟩) (allowed : Advance proxy conn input next events) :
    Advances proxy conn input := by
  rw [Advances, does]
  exact allowed

theorem handle_connected (unread : conn.reading = false) (here : conn.tcpClosing = false) :
    handle proxy .connected conn = read { conn with connecting := false, ready := true, reading := true } :=
  calc handle proxy .connected conn
      = (tcpRead >>= fun _ => read) { conn with connecting := false, ready := true } := rfl
    _ = read { conn with connecting := false, ready := true, reading := true } :=
        Proc.bind_of_quiet _ (tcpRead_eq rfl (by exact here) (by exact unread)) _

theorem Flows.open_of_alive (flows : Flows proxy conn) (ready : conn.ready) (alive : conn.killed = false) :
    conn.tcpClosing = false := by
  simpa [alive] using flows.killed_iff ready

theorem Flows.unkilled (flows : Flows proxy conn) (running : conn.halted = false) (here : conn.tcpClosing = false) :
    conn.killed = false := by
  by_contra killed
  have ready := flows.ready_of_killed running (by simpa using killed)
  have closing := (flows.killed_iff ready).mp (by simpa using killed)
  simp [here] at closing

theorem advances_connected (flows : Flows proxy conn) (connecting : conn.connecting)
    (here : conn.tcpClosing = false) : Advances proxy conn .connected := by
  obtain ⟨unread, unreadCb, -, -⟩ := flows.quiet (.inr connecting)
  rcases Bool.eq_false_or_eq_true conn.closed with closed | open_
  · have ended : handle proxy .connected conn =
        readCallbackEnd { conn with connecting := false, ready := true, reading := true } :=
      (handle_connected unread here).trans (read_of_closed (by exact unreadCb) (by exact closed))
    rcases Bool.eq_false_or_eq_true conn.closing with closing | fresh
    · exact advances_of_eq (ended.trans (readCallbackEnd_of_closing (by exact closing)))
        (.opensReleased connecting here closing)
    · exact advances_of_eq (ended.trans (readCallbackEnd_eq (by exact flows.alive fresh) rfl (by exact fresh)))
        (.opensClosed connecting here closed fresh)
  · exact advances_of_eq ((handle_connected unread here).trans (read_of_open (by exact unreadCb) (by exact open_)))
      (.opens connecting here open_)

theorem advances_connectFails (flows : Flows proxy conn) (connecting : conn.connecting)
    (here : conn.tcpClosing = false) : Advances proxy conn .connectFails := by
  cases proxy with
  | direct =>
      have ready := flows.ready_of_direct rfl
      have alive : conn.killed = false := by simpa [here] using flows.killed_iff ready
      have does : handle .direct .connectFails conn = kill { conn with connecting := false } := rfl
      exact advances_of_eq
        (does.trans (kill_eq (by exact alive) (by exact ready) (by exact flows.closed_of_closing)))
        (.fails rfl connecting alive)
  | socks5 => exact .gives rfl connecting

theorem Flows.one_tcpWrite (flows : Flows proxy conn) : conn.tcpWrites.tail = [] := by
  have one := flows.tcpWrites_one
  exact List.eq_nil_of_length_eq_zero (by simp; omega)

theorem Flows.one_write (flows : Flows proxy conn) : conn.writes.tail = [] := by
  have one := flows.writes_one
  exact List.eq_nil_of_length_eq_zero (by simp; omega)

theorem Flows.unread_of_tcpWrites (flows : Flows proxy conn) (pending : conn.tcpWrites ≠ []) : conn.readCb = false := by
  by_contra reads
  exact pending (flows.tcpWrites_of_readCb (by simpa using reads))

theorem Flows.unread_of_writes (flows : Flows proxy conn) (pending : conn.writes ≠ []) : conn.reading = false := by
  by_contra reads
  exact pending (flows.writes_of_reading (by simpa using reads))

theorem Flows.ready_of_tcpWrites (flows : Flows proxy conn) (pending : conn.tcpWrites ≠ []) : conn.ready := by
  by_contra unready
  exact pending (flows.quiet (.inl (by simpa using unready))).2.2.2

theorem Flows.ready_of_writes (flows : Flows proxy conn) (pending : conn.writes ≠ []) : conn.ready := by
  by_contra unready
  exact pending (flows.quiet (.inl (by simpa using unready))).2.2.1

theorem Flows.ready_of_readCb (flows : Flows proxy conn) (reads : conn.readCb) : conn.ready := by
  by_contra unready
  have unread := (flows.quiet (.inl (by simpa using unready))).2.1
  simp [reads] at unread

theorem Flows.ready_of_reading (flows : Flows proxy conn) (reads : conn.reading) : conn.ready := by
  by_contra unready
  have unread := (flows.quiet (.inl (by simpa using unready))).1
  simp [reads] at unread

theorem advances_tcpData (flows : Flows proxy conn) {bytes : Bytes} (reads : conn.reading)
    (here : conn.tcpClosing = false) : Advances proxy conn (.tcpData bytes) := by
  have does : handle proxy (.tcpData bytes) conn =
      ⟨(), { conn with reading := false, writes := conn.writes ++ [bytes] }, [.tcpData bytes, .uvlWrite bytes]⟩ := rfl
  rw [flows.writes_of_reading reads, List.nil_append] at does
  exact advances_of_eq does (.forwards bytes reads here)

theorem advances_tcpWritten (flows : Flows proxy conn) (pending : conn.tcpWrites ≠ []) :
    Advances proxy conn .tcpWritten := by
  have unread := flows.unread_of_tcpWrites pending
  have does : handle proxy .tcpWritten conn = read { conn with tcpWrites := conn.tcpWrites.tail } := rfl
  rw [flows.one_tcpWrite] at does
  rcases Bool.eq_false_or_eq_true conn.closed with closed | open_
  · have ended := does.trans (read_of_closed (by exact unread) (by exact closed))
    rcases Bool.eq_false_or_eq_true conn.closing with closing | fresh
    · exact advances_of_eq (ended.trans (readCallbackEnd_of_closing (by exact closing))) (.writes pending closing)
    · have ready := flows.ready_of_tcpWrites pending
      exact advances_of_eq
        (ended.trans (readCallbackEnd_eq (by exact flows.alive fresh) (by exact ready) (by exact fresh)))
        (.drains pending closed fresh)
  · exact advances_of_eq (does.trans (read_of_open (by exact unread) (by exact open_))) (.resumes pending open_)

theorem advances_killed (flows : Flows proxy conn) {input : RelayInput}
    (kills : input = .tcpEnd ∨ input = .tcpError) (ready : conn.ready) (here : conn.tcpClosing = false) :
    Advances proxy conn input := by
  have alive : conn.killed = false := by simpa [here] using flows.killed_iff ready
  have does : handle proxy input conn = kill conn := by
    rcases kills with rfl | rfl <;> rfl
  exact advances_of_eq (does.trans (kill_eq alive ready flows.closed_of_closing))
    (.ends input ready alive (by rcases kills with rfl | rfl <;> simp))

theorem advances_recv {bytes : Bytes} (here : conn.closed = false) (fits : conn.recvBuf.length ≤ uvlTcpRecvBufLen) :
    Advances proxy conn (.recv bytes) := by
  by_cases full : bytes.length > uvlTcpRecvBufLen - conn.recvBuf.length
  · refine advances_of_eq ?_ (.refuses bytes here)
    change uvlClientRecvFunc bytes conn = _
    rw [uvlClientRecvFunc, Proc.read_bind, if_pos full]
    rfl
  · refine advances_of_eq ?_ (.accepts bytes here ?_)
    · change uvlClientRecvFunc bytes conn = _
      rw [uvlClientRecvFunc, Proc.read_bind, if_neg full]
      rfl
    · rw [List.length_append]
      omega

theorem Flows.open_of_unclosed (flows : Flows proxy conn) (here : conn.closed = false) : conn.closing = false := by
  by_contra closing
  have closed := flows.closed_of_closing (by simpa using closing)
  simp [here] at closed

/-- Where nothing reads, `uvl_cancel_reqs` only drops the requests. -/
theorem uvlCancelReqs_eq (unread : conn.readCb = false) :
    uvlCancelReqs conn = ⟨(), { conn with writes := [] }, []⟩ := by
  change (if conn.readCb then _ else pure () : Relay Unit) { conn with writes := [] } = _
  rw [if_neg (by simp [unread])]
  rfl

theorem advances_fin (flows : Flows proxy conn) (here : conn.closed = false) : Advances proxy conn .fin := by
  have fresh := flows.open_of_unclosed here
  rcases Bool.eq_false_or_eq_true conn.readCb with reads | unread
  · have ready := flows.ready_of_readCb reads
    have told : readCallbackEnd { conn with closed := true } = ⟨(), conn.ended, conn.closings⟩ :=
      readCallbackEnd_eq (by exact flows.alive fresh) (by exact ready) (by exact fresh)
    have does : handle proxy .fin conn = ⟨(), conn.ended, conn.closings⟩ := by
      change (if conn.readCb then _ else _ : Relay Unit) { conn with closed := true } = _
      rw [if_pos reads]
      ext1
      · rfl
      · rw [Proc.bind_state, told]
        rfl
      · rw [Proc.bind_events, told]
        exact List.append_nil _
    exact advances_of_eq does (.ends .fin ready (flows.alive fresh) (.inr (.inr rfl)))
  · refine advances_of_eq ?_ (.closes here unread)
    change (if conn.readCb then _ else _ : Relay Unit) { conn with closed := true } = _
    rw [if_neg (by simp [unread])]
    rfl

theorem advances_asyncRead (flows : Flows proxy conn) : Advances proxy conn .asyncRead := by
  by_cases hands : conn.readCb ∧ conn.recvBuf ≠ []
  · have ready := flows.ready_of_readCb hands.1
    have none := flows.tcpWrites_of_readCb hands.1
    refine advances_of_eq ?_ (.hands hands.1 hands.2)
    change (if conn.readCb ∧ conn.recvBuf ≠ [] then _ else _ : Relay Unit) { conn with readReq := false } = _
    rw [if_pos hands]
    change (if conn.ready then _ else _ : Relay Unit) { conn with readReq := false, recvBuf := [], readCb := false } = _
    rw [if_pos ready, ← List.nil_append [conn.recvBuf], ← none]
    rfl
  · refine advances_of_eq ?_ (.wakes ?_)
    · change (if conn.readCb ∧ conn.recvBuf ≠ [] then _ else _ : Relay Unit) { conn with readReq := false } = _
      rw [if_neg hands]
      rfl
    · by_cases reads : conn.readCb = true
      · exact .inr (by simpa [reads] using hands)
      · exact .inl (by simpa using reads)

theorem completeWrites_nil (none : conn.writes = []) (count : Nat) : completeWrites count conn = ⟨(), conn, []⟩ := by
  cases count with
  | zero => rfl
  | succ count =>
      rw [completeWrites, Proc.read_bind, none]
      rfl

/-- The one request there is is completed, or none. -/
theorem completeWrites_cases (flows : Flows proxy conn) (fresh : conn.closing = false) (count : Nat) :
    completeWrites count conn = ⟨(), conn, []⟩ ∨
      (conn.writes ≠ [] ∧ completeWrites count conn = ⟨(), { conn with writes := [], reading := true }, []⟩) := by
  cases count with
  | zero => exact .inl rfl
  | succ count =>
      by_cases none : conn.writes = []
      · exact .inl (completeWrites_nil none (count + 1))
      · refine .inr ⟨none, ?_⟩
        obtain ⟨first, rest, pending⟩ := List.exists_cons_of_ne_nil none
        have last : rest = [] := by
          simpa [pending] using flows.one_write
        have ready := flows.ready_of_writes none
        have resumes : tcpRead { conn with writes := [] } = ⟨(), { conn with writes := [], reading := true }, []⟩ :=
          tcpRead_eq (by exact ready) (by exact flows.open_of_alive ready (flows.alive fresh))
            (by exact flows.unread_of_writes none)
        rw [completeWrites, Proc.read_bind, pending, last]
        calc _ = (tcpRead >>= fun _ => completeWrites count) { conn with writes := [] } := rfl
          _ = completeWrites count { conn with writes := [], reading := true } := Proc.bind_of_quiet _ resumes _
          _ = _ := completeWrites_nil rfl count

theorem uvlAsyncTcpWriteCb_open {next : TcpConnection} {count : Nat}
    (completes : completeWrites count conn = ⟨(), next, []⟩) (here : next.closed = false) :
    uvlAsyncTcpWriteCb count conn = ⟨(), next, []⟩ := by
  refine (Proc.bind_of_quiet _ completes _).trans ?_
  rw [Proc.read_bind, if_neg (by simp [here])]
  rfl

theorem uvlAsyncTcpWriteCb_closed {next : TcpConnection} {count : Nat}
    (completes : completeWrites count conn = ⟨(), next, []⟩) (closed : next.closed) (unread : next.readCb = false) :
    uvlAsyncTcpWriteCb count conn = ⟨(), { next with writes := [] }, []⟩ := by
  refine (Proc.bind_of_quiet _ completes _).trans ?_
  rw [Proc.read_bind, if_pos closed, uvlCancelReqs_eq unread]

theorem advances_asyncWrite (flows : Flows proxy conn) {count : Nat} (fresh : conn.closing = false) :
    Advances proxy conn (.asyncWrite count) := by
  rcases completeWrites_cases flows fresh count with nothing | ⟨pending, completes⟩
  · rcases Bool.eq_false_or_eq_true conn.closed with closed | open_
    · exact advances_of_eq (uvlAsyncTcpWriteCb_closed nothing closed (flows.unread_of_closed closed))
        (.cancels count closed fresh)
    · exact advances_of_eq (uvlAsyncTcpWriteCb_open nothing open_) (.pends count open_)
  · refine advances_of_eq ?_ (.completes count pending fresh)
    rcases Bool.eq_false_or_eq_true conn.closed with closed | open_
    · exact uvlAsyncTcpWriteCb_closed completes closed (flows.unread_of_closed closed)
    · exact uvlAsyncTcpWriteCb_open completes open_

theorem advances_release : Advances proxy conn .release := by
  rcases Bool.eq_false_or_eq_true conn.closing with closing | fresh
  · exact advances_of_eq (close_of_closing closing) (.notes closing)
  · exact advances_of_eq (close_eq fresh) (.released fresh)

theorem advances_handlesClosed (flows : Flows proxy conn) (closing : conn.closing) :
    Advances proxy conn .handlesClosed := by
  have does {next : TcpConnection} {events : List RelayEvent} (killing : kill conn = ⟨(), next, events⟩) :
      handle proxy .handlesClosed conn = ⟨(), { next with gone := true }, events⟩ := by
    change (kill >>= fun _ => _) conn = _
    ext1
    · rfl
    · rw [Proc.bind_state, killing]
      rfl
    · rw [Proc.bind_events, killing]
      exact List.append_nil _
  rcases Bool.eq_false_or_eq_true conn.killed with killed | alive
  · exact advances_of_eq (does (kill_of_killed killed)) (.frees closing killed)
  · rcases Bool.eq_false_or_eq_true conn.ready with ready | unready
    · exact advances_of_eq (does (kill_eq alive ready flows.closed_of_closing)) (.freesReady closing alive ready)
    · exact advances_of_eq (does (kill_unready alive unready)) (.faults closing alive unready)

/-- Every callback, at the moment it may be made. -/
theorem Flows.advances (flows : Flows proxy conn) {input : RelayInput} (arrives : input.arrives conn) :
    Advances proxy conn input := by
  cases input with
  | connected =>
      obtain ⟨connecting, here⟩ : conn.connecting ∧ conn.tcpClosing = false := by
        simpa [RelayInput.arrives] using arrives
      exact advances_connected flows connecting here
  | connectFails =>
      obtain ⟨connecting, here⟩ : conn.connecting ∧ conn.tcpClosing = false := by
        simpa [RelayInput.arrives] using arrives
      exact advances_connectFails flows connecting here
  | answerRefused =>
      obtain ⟨⟨connecting, unready⟩, here⟩ : (conn.connecting ∧ conn.ready = false) ∧ conn.tcpClosing = false := by
        simpa [RelayInput.arrives] using arrives
      exact .refusesAnswer connecting unready here
  | tcpData bytes =>
      obtain ⟨⟨reads, here⟩, -⟩ : (conn.reading ∧ conn.tcpClosing = false) ∧ bytes ≠ [] := by
        simpa [RelayInput.arrives] using arrives
      exact advances_tcpData flows reads here
  | tcpWritten =>
      obtain ⟨pending, -⟩ : conn.tcpWrites ≠ [] ∧ conn.tcpClosing = false := by
        simpa [RelayInput.arrives] using arrives
      exact advances_tcpWritten flows pending
  | tcpEnd =>
      obtain ⟨reads, here⟩ : conn.reading ∧ conn.tcpClosing = false := by
        simpa [RelayInput.arrives] using arrives
      exact advances_killed flows (.inl rfl) (flows.ready_of_reading reads) here
  | tcpError =>
      obtain ⟨⟨ready, -⟩, here⟩ : (conn.ready ∧ conn.connecting = false) ∧ conn.tcpClosing = false := by
        simpa [RelayInput.arrives] using arrives
      exact advances_killed flows (.inr rfl) ready here
  | recv bytes =>
      obtain ⟨here, -⟩ : conn.closed = false ∧ bytes ≠ [] := by
        simpa [RelayInput.arrives] using arrives
      exact advances_recv here flows.fits
  | fin => exact advances_fin flows (by simpa [RelayInput.arrives] using arrives)
  | asyncRead => exact advances_asyncRead flows
  | asyncWrite count => exact advances_asyncWrite flows (by simpa [RelayInput.arrives] using arrives)
  | release => exact advances_release
  | handlesClosed => exact advances_handlesClosed flows arrives

end Steps

end SwitchLanPlay.UvLwip.TcpRelay
