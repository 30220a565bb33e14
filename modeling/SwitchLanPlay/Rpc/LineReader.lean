import SwitchLanPlay.Library.Lines
import SwitchLanPlay.Rpc.Connection

/-!
# The line reader

`ReadLine` (`read-line.hpp`) on a stream that arrives in pieces.  However the stream is
cut, the callback gets its terminated lines one after the other, and what follows the
last of them stays in the buffer.
-/

namespace SwitchLanPlay.Rpc

open Library

theorem stripCr_concat (line : Bytes) : stripCr (line ++ [carriageReturn]) = line := by
  simp [stripCr]

section Feed

variable {τ ε : Type} (callback : Bytes → Proc τ ε Unit)

/-- `ReadLine::feed` -/
def feed (buffer data : Bytes) : Proc τ ε Bytes := feedLoop callback (buffer ++ data)

/-- One call after the other; the value is what the buffer holds at the end. -/
def feedAll : Bytes → List Bytes → Proc τ ε Bytes
  | buffer, [] => pure buffer
  | buffer, data :: rest => do
      let buffer ← feed callback buffer data
      feedAll buffer rest

/-- The callback is invoked for each of the lines, and the tail is left. -/
def ReadsLines (reader : Proc τ ε Bytes) (lines : List Bytes) (tail : Bytes) : Prop :=
  ∀ s, reader s = ⟨tail, (Proc.runAll callback lines s).state, (Proc.runAll callback lines s).events⟩

/-- The loop on a buffer that is cut into lines. -/
theorem feedLoop_reads {buffer tail : Bytes} {lines : List Bytes} (cut : CutInto lineFeed buffer lines tail) :
    ReadsLines callback (feedLoop callback buffer) (lines.map stripCr) tail := by
  obtain ⟨rfl, whole, tailWhole⟩ := cut
  induction lines with
  | nil =>
      intro s
      rw [terminated_nil, List.nil_append, feedLoop_none callback (findIdx?_of_free tailWhole)]
      rfl
  | cons line rest ih =>
      intro s
      obtain ⟨first, others⟩ := List.forall_mem_cons.mp whole
      rw [terminated_cons, List.append_assoc, List.cons_append, feedLoop_some callback (findIdx?_separator first _),
        List.take_left, List.drop_length_add_append, List.drop_succ_cons, List.drop_zero]
      have later := ih others (callback (stripCr line) s).state
      ext1
      · rw [Proc.bind_value, later]
      · rw [Proc.bind_state, later, List.map_cons, Proc.runAll_cons_state]
      · rw [Proc.bind_events, later, List.map_cons, Proc.runAll_cons_events]

/-- Calls that leave nothing of a line behind but its beginning. -/
theorem feedAll_reads (chunks : List Bytes) {buffer : Bytes} (unfinished : lineFeed ∉ buffer) :
    ∃ lines tail, CutInto lineFeed (buffer ++ chunks.flatten) lines tail ∧
      ReadsLines callback (feedAll callback buffer chunks) (lines.map stripCr) tail := by
  induction chunks generalizing buffer with
  | nil =>
      refine ⟨[], buffer, ?_, fun s => rfl⟩
      rw [List.flatten_nil, List.append_nil]
      exact .of_free unfinished
  | cons data rest ih =>
      -- the tail of the first call is the buffer of the next one
      obtain ⟨lines, tail, cut⟩ := CutInto.total lineFeed (buffer ++ data)
      obtain ⟨others, last, later, reads⟩ := ih cut.tail_free
      refine ⟨lines ++ others, last, ?_, fun s => ?_⟩
      · rw [List.flatten_cons, ← List.append_assoc]
        exact cut.append later
      · have now := feedLoop_reads callback cut s
        have after := reads (Proc.runAll callback (lines.map stripCr) s).state
        rw [feedAll, List.map_append]
        ext1
        · rw [Proc.bind_value, feed, now, after]
        · rw [Proc.bind_state, feed, now, after, Proc.runAll_append_state]
        · rw [Proc.bind_events, feed, now, after, Proc.runAll_append_events]

/-- However a stream is split into calls of `feed`, the callback gets its terminated lines
in order, each without one `\r` at its end, and the tail is retained. -/
theorem feedAll_chunking (stream : Bytes) :
    ∃ lines tail, CutInto lineFeed stream lines tail ∧
      ∀ chunks : List Bytes, chunks.flatten = stream →
        ReadsLines callback (feedAll callback [] chunks) (lines.map stripCr) tail := by
  obtain ⟨lines, tail, cut⟩ := CutInto.total lineFeed stream
  refine ⟨lines, tail, cut, fun chunks split => ?_⟩
  obtain ⟨lines', tail', cut', reads⟩ := feedAll_reads callback chunks (List.not_mem_nil (a := lineFeed))
  rw [List.nil_append, split] at cut'
  obtain ⟨rfl, rfl⟩ := cut.unique cut'
  exact reads

/-- A callback that does not look at a part of the state leaves the reader blind for it too. -/
theorem ignores_feedLoop {change : τ → τ} (each : ∀ line, Proc.Ignores change (callback line)) (buffer : Bytes) :
    Proc.Ignores change (feedLoop callback buffer) := by
  induction buffer using feedLoop.induct with
  | case1 buffer noLine =>
      rw [feedLoop_none callback noLine]
      exact Proc.ignores_pure buffer
  | case2 buffer index found ih =>
      rw [feedLoop_some callback found]
      exact (each _).bind fun _ => ih

end Feed

/-! ## The reader of a TCP connection -/

section Connection

variable {σ : Type} (env : RpcEnv σ)

/-- Something else is in the line reader. -/
def TCPConnection.reading (rl : Bytes) (conn : TCPConnection σ) : TCPConnection σ := { conn with rl }

theorem ignores_tcpLine (rl line : Bytes) : Proc.Ignores (TCPConnection.reading rl) (tcpLine env line) := by
  refine (Proc.ignores_emit _).bind fun _ => Proc.ignores_read_bind (fun _ => rfl) fun conn => ?_
  refine Proc.Ignores.bind ?_ fun _ => Proc.ignores_ite (Proc.ignores_emit _) (Proc.ignores_pure ())
  refine Proc.ignores_ite (Proc.ignores_zoom (fun _ => rfl) fun _ _ => rfl) (Proc.ignores_ite ?_ (Proc.ignores_pure _))
  refine Proc.Ignores.bind (Proc.ignores_update ?_) fun _ => Proc.ignores_pure _
  exact fun _ => rfl

/-- The connection's reader is a `ReadLine`: its buffer is what `feed` leaves. -/
theorem tcpOnData_reading (buffer data : Bytes) (conn : TCPConnection σ) :
    let done := feed (tcpLine env) buffer data conn
    tcpOnData env data (conn.reading buffer) = ⟨(), done.state.reading done.value, done.events⟩ := by
  have blind := ignores_feedLoop (tcpLine env) (ignores_tcpLine env buffer) (buffer ++ data) conn
  rw [tcpOnData, Proc.read_bind]
  change (feedLoop (tcpLine env) (buffer ++ data) >>= _) (conn.reading buffer) = _
  ext1
  · rfl
  · rw [Proc.bind_state, Proc.update_state, blind]
    rfl
  · rw [Proc.bind_events, Proc.update_events, List.append_nil, blind]
    rfl

theorem runAll_tcpOnData (chunks : List Bytes) (buffer : Bytes) (conn : TCPConnection σ) :
    let done := feedAll (tcpLine env) buffer chunks conn
    Proc.runAll (tcpOnData env) chunks (conn.reading buffer) =
      ⟨(), done.state.reading done.value, done.events⟩ := by
  induction chunks generalizing buffer conn with
  | nil => rfl
  | cons data rest ih =>
      ext1
      · rfl
      · rw [Proc.runAll_cons_state, tcpOnData_reading, ih]
        rfl
      · rw [Proc.runAll_cons_events, tcpOnData_reading, ih]
        rfl

/-- A client's lines are answered one after the other, wherever the network cuts them. -/
theorem tcpOnData_chunking (server : σ) (chunks : List Bytes) :
    ∃ lines tail, CutInto lineFeed chunks.flatten lines tail ∧
      let answered := Proc.runAll (tcpLine env) (lines.map stripCr) (TCPConnection.start server)
      Proc.runAll (tcpOnData env) chunks (.start server) = ⟨(), answered.state.reading tail, answered.events⟩ := by
  obtain ⟨lines, tail, cut, reads⟩ := feedAll_reads (tcpLine env) chunks (List.not_mem_nil (a := lineFeed))
  refine ⟨lines, tail, cut, ?_⟩
  have run := runAll_tcpOnData env chunks [] (TCPConnection.start server)
  rw [reads] at run
  exact run

end Connection

end SwitchLanPlay.Rpc
