import SwitchLanPlay.Library.Bytes
import SwitchLanPlay.Library.Proc
import SwitchLanPlay.Library.Traces

/-!
# The reading side of a connection

`uvl_client_recv_func`, the coalesced read callback, and `uvl_read_start` and
`uvl_read_stop` of `uv_lwip.c`.  Data waits in `recv_buf` for the deferred
callback, but the end of the stream is reported at once.

`uv_async_send` succeeds, and its callback runs at some later time; several
calls may lead to one execution.
-/

namespace SwitchLanPlay.UvLwip

open Library

/-! ## Model -/

/-- `UVL_TCP_RECV_BUF_LEN` is `TCP_WND`: four segments of `TCP_MSS` bytes. -/
abbrev uvlTcpRecvBufLen : Nat := 4 * 512

abbrev errOk : Int := 0
abbrev errMem : Int := -1
abbrev errAbrt : Int := -13

/-- What `read_cb` is called with. -/
inductive ReadResult where
  | data (bytes : Bytes)
  /-- `UV_ENOBUFS` -/
  | enobufs
  /-- `UV_EOF` -/
  | eof
  deriving DecidableEq

inductive ReadEvent where
  /-- `uvl_client_recv_func` returns `ERR_OK` for these bytes. -/
  | accepted (bytes : Bytes)
  /-- `uvl_client_recv_func` returns `ERR_MEM`. -/
  | refused (bytes : Bytes)
  /-- `uvl_client_recv_func` is called without a buffer. -/
  | fin
  | tcpRecved (count : Nat)
  | readCb (reader : Nat) (result : ReadResult)
  deriving DecidableEq

/-- The fields of `struct uvl_tcp` that reading works on.  `recvBuf` is the used
part of `recv_buf`; `recvSet` says that the callback given to `tcp_recv` is
still in place, `readReq` that the read callback is to run. -/
structure UvlReading where
  recvBuf : Bytes
  recvFits : recvBuf.length ≤ uvlTcpRecvBufLen
  readCb : Option Nat
  closed : Bool
  pcb : Bool
  recvSet : Bool
  readReq : Bool

/-- The connection after `uvl_tcp_init` and `uvl_accept`. -/
def UvlReading.start : UvlReading where
  recvBuf := []
  recvFits := Nat.zero_le _
  readCb := none
  closed := false
  pcb := true
  recvSet := true
  readReq := false

def uvlClientFreed : Proc UvlReading ReadEvent Unit := do
  Proc.update fun client => { client with pcb := false, closed := true }
  let client ← Proc.read
  match client.readCb with
  | some reader => do
      Proc.emit (.readCb reader .eof)
      Proc.update fun client => { client with readCb := none }
  | none => pure ()

/-- `uvl_client_abort`; the callbacks are already removed. -/
def uvlClientAbort : Proc UvlReading ReadEvent Int := do
  uvlClientFreed
  pure errAbrt

/-- `uvl_client_close_func`, with what `tcp_close` returns. -/
def uvlClientCloseFunc (closeErr : Int) : Proc UvlReading ReadEvent Int := do
  Proc.update fun client => { client with recvSet := false }
  if closeErr = errOk then do
    uvlClientFreed
    pure closeErr
  else
    uvlClientAbort

theorem UvlReading.append_fits (client : UvlReading) {bytes : Bytes}
    (fits : ¬ bytes.length > uvlTcpRecvBufLen - client.recvBuf.length) :
    (client.recvBuf ++ bytes).length ≤ uvlTcpRecvBufLen := by
  have bound := client.recvFits
  rw [List.length_append]
  omega

/-- `uvl_client_recv_func`; without a buffer the peer has closed its side. -/
def uvlClientRecvFunc (buffer : Option Bytes) (closeErr : Int) : Proc UvlReading ReadEvent Int := do
  match buffer with
  | none => do
      Proc.emit .fin
      uvlClientCloseFunc closeErr
  | some bytes => do
      let client ← Proc.read
      if fits : bytes.length > uvlTcpRecvBufLen - client.recvBuf.length then do
        Proc.emit (.refused bytes)
        pure errMem
      else do
        Proc.update fun client' =>
          { client' with
            recvBuf := client.recvBuf ++ bytes
            recvFits := client.append_fits fits
            readReq := true }
        Proc.emit (.accepted bytes)
        pure errOk

/-- `b.base == NULL || b.len < recv_used` -/
def tooSmall (alloc : Option Nat) (recvUsed : Nat) : Bool := alloc.all fun room => room < recvUsed

/-- `uvl_async_tcp_read_cb`, with the length of the buffer that `alloc_cb`
provides, if it provides one. -/
def uvlAsyncTcpReadCb (alloc : Option Nat) : Proc UvlReading ReadEvent Unit := do
  let client ← Proc.read
  match client.readCb with
  | none => pure ()
  | some reader =>
      if client.recvBuf.length > 0 then
        if tooSmall alloc client.recvBuf.length then
          Proc.emit (.readCb reader .enobufs)
        else do
          Proc.emit (.tcpRecved client.recvBuf.length)
          Proc.update fun client => { client with recvBuf := [], recvFits := Nat.zero_le _ }
          Proc.emit (.readCb reader (.data client.recvBuf))
      else
        pure ()

/-- `uvl_read_start`: true when it returns zero. -/
def uvlReadStart (reader : Nat) : Proc UvlReading ReadEvent Bool := do
  let client ← Proc.read
  if client.readCb.isSome then
    pure false
  else if client.closed then do
    Proc.emit (.readCb reader .eof)
    pure true
  else do
    Proc.update fun client => { client with readCb := some reader, readReq := true }
    pure true

def uvlReadStop : Proc UvlReading ReadEvent Unit :=
  Proc.update fun client => { client with readCb := none }

/-- What happens on a connection, as far as reading is concerned. -/
inductive ReadInput where
  | recv (bytes : Bytes)
  | fin (closeErr : Int)
  | asyncRead (alloc : Option Nat)
  | readStart (reader : Nat)
  | readStop
  deriving DecidableEq

/-- lwIP calls back while the callback is in place, libuv after `uv_async_send`. -/
def readStep : ReadInput → Proc UvlReading ReadEvent Unit
  | .recv bytes => do
      let client ← Proc.read
      if client.recvSet then do
        let _ ← uvlClientRecvFunc (some bytes) errOk
        pure ()
      else
        pure ()
  | .fin closeErr => do
      let client ← Proc.read
      if client.recvSet then do
        let _ ← uvlClientRecvFunc none closeErr
        pure ()
      else
        pure ()
  | .asyncRead alloc => do
      let client ← Proc.read
      if client.readReq then do
        Proc.update fun client => { client with readReq := false }
        uvlAsyncTcpReadCb alloc
      else
        pure ()
  | .readStart reader => do
      let _ ← uvlReadStart reader
      pure ()
  | .readStop => uvlReadStop

/-! ## What one step can do -/

/-- A closed connection has neither a reader nor a callback at lwIP. -/
structure UvlReading.Coherent (s : UvlReading) : Prop where
  hooked : s.recvSet = !s.closed
  silent : s.closed = true → s.readCb = none

/-- The next state and the events of a step that leads from `s`. -/
inductive ReadAdvance (s : UvlReading) : ReadInput → UvlReading → List ReadEvent → Prop where
  /-- Nothing is handed over, and the bytes stay. -/
  | idle (input : ReadInput) (after : UvlReading) (events : List ReadEvent)
      (notEnd : s.closed = false → ∀ closeErr, input ≠ .fin closeErr)
      (buffer : after.recvBuf = s.recvBuf) (closed : after.closed = s.closed)
      (quiet : ∀ event ∈ events, (∃ bytes, event = .refused bytes) ∨
        ∃ reader, event = .readCb reader .enobufs) :
      ReadAdvance s input after events
  | accepts (bytes : Bytes) (after : UvlReading) (isOpen : s.closed = false)
      (buffer : after.recvBuf = s.recvBuf ++ bytes) (closed : after.closed = false) :
      ReadAdvance s (.recv bytes) after [.accepted bytes]
  | hands (alloc : Option Nat) (after : UvlReading) (reader : Nat) (isOpen : s.closed = false)
      (buffer : after.recvBuf = []) (closed : after.closed = false) :
      ReadAdvance s (.asyncRead alloc) after
        [.tcpRecved s.recvBuf.length, .readCb reader (.data s.recvBuf)]
  /-- The peer closes; a reader is told at once. -/
  | finishes (closeErr : Int) (after : UvlReading) (told : List ReadEvent)
      (isOpen : s.closed = false) (buffer : after.recvBuf = s.recvBuf)
      (closed : after.closed = true) (eof : ∀ event ∈ told, ∃ reader, event = .readCb reader .eof) :
      ReadAdvance s (.fin closeErr) after (.fin :: told)
  /-- A reader comes after the end. -/
  | late (reader : Nat) (isClosed : s.closed = true) :
      ReadAdvance s (.readStart reader) s [.readCb reader .eof]

/-- A step that is one of the advances, and leaves the connection coherent. -/
def Advances (s : UvlReading) (input : ReadInput) : Prop :=
  ReadAdvance s input (readStep input s).state (readStep input s).events ∧
    (readStep input s).state.Coherent

section Step

variable {s : UvlReading} (coherent : s.Coherent)

include coherent

theorem UvlReading.Coherent.open_of_recvSet (hooked : s.recvSet = true) : s.closed = false := by
  have same := coherent.hooked
  rw [hooked] at same
  simpa using same.symm

theorem recv_advance (bytes : Bytes) : Advances s (.recv bytes) := by
  by_cases hooked : s.recvSet = true
  · have isOpen := coherent.open_of_recvSet hooked
    by_cases full : bytes.length > uvlTcpRecvBufLen - s.recvBuf.length
    · have outcome : readStep (.recv bytes) s = ⟨(), s, [.refused bytes]⟩ := by
        apply Outcome.ext <;> simp [readStep, hooked, uvlClientRecvFunc, full]
      rw [Advances, outcome]
      exact ⟨.idle _ _ _ (by simp) rfl rfl (by simp), coherent⟩
    · have events : (readStep (.recv bytes) s).events = [.accepted bytes] := by
        simp [readStep, hooked, uvlClientRecvFunc, full]
      have fields : (readStep (.recv bytes) s).state.recvBuf = s.recvBuf ++ bytes ∧
          (readStep (.recv bytes) s).state.closed = s.closed ∧
            (readStep (.recv bytes) s).state.recvSet = s.recvSet ∧
              (readStep (.recv bytes) s).state.readCb = s.readCb := by
        simp [readStep, hooked, uvlClientRecvFunc, full]
      obtain ⟨buffer, closed, stillHooked, reader⟩ := fields
      refine ⟨?_, ⟨by rw [stillHooked, closed, coherent.hooked], fun shut => ?_⟩⟩
      · rw [events]
        exact .accepts bytes _ isOpen buffer (closed.trans isOpen)
      · rw [reader]
        exact coherent.silent (closed.symm.trans shut)
  · have outcome : readStep (.recv bytes) s = ⟨(), s, []⟩ := by
      apply Outcome.ext <;> simp [readStep, hooked]
    rw [Advances, outcome]
    exact ⟨.idle _ _ _ (by simp) rfl rfl (by simp), coherent⟩

theorem fin_advance (closeErr : Int) : Advances s (.fin closeErr) := by
  by_cases hooked : s.recvSet = true
  · have isOpen := coherent.open_of_recvSet hooked
    have freed : ∀ client : UvlReading,
        uvlClientFreed client =
          ⟨(), { client with pcb := false, closed := true, readCb := none },
            client.readCb.toList.map fun reader => .readCb reader .eof⟩ := by
      intro client
      cases reader : client.readCb <;> apply Outcome.ext <;> simp [uvlClientFreed, reader]
    have outcome : readStep (.fin closeErr) s =
        ⟨(), { s with recvSet := false, pcb := false, closed := true, readCb := none },
          .fin :: s.readCb.toList.map fun reader => .readCb reader .eof⟩ := by
      by_cases failed : closeErr = errOk <;> apply Outcome.ext <;>
        simp [readStep, hooked, uvlClientRecvFunc, uvlClientCloseFunc, uvlClientAbort, failed, freed]
    rw [Advances, outcome]
    refine ⟨.finishes closeErr _ _ isOpen rfl rfl ?_, ⟨rfl, fun _ => rfl⟩⟩
    intro event member
    obtain ⟨reader, -, rfl⟩ := List.mem_map.mp member
    exact ⟨reader, rfl⟩
  · have outcome : readStep (.fin closeErr) s = ⟨(), s, []⟩ := by
      apply Outcome.ext <;> simp [readStep, hooked]
    have isClosed : s.closed = true := by
      have same := coherent.hooked
      simpa [hooked] using same
    rw [Advances, outcome]
    exact ⟨.idle _ _ _ (by simp [isClosed]) rfl rfl (by simp), coherent⟩

theorem asyncRead_advance (alloc : Option Nat) : Advances s (.asyncRead alloc) := by
  by_cases woken : s.readReq = true
  · cases reading : s.readCb with
    | none =>
        have outcome : readStep (.asyncRead alloc) s = ⟨(), { s with readReq := false }, []⟩ := by
          apply Outcome.ext <;> simp [readStep, woken, uvlAsyncTcpReadCb, reading]
        rw [Advances, outcome]
        exact ⟨.idle _ _ _ (by simp) rfl rfl (by simp), ⟨coherent.hooked, coherent.silent⟩⟩
    | some reader =>
        have isOpen : s.closed = false := by
          by_contra isClosed
          have silent := coherent.silent (by simpa using isClosed)
          simp [reading] at silent
        by_cases waiting : s.recvBuf.length > 0
        · by_cases small : tooSmall alloc s.recvBuf.length = true
          · have outcome : readStep (.asyncRead alloc) s =
                ⟨(), { s with readReq := false }, [.readCb reader .enobufs]⟩ := by
              apply Outcome.ext <;> simp [readStep, woken, uvlAsyncTcpReadCb, reading, waiting, small]
            rw [Advances, outcome]
            exact ⟨.idle _ _ _ (by simp) rfl rfl (by simp), ⟨coherent.hooked, coherent.silent⟩⟩
          · have outcome : readStep (.asyncRead alloc) s =
                ⟨(), { s with recvBuf := [], recvFits := Nat.zero_le _, readReq := false },
                  [.tcpRecved s.recvBuf.length, .readCb reader (.data s.recvBuf)]⟩ := by
              apply Outcome.ext <;> simp [readStep, woken, uvlAsyncTcpReadCb, reading, waiting, small]
            rw [Advances, outcome]
            exact ⟨.hands alloc _ reader isOpen rfl isOpen, ⟨coherent.hooked, coherent.silent⟩⟩
        · have outcome : readStep (.asyncRead alloc) s = ⟨(), { s with readReq := false }, []⟩ := by
            apply Outcome.ext <;> simp [readStep, woken, uvlAsyncTcpReadCb, reading, waiting]
          rw [Advances, outcome]
          exact ⟨.idle _ _ _ (by simp) rfl rfl (by simp), ⟨coherent.hooked, coherent.silent⟩⟩
  · have outcome : readStep (.asyncRead alloc) s = ⟨(), s, []⟩ := by
      apply Outcome.ext <;> simp [readStep, woken]
    rw [Advances, outcome]
    exact ⟨.idle _ _ _ (by simp) rfl rfl (by simp), coherent⟩

theorem readStart_advance (reader : Nat) : Advances s (.readStart reader) := by
  by_cases busy : s.readCb.isSome = true
  · have outcome : readStep (.readStart reader) s = ⟨(), s, []⟩ := by
      apply Outcome.ext <;> simp [readStep, uvlReadStart, busy]
    rw [Advances, outcome]
    exact ⟨.idle _ _ _ (by simp) rfl rfl (by simp), coherent⟩
  · by_cases isClosed : s.closed = true
    · have outcome : readStep (.readStart reader) s = ⟨(), s, [.readCb reader .eof]⟩ := by
        apply Outcome.ext <;> simp [readStep, uvlReadStart, busy, isClosed]
      rw [Advances, outcome]
      exact ⟨.late reader isClosed, coherent⟩
    · have outcome : readStep (.readStart reader) s =
          ⟨(), { s with readCb := some reader, readReq := true }, []⟩ := by
        apply Outcome.ext <;> simp [readStep, uvlReadStart, busy, isClosed]
      rw [Advances, outcome]
      exact ⟨.idle _ _ _ (by simp) rfl rfl (by simp), ⟨coherent.hooked, fun shut => absurd shut isClosed⟩⟩

/-- Every step is one of the advances. -/
theorem readStep_advance (input : ReadInput) : Advances s input := by
  cases input with
  | recv bytes => exact recv_advance coherent bytes
  | fin closeErr => exact fin_advance coherent closeErr
  | asyncRead alloc => exact asyncRead_advance coherent alloc
  | readStart reader => exact readStart_advance coherent reader
  | readStop => exact ⟨.idle _ _ _ (by simp) rfl rfl (by simp [readStep, uvlReadStop]),
      ⟨coherent.hooked, fun _ => rfl⟩⟩

end Step

/-! ## The stream of a run -/

def ReadEvent.isFin : ReadEvent → Bool
  | .fin => true
  | _ => false

def ReadEvent.isEof : ReadEvent → Bool
  | .readCb _ .eof => true
  | _ => false

def ReadEvent.acceptedBytes : ReadEvent → Bytes
  | .accepted bytes => bytes
  | _ => []

def ReadEvent.handedBytes : ReadEvent → Bytes
  | .readCb _ (.data bytes) => bytes
  | _ => []

/-- The bytes that `uvl_client_recv_func` accepted before the peer closed. -/
def acceptedBeforeFin (events : List ReadEvent) : Bytes :=
  collectUntil ReadEvent.isFin ReadEvent.acceptedBytes events

/-- The bytes that the reader got before its first `UV_EOF`. -/
def handedBeforeEof (events : List ReadEvent) : Bytes :=
  collectUntil ReadEvent.isEof ReadEvent.handedBytes events

/-- What was accepted is what was handed over, and what still waits. -/
structure ReadInvariant (s : UvlReading) (events : List ReadEvent) : Prop where
  coherent : s.Coherent
  stream : acceptedBeforeFin events = handedBeforeEof events ++ s.recvBuf
  noFin : s.closed = false → ∀ event ∈ events, event.isFin = false
  noEof : s.closed = false → ∀ event ∈ events, event.isEof = false

namespace ReadInvariant

variable {s after : UvlReading} {events new : List ReadEvent}

/-- Events that carry no bytes. -/
theorem extend_silent (holds : ReadInvariant s events) (coherent : after.Coherent)
    (buffer : after.recvBuf = s.recvBuf)
    (silent : ∀ event ∈ new, event.acceptedBytes = [] ∧ event.handedBytes = [])
    (running : after.closed = false →
      s.closed = false ∧ ∀ event ∈ new, event.isFin = false ∧ event.isEof = false) :
    ReadInvariant after (events ++ new) where
  coherent := coherent
  stream := by
    unfold acceptedBeforeFin handedBeforeEof
    rw [collectUntil_append_of_silent fun event member => (silent event member).1,
      collectUntil_append_of_silent fun event member => (silent event member).2, buffer]
    exact holds.stream
  noFin := fun isOpen => List.forall_mem_append.mpr
    ⟨holds.noFin (running isOpen).1, fun event member => ((running isOpen).2 event member).1⟩
  noEof := fun isOpen => List.forall_mem_append.mpr
    ⟨holds.noEof (running isOpen).1, fun event member => ((running isOpen).2 event member).2⟩

theorem extend (holds : ReadInvariant s events) {input : ReadInput}
    (step : ReadAdvance s input after new) (coherent : after.Coherent) :
    ReadInvariant after (events ++ new) := by
  cases step with
  | idle _ _ _ notEnd buffer closed quiet =>
      refine holds.extend_silent coherent buffer ?_ fun isOpen => ⟨closed.symm.trans isOpen, ?_⟩
      · intro event member
        rcases quiet event member with ⟨bytes, rfl⟩ | ⟨reader, rfl⟩ <;> exact ⟨rfl, rfl⟩
      · intro event member
        rcases quiet event member with ⟨bytes, rfl⟩ | ⟨reader, rfl⟩ <;> exact ⟨rfl, rfl⟩
  | accepts bytes _ isOpen buffer closed =>
      have more : acceptedBeforeFin (events ++ [.accepted bytes]) =
          acceptedBeforeFin events ++ bytes := by
        unfold acceptedBeforeFin
        rw [collectUntil_append_of_running (holds.noFin isOpen),
          collectUntil_of_running (holds.noFin isOpen)]
        simp [collectUntil, ReadEvent.isFin, ReadEvent.acceptedBytes]
      have same : handedBeforeEof (events ++ [.accepted bytes]) = handedBeforeEof events :=
        collectUntil_append_of_silent (by simp [ReadEvent.handedBytes])
      refine ⟨coherent, ?_, fun _ => ?_, fun _ => ?_⟩
      · rw [more, same, buffer, holds.stream, List.append_assoc]
      · exact List.forall_mem_append.mpr ⟨holds.noFin isOpen, by simp [ReadEvent.isFin]⟩
      · exact List.forall_mem_append.mpr ⟨holds.noEof isOpen, by simp [ReadEvent.isEof]⟩
  | hands alloc _ reader isOpen buffer closed =>
      have more : handedBeforeEof
          (events ++ [.tcpRecved s.recvBuf.length, .readCb reader (.data s.recvBuf)]) =
            handedBeforeEof events ++ s.recvBuf := by
        unfold handedBeforeEof
        rw [collectUntil_append_of_running (holds.noEof isOpen),
          collectUntil_of_running (holds.noEof isOpen)]
        simp [collectUntil, ReadEvent.isEof, ReadEvent.handedBytes]
      have same : acceptedBeforeFin
          (events ++ [.tcpRecved s.recvBuf.length, .readCb reader (.data s.recvBuf)]) =
            acceptedBeforeFin events :=
        collectUntil_append_of_silent (by simp [ReadEvent.acceptedBytes])
      refine ⟨coherent, ?_, fun _ => ?_, fun _ => ?_⟩
      · rw [more, same, buffer, List.append_nil, holds.stream]
      · exact List.forall_mem_append.mpr ⟨holds.noFin isOpen, by simp [ReadEvent.isFin]⟩
      · exact List.forall_mem_append.mpr ⟨holds.noEof isOpen, by simp [ReadEvent.isEof]⟩
  | finishes closeErr _ told isOpen buffer closed eof =>
      refine holds.extend_silent coherent buffer ?_ fun stillOpen => ?_
      · refine List.forall_mem_cons.mpr ⟨⟨rfl, rfl⟩, fun event member => ?_⟩
        obtain ⟨reader, rfl⟩ := eof event member
        exact ⟨rfl, rfl⟩
      · rw [closed] at stillOpen
        cases stillOpen
  | late reader isClosed =>
      refine holds.extend_silent coherent rfl (by simp [ReadEvent.acceptedBytes,
        ReadEvent.handedBytes]) fun stillOpen => ?_
      rw [isClosed] at stillOpen
      cases stillOpen

end ReadInvariant

/-! ## Runs -/

/-- The peer's end of the stream finds no bytes that still wait. -/
def FinMeetsEmptyBuffer (s : UvlReading) : ReadInput → Prop
  | .fin _ => s.recvSet = true → s.recvBuf = []
  | _ => True

/-- Once the connection is closed, what waits in the buffer waited when the peer closed. -/
theorem read_run (inputs : List ReadInput) :
    ReadInvariant (Proc.runAll readStep inputs .start).state
        (Proc.runAll readStep inputs .start).events ∧
      ((Proc.runAll readStep inputs .start).state.closed = false →
        Proc.Along readStep FinMeetsEmptyBuffer .start inputs) ∧
      ((Proc.runAll readStep inputs .start).state.closed = true →
        (Proc.Along readStep FinMeetsEmptyBuffer .start inputs ↔
          (Proc.runAll readStep inputs .start).state.recvBuf = [])) := by
  induction inputs using List.reverseRecOn with
  | nil =>
      refine ⟨⟨⟨rfl, fun closed => by cases closed⟩, rfl, ?_, ?_⟩, fun _ => trivial, ?_⟩
      · exact fun _ event member => by cases member
      · exact fun _ event member => by cases member
      · exact fun closed => by cases closed
  | append_singleton done input ih =>
      obtain ⟨holds, whileOpen, onceClosed⟩ := ih
      rw [Proc.runAll_snoc_state, Proc.runAll_snoc_events, Proc.along_snoc]
      generalize (Proc.runAll readStep done UvlReading.start).state = s at *
      generalize (Proc.runAll readStep done UvlReading.start).events = events at *
      obtain ⟨step, coherent⟩ := readStep_advance holds.coherent input
      refine ⟨holds.extend step coherent, ?_⟩
      generalize (readStep input s).state = after at *
      generalize (readStep input s).events = new at *
      cases step with
      | idle _ _ _ notEnd buffer closed quiet =>
          have meets : FinMeetsEmptyBuffer s input := by
            cases input with
            | fin closeErr =>
                intro hooked
                exact absurd rfl (notEnd (holds.coherent.open_of_recvSet hooked) closeErr)
            | _ => trivial
          rw [closed, buffer, and_iff_left meets]
          exact ⟨whileOpen, onceClosed⟩
      | accepts bytes _ isOpen buffer closed =>
          refine ⟨fun _ => ⟨whileOpen isOpen, trivial⟩, fun shut => ?_⟩
          rw [closed] at shut
          cases shut
      | hands alloc _ reader isOpen buffer closed =>
          refine ⟨fun _ => ⟨whileOpen isOpen, trivial⟩, fun shut => ?_⟩
          rw [closed] at shut
          cases shut
      | finishes closeErr _ told isOpen buffer closed eof =>
          have hooked : s.recvSet = true := by rw [holds.coherent.hooked, isOpen]; rfl
          refine ⟨fun stillOpen => ?_, fun _ => ?_⟩
          · rw [closed] at stillOpen
            cases stillOpen
          · rw [buffer, and_iff_right (whileOpen isOpen)]
            exact forall_prop_of_true hooked
      | late reader isClosed =>
          rw [and_iff_left (show FinMeetsEmptyBuffer s (.readStart reader) from trivial)]
          exact ⟨whileOpen, onceClosed⟩

/-- In every run in which the reader has seen `UV_EOF`: it got exactly the bytes
that were accepted before the peer closed when no byte was waiting at that
moment, and only then. -/
theorem no_byte_lost_before_eof_iff (inputs : List ReadInput)
    (seen : ∃ reader, .readCb reader .eof ∈ (Proc.runAll readStep inputs .start).events) :
    handedBeforeEof (Proc.runAll readStep inputs .start).events =
        acceptedBeforeFin (Proc.runAll readStep inputs .start).events ↔
      Proc.Along readStep FinMeetsEmptyBuffer .start inputs := by
  obtain ⟨holds, -, onceClosed⟩ := read_run inputs
  obtain ⟨reader, told⟩ := seen
  have closed : (Proc.runAll readStep inputs .start).state.closed = true := by
    by_contra isOpen
    exact absurd (holds.noEof (by simpa using isOpen) _ told) (by simp [ReadEvent.isEof])
  rw [onceClosed closed, holds.stream]
  exact List.self_eq_append_right

theorem no_byte_lost_before_eof_read :
    (∃ reader, .readCb reader .eof ∈ (Proc.runAll readStep
      [.readStart 0, .recv [1, 2], .asyncRead (some 65536), .fin errOk] .start).events) ∧
    (handedBeforeEof (Proc.runAll readStep
        [.readStart 0, .recv [1, 2], .asyncRead (some 65536), .fin errOk] .start).events =
      acceptedBeforeFin (Proc.runAll readStep
        [.readStart 0, .recv [1, 2], .asyncRead (some 65536), .fin errOk] .start).events) := by
  have seen : ∃ reader, .readCb reader .eof ∈ (Proc.runAll readStep
      [.readStart 0, .recv [1, 2], .asyncRead (some 65536), .fin errOk] .start).events :=
    ⟨0, by decide⟩
  refine ⟨seen, (no_byte_lost_before_eof_iff _ seen).mpr ?_⟩
  exact ⟨trivial, trivial, trivial, fun _ => rfl, trivial⟩

/-- Data and the end of the stream in successive callbacks, before the read
callback runs: the reader sees the end, and never the data. -/
theorem fin_overtakes_data :
    (∃ reader, .readCb reader .eof ∈ (Proc.runAll readStep
      [.readStart 0, .recv [1, 2], .fin errOk, .asyncRead (some 65536), .readStart 0]
        .start).events) ∧
    handedBeforeEof (Proc.runAll readStep
      [.readStart 0, .recv [1, 2], .fin errOk, .asyncRead (some 65536), .readStart 0]
        .start).events = [] ∧
    acceptedBeforeFin (Proc.runAll readStep
      [.readStart 0, .recv [1, 2], .fin errOk, .asyncRead (some 65536), .readStart 0]
        .start).events = [1, 2] :=
  ⟨⟨0, by decide⟩, by decide, by decide⟩

end SwitchLanPlay.UvLwip
