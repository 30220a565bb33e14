import SwitchLanPlay.Rpc.Framing
import SwitchLanPlay.Rpc.LineReader

/-!
# The handshake and the cuts of the stream

The bytes of an upgrade request pass through the line reader and those behind it
through the byte queue.  The connection changes from one to the other inside the
loop of the line reader, and what the reader still holds is not handed over: the
frames are those of the stream only if a data event ends where the request does.
-/

namespace SwitchLanPlay.Rpc

open Library

variable {σ : Type} (env : RpcEnv σ)

/-! ## Lines -/

/-- The upgrade request is not complete. -/
def WSConnection.InHeader (conn : Connection σ) : Prop :=
  conn.wsState = .doHeader ∨ conn.wsState = .waitHttp

/-- What a line does to a connection. -/
inductive LineResult (line : Bytes) (conn : Connection σ) : Connection σ → List RpcEvent → Prop where
  | goesOn (inHeader : conn.InHeader) (filled : line ≠ []) (path : Bytes) (headers : Bytes → Bytes) :
      LineResult line conn { conn with wsState := .waitHttp, path, headers } []
  | fails (inHeader : conn.InHeader) (path : Bytes) (events : List RpcEvent) :
      LineResult line conn { conn with wsState := .dead, path } events
  | accepts (inHeader : conn.InHeader) (blank : line = []) :
      LineResult line conn { conn with wsState := .waitDecodeHeader }
        [.write (acceptance env (conn.headers (ascii "sec-websocket-key")))]
  | ignored (notInHeader : ¬ conn.InHeader) : LineResult line conn conn []

theorem acceptance_length_pos (key : Bytes) : 0 < (acceptance env key).length := by
  have filled : 0 < (ascii "\r\n\r\n").length := by decide +kernel
  rw [acceptance, List.length_append, List.length_append]
  omega

theorem sendStr_state {τ : Type} (str : Bytes) (s : τ) :
    (sendStr str s : Outcome τ RpcEvent Unit).state = s := by
  unfold sendStr
  split <;> rfl

theorem sendFile_state (path : Bytes) (conn : Connection σ) :
    (sendFile path conn : Outcome _ RpcEvent Bytes).state = conn := by
  unfold sendFile
  split <;> rfl

theorem wsLine_result (line : Bytes) (conn : Connection σ) :
    LineResult env line conn (wsLine env line conn).state (wsLine env line conn).events := by
  rw [wsLine, Proc.bind_state, Proc.bind_events, sendStr_state]
  cases here : conn.wsState with
  | doHeader =>
      have inHeader : conn.InHeader := .inl here
      by_cases bad : (getPath line).length = 0
      · simp only [httpLine, Proc.bind_state, Proc.read_state, Proc.read_value, here, bad, if_true,
          Proc.update_state, Proc.pure_state]
        exact .fails inHeader _ _
      · have filled : line ≠ [] := by
          rintro rfl
          exact bad rfl
        simp only [httpLine, Proc.bind_state, Proc.bind_events, Proc.bind_value, Proc.read_state,
          Proc.read_value, here, bad, if_false, Proc.update_state, Proc.pure_state]
        exact .goesOn inHeader filled _ _
  | waitHttp =>
      have inHeader : conn.InHeader := .inr here
      by_cases filled : line.length > 0
      · have notNil : line ≠ [] := List.ne_nil_of_length_pos filled
        cases cut : cutAt colon line with
        | none =>
            simp only [httpLine, Proc.bind_state, Proc.read_state, Proc.read_value, here, filled, if_true, cut,
              Proc.update_state, Proc.pure_state]
            exact .fails inHeader _ _
        | some header =>
            simp only [httpLine, Proc.bind_state, Proc.bind_events, Proc.bind_value, Proc.read_state,
              Proc.read_value, here, filled, if_true, cut, Proc.update_state, Proc.pure_state]
            exact .goesOn inHeader notNil _ _
      · have blank : line = [] := by simpa using filled
        by_cases upgrade : conn.isUpgrade = true
        · simp only [httpLine, blank, here, upgrade, List.length_nil, gt_iff_lt, lt_self_iff_false,
            ↓reduceIte, Proc.bind_state, Proc.bind_events, Proc.bind_value, Proc.read_state, Proc.read_value,
            Proc.read_events, Proc.update_state, Proc.update_events, Proc.pure_state, Proc.pure_value,
            Proc.pure_events, Proc.emit_events, sendStr, acceptance_length_pos env, List.append_nil,
            List.nil_append]
          exact .accepts inHeader rfl
        · simp only [httpLine, blank, here, upgrade, List.length_nil, gt_iff_lt, lt_self_iff_false,
            ↓reduceIte, Bool.false_eq_true, Proc.bind_state, Proc.bind_events, Proc.bind_value, Proc.read_state,
            Proc.read_value, Proc.read_events, Proc.update_state, Proc.update_events, sendFile_state,
            List.nil_append]
          exact .fails inHeader _ _
  | waitDecodeHeader | waitingFor16BitLength | waitingFor64BitLength | waitingForMaskKey
  | waitingForPayload | dead =>
      have notInHeader : ¬ conn.InHeader := by simp [WSConnection.InHeader, here]
      simp only [httpLine, Proc.bind_state, Proc.bind_events, Proc.bind_value, Proc.read_state,
        Proc.read_value, here, Proc.pure_state]
      exact .ignored notInHeader

/-! ## The line reader as a machine -/

/-- Something else is in the line reader. -/
def WSConnection.reading (rl : Bytes) (conn : Connection σ) : Connection σ := { conn with rl }

theorem ignores_httpLine (rl line : Bytes) :
    Proc.Ignores (WSConnection.reading rl) (httpLine env line : Proc (Connection σ) RpcEvent Bytes) := by
  have updated {f : Connection σ → Connection σ} {answer : Bytes}
      (commutes : ∀ conn, f (conn.reading rl) = (f conn).reading rl) :
      Proc.Ignores (WSConnection.reading rl) (do Proc.update f; pure answer : Proc _ RpcEvent Bytes) :=
    (Proc.ignores_update commutes).bind fun _ => Proc.ignores_pure _
  refine Proc.ignores_read_bind (fun _ => rfl) fun conn => ?_
  cases conn.wsState with
  | doHeader => exact Proc.ignores_ite (updated fun _ => rfl) (updated fun _ => rfl)
  | waitHttp =>
      refine Proc.ignores_ite ?_ (Proc.ignores_ite (updated fun _ => rfl) ?_)
      · cases cutAt colon line with
        | none => exact updated fun _ => rfl
        | some header => exact updated fun _ => rfl
      · refine Proc.Ignores.bind (Proc.ignores_update (by exact fun _ => rfl)) fun _ => ?_
        refine Proc.ignores_ite (Proc.ignores_pure _) ?_
        exact (Proc.ignores_emit _).bind fun _ => Proc.ignores_pure _
  | waitDecodeHeader | waitingFor16BitLength | waitingFor64BitLength | waitingForMaskKey
  | waitingForPayload | dead => exact Proc.ignores_pure _

theorem ignores_wsLine (rl line : Bytes) :
    Proc.Ignores (WSConnection.reading rl) (wsLine env line : Proc (Connection σ) RpcEvent Unit) :=
  (ignores_httpLine env rl line).bind fun _ =>
    Proc.ignores_ite (Proc.ignores_emit _) (Proc.ignores_pure ())

/-- One turn of the loop of `feed`, if a line is complete. -/
def lineStep (conn : Connection σ) : Option (Connection σ × List RpcEvent) :=
  (conn.rl.findIdx? (· = lineFeed)).map fun index =>
    let done := wsLine env (stripCr (conn.rl.take index)) conn
    (done.state.reading (conn.rl.drop (index + 1)), done.events)

theorem feedLoop_rests (buffer : Bytes) (conn : Connection σ) :
    let done := feedLoop (wsLine env) buffer conn
    Rests (lineStep env) (conn.reading buffer) (done.state.reading done.value) done.events := by
  induction buffer using feedLoop.induct generalizing conn with
  | case1 buffer noLine =>
      rw [feedLoop_none _ noLine]
      exact .stop (by simp [lineStep, WSConnection.reading, noLine])
  | case2 buffer index found ih =>
      rw [feedLoop_some _ found]
      have moved : lineStep env (conn.reading buffer) =
          some ((wsLine env (stripCr (buffer.take index)) conn).state.reading (buffer.drop (index + 1)),
            (wsLine env (stripCr (buffer.take index)) conn).events) := by
        have line := ignores_wsLine env buffer (stripCr (buffer.take index)) conn
        simp only [lineStep, WSConnection.reading] at line ⊢
        rw [found, Option.map_some, line]
      exact .move moved (ih _)

/-- Bytes behind a complete line do not change what the line does. -/
theorem lineStep_append (data : Bytes) {conn next : Connection σ} {events : List RpcEvent}
    (moved : lineStep env conn = some (next, events)) :
    lineStep env (conn.reading (conn.rl ++ data)) = some (next.reading (next.rl ++ data), events) := by
  obtain ⟨index, found, result⟩ := Option.map_eq_some_iff.mp moved
  obtain ⟨rfl, rfl⟩ := Prod.mk.inj result
  obtain ⟨inside, -⟩ := List.findIdx?_eq_some_iff_getElem.mp found
  have found' : (conn.rl ++ data).findIdx? (· = lineFeed) = some index := by
    rw [List.findIdx?_append, found]
    rfl
  have line := ignores_wsLine env (conn.rl ++ data) (stripCr (conn.rl.take index)) conn
  simp only [lineStep, WSConnection.reading] at line ⊢
  rw [found', Option.map_some, List.take_append_of_le_length inside.le, line,
    List.drop_append_of_le_length inside]

theorem wsOnData_inHeader {conn : Connection σ} (inHeader : conn.InHeader) (data : Bytes) :
    let done := feedLoop (wsLine env) (conn.rl ++ data) conn
    wsOnData env listQueue data conn = ⟨(), done.state.reading done.value, done.events⟩ := by
  have test : conn.wsState = .doHeader ∨ conn.wsState = .waitHttp := inHeader
  ext1 <;> simp [wsOnData, test, WSConnection.reading]

/-! ## Requests -/

/-- The bytes of a line. -/
def crlf (line : Bytes) : Bytes := line ++ [carriageReturn, lineFeed]

/-- The bytes of a request: its lines and the blank line. -/
def request (lines : List Bytes) : Bytes := lines.flatMap crlf ++ crlf []

/-- A line at the front of the line reader. -/
theorem lineStep_crlf {line : Bytes} (whole : lineFeed ∉ line) (rest : Bytes) (conn : Connection σ) :
    lineStep env (conn.reading (crlf line ++ rest)) =
      some ((wsLine env line conn).state.reading rest, (wsLine env line conn).events) := by
  have found : (crlf line ++ rest).findIdx? (· = lineFeed) = some (line.length + 1) := by
    simp [crlf, List.findIdx?_append, findIdx?_of_free whole, List.findIdx?_cons, carriageReturn,
      lineFeed, Nat.add_comm]
  have front : (crlf line ++ rest).take (line.length + 1) = line ++ [carriageReturn] := by
    simp [crlf, List.take_append]
  have back : (crlf line ++ rest).drop (line.length + 1 + 1) = rest :=
    List.drop_left' (by simp [crlf])
  have done := ignores_wsLine env (crlf line ++ rest) line conn
  simp only [lineStep, WSConnection.reading] at done ⊢
  rw [found, Option.map_some, front, back, stripCr_concat, done]

/-- The lines at the front of the line reader. -/
theorem rests_lines {lines : List Bytes} (whole : ∀ line ∈ lines, lineFeed ∉ line) (rest : Bytes)
    (conn final : Connection σ) (events : List RpcEvent)
    (rests : Rests (lineStep env) ((Proc.runAll (wsLine env) lines conn).state.reading rest) final events) :
    Rests (lineStep env) (conn.reading (lines.flatMap crlf ++ rest)) final
      ((Proc.runAll (wsLine env) lines conn).events ++ events) := by
  induction lines generalizing conn with
  | nil => exact rests
  | cons line lines ih =>
      obtain ⟨first, others⟩ := List.forall_mem_cons.mp whole
      rw [List.flatMap_cons, List.append_assoc, Proc.runAll_cons_events, List.append_assoc]
      exact .move (lineStep_crlf env first _ conn) (ih others _ rests)

theorem lineFeed_notMem_of_prefix {line part : Bytes} (whole : lineFeed ∉ line)
    (within : part <+: line ++ [carriageReturn]) : lineFeed ∉ part := by
  intro member
  have inside := within.subset member
  simp only [List.mem_append, List.mem_singleton] at inside
  rcases inside with inLine | isReturn
  · exact whole inLine
  · cases isReturn

/-- What is before a cut within a request: complete lines and a part of one. -/
theorem cut_request {lines : List Bytes} (whole : ∀ line ∈ lines, lineFeed ∉ line) {front back : Bytes}
    (cut : front ++ back = request lines) (unfinished : back ≠ []) :
    ∃ complete remaining part, lines = complete ++ remaining ∧
      front = complete.flatMap crlf ++ part ∧ lineFeed ∉ part := by
  induction lines generalizing front with
  | nil =>
      refine ⟨[], [], front, rfl, rfl, ?_⟩
      have within : front <+: ([] ++ [carriageReturn]) ++ [lineFeed] := ⟨back, cut⟩
      rcases List.prefix_concat_iff.mp within with all | part
      · have whole : front ++ back = front ++ [] := by
          rw [cut, List.append_nil, all]
          rfl
        exact absurd (List.append_cancel_left whole) unfinished
      · exact lineFeed_notMem_of_prefix List.not_mem_nil part
  | cons line lines ih =>
      obtain ⟨first, others⟩ := List.forall_mem_cons.mp whole
      have cut' : front ++ back = crlf line ++ request lines := by
        rw [cut, request, List.flatMap_cons, List.append_assoc]
        rfl
      rcases List.append_eq_append_iff.mp cut' with ⟨rest, inLine, -⟩ | ⟨beyond, rfl, cutRest⟩
      · have within : front <+: (line ++ [carriageReturn]) ++ [lineFeed] := by
          refine ⟨rest, inLine.symm.trans ?_⟩
          simp [crlf]
        rcases List.prefix_concat_iff.mp within with all | part
        · refine ⟨[line], lines, [], rfl, ?_, List.not_mem_nil⟩
          rw [all]
          simp [crlf]
        · exact ⟨[], line :: lines, front, rfl, rfl, lineFeed_notMem_of_prefix first part⟩
      · obtain ⟨complete, remaining, part, rfl, rfl, noFeed⟩ := ih others cutRest.symm
        exact ⟨line :: complete, remaining, part, rfl, by simp, noFeed⟩

/-! ## Accepted requests -/

/-- A connection as it is before its first data event. -/
def fresh (server : σ) : Connection σ := .start listQueue server

/-- The lines are those of an upgrade request, and it is accepted. -/
structure Upgrade (server : σ) (lines : List Bytes) : Prop where
  whole : ∀ line ∈ lines, lineFeed ∉ line
  filled : [] ∉ lines
  accepted : (Proc.runAll (wsLine env) (lines ++ [[]]) (fresh server)).state.wsState = .waitDecodeHeader

/-- The connection before the blank line. -/
def headed (server : σ) (lines : List Bytes) : Connection σ :=
  (Proc.runAll (wsLine env) lines (fresh server)).state

/-- The response to the request. -/
def response (server : σ) (lines : List Bytes) : Bytes :=
  acceptance env ((headed env server lines).headers (ascii "sec-websocket-key"))

/-- The connection after the blank line. -/
def opened (server : σ) (lines : List Bytes) : Connection σ :=
  { headed env server lines with wsState := .waitDecodeHeader }

theorem runAll_wsLine_ignored (lines : List Bytes) {conn : Connection σ} (notInHeader : ¬ conn.InHeader) :
    (Proc.runAll (wsLine env) lines conn).state = conn := by
  induction lines with
  | nil => rfl
  | cons line lines ih =>
      rw [Proc.runAll_cons_state]
      have result := wsLine_result env line conn
      generalize (wsLine env line conn).state = next at result ⊢
      generalize (wsLine env line conn).events = events at result
      cases result with
      | goesOn inHeader => exact absurd inHeader notInHeader
      | fails inHeader => exact absurd inHeader notInHeader
      | accepts inHeader => exact absurd inHeader notInHeader
      | ignored => exact ih

theorem not_inHeader_of_dead {conn : Connection σ} (dead : conn.wsState = .dead) : ¬ conn.InHeader := by
  rw [WSConnection.InHeader, dead]
  rintro (other | other) <;> cases other

/-- Lines that are not blank: the request goes on in silence, or it failed. -/
theorem runAll_wsLine_filled {lines : List Bytes} (filled : [] ∉ lines) {conn : Connection σ}
    (inHeader : conn.InHeader) :
    let run := Proc.runAll (wsLine env) lines conn
    (run.state.InHeader ∧ run.state.bl = conn.bl ∧ run.events = []) ∨ run.state.wsState = .dead := by
  induction lines generalizing conn with
  | nil => exact .inl ⟨inHeader, rfl, rfl⟩
  | cons line lines ih =>
      obtain ⟨notBlank, others⟩ := not_or.mp (List.mem_cons.not.mp filled)
      dsimp only
      rw [Proc.runAll_cons_state, Proc.runAll_cons_events]
      have result := wsLine_result env line conn
      generalize (wsLine env line conn).state = next at result ⊢
      generalize (wsLine env line conn).events = events at result ⊢
      cases result with
      | goesOn => exact ih others (.inr rfl)
      | fails =>
          right
          rw [runAll_wsLine_ignored env lines (not_inHeader_of_dead rfl)]
      | accepts _ blank => exact absurd blank.symm notBlank
      | ignored notInHeader => exact absurd inHeader notInHeader

section Upgrade

variable {env} {server : σ} {lines : List Bytes}

/-- Up to the blank line an accepted request is read in silence. -/
theorem Upgrade.silent (upgrade : Upgrade env server lines) {complete remaining : List Bytes}
    (split : lines = complete ++ remaining) :
    let run := Proc.runAll (wsLine env) complete (fresh server)
    run.state.InHeader ∧ run.state.bl = [] ∧ run.events = [] := by
  have filled : [] ∉ complete := fun member => upgrade.filled (split ▸ List.mem_append_left _ member)
  rcases runAll_wsLine_filled env filled (.inl rfl : (fresh server).InHeader) with silent | dead
  · exact silent
  · have accepted := upgrade.accepted
    rw [split, List.append_assoc, Proc.runAll_append_state,
      runAll_wsLine_ignored env _ (not_inHeader_of_dead dead), dead] at accepted
    cases accepted

/-- The blank line is answered by the response. -/
theorem Upgrade.blank (upgrade : Upgrade env server lines) :
    (wsLine env [] (headed env server lines)).state = opened env server lines ∧
      (wsLine env [] (headed env server lines)).events = [.write (response env server lines)] := by
  have accepted := upgrade.accepted
  rw [Proc.runAll_snoc_state] at accepted
  obtain ⟨inHeader, -, -⟩ := upgrade.silent (List.append_nil lines).symm
  have result := wsLine_result env [] (headed env server lines)
  change (wsLine env [] (headed env server lines)).state.wsState = _ at accepted
  generalize (wsLine env [] (headed env server lines)).state = next at result accepted ⊢
  generalize (wsLine env [] (headed env server lines)).events = events at result ⊢
  cases result with
  | goesOn _ filled => exact absurd rfl filled
  | fails => cases accepted
  | accepts => exact ⟨rfl, rfl⟩
  | ignored notInHeader => exact absurd inHeader notInHeader

/-- A cut within the request. -/
theorem Upgrade.rests_within (upgrade : Upgrade env server lines) {front back : Bytes}
    (cut : front ++ back = request lines) (unfinished : back ≠ []) :
    ∃ conn : Connection σ, conn.InHeader ∧ Rests (lineStep env) ((fresh server).reading front) conn [] := by
  obtain ⟨complete, remaining, part, split, rfl, noFeed⟩ := cut_request upgrade.whole cut unfinished
  obtain ⟨inHeader, -, quiet⟩ := upgrade.silent split
  have whole (line : Bytes) (member : line ∈ complete) : lineFeed ∉ line :=
    upgrade.whole line (split ▸ List.mem_append_left _ member)
  have blocked (conn : Connection σ) : lineStep env (conn.reading part) = none := by
    simp [lineStep, WSConnection.reading, findIdx?_of_free noFeed]
  have rests := rests_lines env whole part (fresh server) _ _ (.stop (blocked _))
  rw [quiet] at rests
  exact ⟨_, by exact inHeader, rests⟩

/-- After the upgrade the line reader still takes lines, in silence. -/
theorem rests_ignored {conn final : Connection σ} {events : List RpcEvent} (notInHeader : ¬ conn.InHeader)
    (rests : Rests (lineStep env) conn final events) : (∃ rl, final = conn.reading rl) ∧ events = [] := by
  induction rests with
  | stop blocked => exact ⟨⟨_, rfl⟩, rfl⟩
  | @move conn next final events rest moved rests ih =>
      obtain ⟨index, found, result⟩ := Option.map_eq_some_iff.mp moved
      have ignored := wsLine_result env (stripCr (conn.rl.take index)) conn
      dsimp only at result
      generalize (wsLine env (stripCr (conn.rl.take index)) conn).state = after at result ignored
      generalize (wsLine env (stripCr (conn.rl.take index)) conn).events = done at result ignored
      obtain ⟨rfl, rfl⟩ := Prod.mk.inj result
      cases ignored with
      | goesOn inHeader => exact absurd inHeader notInHeader
      | fails inHeader => exact absurd inHeader notInHeader
      | accepts inHeader => exact absurd inHeader notInHeader
      | ignored =>
          obtain ⟨⟨rl, same⟩, quiet⟩ := ih notInHeader
          exact ⟨⟨rl, same⟩, quiet⟩

/-- A cut behind the request: what is between the two is lost in the line reader. -/
theorem Upgrade.rests_beyond (upgrade : Upgrade env server lines) (extra : Bytes) :
    ∃ rl, Rests (lineStep env) ((fresh server).reading (request lines ++ extra))
      ((opened env server lines).reading rl) [.write (response env server lines)] := by
  obtain ⟨-, -, quiet⟩ := upgrade.silent (List.append_nil lines).symm
  obtain ⟨blankState, blankEvents⟩ := upgrade.blank
  have notInHeader : ¬ (opened env server lines).InHeader := by
    rintro (other | other) <;> cases other
  have behind := feedLoop_rests env extra (opened env server lines)
  obtain ⟨⟨rl, same⟩, silent⟩ := rests_ignored (by exact notInHeader) behind
  dsimp only at behind
  rw [same, silent] at behind
  have blank := lineStep_crlf env List.not_mem_nil extra (headed env server lines)
  rw [blankState, blankEvents] at blank
  have rests := rests_lines env upgrade.whole (crlf [] ++ extra) (fresh server) _ _ (.move blank behind)
  rw [quiet] at rests
  refine ⟨rl, ?_⟩
  rw [request, List.append_assoc]
  exact rests

/-- A data event ends within what is left of the request, or reaches its end. -/
theorem cut_cases {chunk others back rest : Bytes} (stream : chunk ++ others = back ++ rest) :
    (∃ left, left ≠ [] ∧ back = chunk ++ left ∧ others = left ++ rest) ∨
      ∃ extra, chunk = back ++ extra ∧ rest = extra ++ others := by
  rcases List.append_eq_append_iff.mp stream with ⟨left, rfl, rfl⟩ | beyond
  · by_cases ends : left = []
    · subst ends
      exact .inr ⟨[], by simp, by simp⟩
    · exact .inl ⟨left, ends, rfl, rfl⟩
  · exact .inr beyond

/-- The data events up to the upgrade, and where they leave the connection. -/
theorem Upgrade.run (upgrade : Upgrade env server lines) {rest : Bytes} (chunks : List Bytes)
    {conn : Connection σ} {front back : Bytes} (cut : front ++ back = request lines)
    (unfinished : back ≠ []) (inHeader : conn.InHeader)
    (rests : Rests (lineStep env) ((fresh server).reading front) conn [])
    (stream : chunks.flatten = back ++ rest) :
    ∃ first chunk second extra rl,
      chunks = first ++ chunk :: second ∧ (front ++ first.flatten).length < (request lines).length ∧
        front ++ first.flatten ++ chunk = request lines ++ extra ∧ extra ++ second.flatten = rest ∧
        (Proc.runAll (wsOnData env listQueue) chunks conn).events =
          .write (response env server lines) ::
            (Proc.runAll (wsOnData env listQueue) second ((opened env server lines).reading rl)).events := by
  induction chunks generalizing conn front back with
  | nil => exact absurd (List.append_eq_nil_iff.mp stream.symm).1 unfinished
  | cons chunk others ih =>
      have continued := Rests.append (fun _ _ _ moved => lineStep_append env chunk moved) rests
        (feedLoop_rests env (conn.rl ++ chunk) conn)
      rw [List.nil_append] at continued
      have taken := wsOnData_inHeader env inHeader chunk
      dsimp only at continued taken
      rw [Proc.runAll_cons_events, taken]
      rcases cut_cases stream with ⟨left, remains, rfl, stream'⟩ | ⟨extra, rfl, rfl⟩
      · rw [← List.append_assoc] at cut
        obtain ⟨next, nextInHeader, within⟩ := upgrade.rests_within cut remains
        obtain ⟨same, quiet⟩ := continued.unique within
        obtain ⟨first, last, second, extra, rl, rfl, before, ends, behind, events⟩ :=
          ih cut remains nextInHeader within stream'
        refine ⟨chunk :: first, last, second, extra, rl, rfl, ?_, ?_, behind, ?_⟩
        · rwa [List.flatten_cons, ← List.append_assoc]
        · rwa [List.flatten_cons, ← List.append_assoc front]
        · rw [same, quiet, events]
          rfl
      · obtain ⟨rl, beyond⟩ := upgrade.rests_beyond extra
        rw [← cut, List.append_assoc] at beyond
        obtain ⟨same, events⟩ := continued.unique beyond
        refine ⟨[], back ++ extra, others, extra, rl, rfl, ?_, ?_, rfl, ?_⟩
        · rw [← cut, List.flatten_nil, List.append_nil, List.length_append]
          exact Nat.lt_add_of_pos_right (List.length_pos_of_ne_nil unfinished)
        · rw [← cut, List.flatten_nil, List.append_nil, List.append_assoc]
        · rw [same, events]
          rfl

end Upgrade

/-! ## Every cut -/

/-- What a new connection does with the data events. -/
def dataEvents (server : σ) (chunks : List Bytes) : List RpcEvent :=
  (Proc.runAll (wsOnData env listQueue) chunks (fresh server)).events

/-- The response is given, every byte behind the request is decoded, and the
frames are those of the stream cut at the end of the request. -/
structure Unaffected (server : σ) (lines : List Bytes) (rest : Bytes) (chunks : List Bytes) : Prop where
  answered : (dataEvents env server chunks).head? = some (.write (response env server lines))
  complete : addedBytes (dataEvents env server chunks) = rest
  same : frames (dataEvents env server chunks) = frames (dataEvents env server [request lines, rest])

section Cuts

variable {env} {server : σ} {lines : List Bytes} {rest : Bytes} {chunks : List Bytes}

theorem request_ne_nil (lines : List Bytes) : request lines ≠ [] := by
  simp [request, crlf]

/-- One data event takes the connection through the end of the request, and the
rest of it is lost. -/
theorem Upgrade.data (upgrade : Upgrade env server lines) (stream : chunks.flatten = request lines ++ rest) :
    ∃ first chunk second extra, chunks = first ++ chunk :: second ∧
      first.flatten.length < (request lines).length ∧ first.flatten ++ chunk = request lines ++ extra ∧
      extra ++ second.flatten = rest ∧
      (dataEvents env server chunks).head? = some (.write (response env server lines)) ∧
      addedBytes (dataEvents env server chunks) = second.flatten ∧
      ∃ final events, frames (dataEvents env server chunks) = frames events ∧
        Rests (decodeStep env) ((opened env server lines).behind [] second.flatten) final events := by
  have blocked : lineStep env (fresh server) = none := rfl
  obtain ⟨first, chunk, second, extra, rl, split, before, ends, behind, run⟩ :=
    upgrade.run chunks (List.nil_append _) (request_ne_nil lines) (.inl rfl) (.stop blocked) stream
  change dataEvents env server chunks = _ at run
  obtain ⟨-, emptied, -⟩ := upgrade.silent (List.append_nil lines).symm
  have isUpgraded : ((opened env server lines).reading rl).Upgraded := ⟨nofun, nofun, nofun⟩
  have resting : decodeStep env ((opened env server lines).reading rl) = none := by
    have nothing : (headed env server lines).bl = [] := emptied
    simp [decodeStep, opened, WSConnection.reading, nothing]
  obtain ⟨added, events, sameFrames, rests⟩ := upgraded_run env second isUpgraded resting
  refine ⟨first, chunk, second, extra, split, before, ends, behind, ?_, ?_, _, events, ?_, rests []⟩
  · rw [run]
    rfl
  · rw [run]
    exact added
  · rw [run]
    exact sameFrames

/-- If a data event ends where the request does, nothing is lost. -/
theorem nothing_lost {first second : List Bytes} {chunk extra : Bytes}
    (split : chunks = first ++ chunk :: second) (before : first.flatten.length < (request lines).length)
    (ends : first.flatten ++ chunk = request lines ++ extra)
    (boundary : ∃ head tail, chunks = head ++ tail ∧ head.flatten = request lines) : extra = [] := by
  obtain ⟨head, tail, split', exact'⟩ := boundary
  rcases List.append_eq_append_iff.mp (split'.symm.trans split) with ⟨more, rfl, -⟩ | ⟨more, rfl, others⟩
  · rw [List.flatten_append, exact', List.length_append] at before
    omega
  · cases more with
    | nil =>
        rw [List.append_nil] at exact'
        exact absurd before (exact' ▸ lt_irrefl _)
    | cons last more =>
        obtain ⟨rfl, -⟩ := List.cons.inj others
        have lengths := congrArg List.length exact'
        rw [List.flatten_append, List.flatten_cons, ← List.append_assoc, ends] at lengths
        simp only [List.length_append] at lengths
        exact List.eq_nil_of_length_eq_zero (by omega)

end Cuts

/-- The handshake is independent of a cut exactly if some data event ends where
the request does. -/
theorem handshake_unaffected_iff {server : σ} {lines : List Bytes} (upgrade : Upgrade env server lines)
    (rest : Bytes) (chunks : List Bytes) (stream : chunks.flatten = request lines ++ rest) :
    Unaffected env server lines rest chunks ↔
      ∃ first second, chunks = first ++ second ∧ first.flatten = request lines := by
  obtain ⟨first, chunk, second, extra, split, before, ends, behind, answered, added, final, events,
    sameFrames, rests⟩ := upgrade.data stream
  constructor
  · intro unaffected
    have lengths := congrArg List.length (behind.trans (unaffected.complete.symm.trans added))
    rw [List.length_append] at lengths
    have noneLost : extra = [] := List.eq_nil_of_length_eq_zero (by omega)
    refine ⟨first ++ [chunk], second, by simp [split], ?_⟩
    rw [List.flatten_append, List.flatten_singleton, ends, noneLost, List.append_nil]
  · intro boundary
    obtain rfl := nothing_lost split before ends boundary
    rw [List.nil_append] at behind
    have whole : [request lines, rest].flatten = request lines ++ rest := by simp
    obtain ⟨_, _, second', extra', split', before', ends', behind', -, -, _, events', sameFrames', rests'⟩ :=
      upgrade.data whole
    obtain rfl := nothing_lost split' before' ends' ⟨[request lines], [rest], rfl, by simp⟩
    rw [List.nil_append] at behind'
    rw [behind] at rests
    rw [behind'] at rests'
    refine ⟨answered, added.trans behind, ?_⟩
    rw [sameFrames, sameFrames', (rests.unique rests').2]

/-! ## A request and a text frame -/

def plainEnv : RpcEnv Unit where
  token := ascii "token"
  onMessage := fun _ server => ([], server)
  sha1 := id
  base64Encode := id
  wideShift := fun _ _ => 0

def upgradeLines : List Bytes :=
  [ascii "GET / HTTP/1.1", ascii "Upgrade: websocket", ascii "Connection: Upgrade",
    ascii "Sec-WebSocket-Version: 13", ascii "Sec-WebSocket-Protocol: switch-lan-play-rpc",
    ascii "Sec-WebSocket-Key: key"]

def tokenFrame : Bytes := [0x81, 5] ++ ascii "token"

theorem upgradeLines_accepted : Upgrade plainEnv () upgradeLines :=
  ⟨by decide +kernel, by decide +kernel, by decide +kernel⟩

theorem handshake_unaffected_twoEvents :
    Unaffected plainEnv () upgradeLines tokenFrame [request upgradeLines, tokenFrame] :=
  (handshake_unaffected_iff plainEnv upgradeLines_accepted tokenFrame [request upgradeLines, tokenFrame]
    (by simp)).mpr ⟨[request upgradeLines], [tokenFrame], rfl, by simp⟩

/-- A client that does not wait for the response: the frame in the same data
event is lost. -/
theorem handshake_affected_oneEvent :
    Upgrade plainEnv () upgradeLines ∧
      addedBytes (dataEvents plainEnv () [request upgradeLines ++ tokenFrame]) = [] ∧
      (frames (dataEvents plainEnv () [request upgradeLines, tokenFrame])).length = 1 ∧
      ¬ Unaffected plainEnv () upgradeLines tokenFrame [request upgradeLines ++ tokenFrame] := by
  have stream : [request upgradeLines ++ tokenFrame].flatten = request upgradeLines ++ tokenFrame := by simp
  have lost : addedBytes (dataEvents plainEnv () [request upgradeLines ++ tokenFrame]) = [] := by
    obtain ⟨first, chunk, second, extra, split, -, -, -, -, added, -⟩ := upgradeLines_accepted.data stream
    obtain ⟨-, -, rfl⟩ : first = [] ∧ _ ∧ second = [] := by simpa [List.singleton_eq_append_iff] using split
    exact added
  refine ⟨upgradeLines_accepted, lost, by decide +kernel, ?_⟩
  intro unaffected
  have complete := unaffected.complete
  rw [lost] at complete
  cases complete

end SwitchLanPlay.Rpc
