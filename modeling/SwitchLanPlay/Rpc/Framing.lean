import SwitchLanPlay.Library.Rest
import SwitchLanPlay.Rpc.WebSocket

/-!
# Frames do not depend on the data events

Over a correct byte queue the loop of `WSConnection::onData` is a machine that
moves from one stage of a frame to the next while it has the bytes for it.  Bytes
that wait behind those never change what it does, so the frames are the same for
every way of cutting the stream.
-/

namespace SwitchLanPlay.Rpc

open Library

variable {σ : Type} (env : RpcEnv σ)

/-- A WebSocket connection over a correct byte queue. -/
abbrev Connection (σ : Type) := WSConnection Bytes σ

/-! ## Stages -/

/-- One stage of the loop, if the bytes for it are there. -/
def decodeStep (conn : Connection σ) : Option (Connection σ × List RpcEvent) :=
  match conn.wsState with
  | .waitDecodeHeader =>
      if 2 ≤ conn.bl.length then some ((decodeHeader listQueue conn).state, []) else none
  | .waitingFor16BitLength =>
      if 2 ≤ conn.bl.length then some ((decode16BitLength listQueue conn).state, []) else none
  | .waitingFor64BitLength =>
      if 8 ≤ conn.bl.length then some ((decode64BitLength env listQueue conn).state, []) else none
  | .waitingForMaskKey =>
      if conn.frame.mask = true ∧ conn.bl.length < 4 then none
      else some ((decodeMaskKey listQueue conn).state, [])
  | .waitingForPayload =>
      if conn.frame.length ≤ conn.bl.length then
        some ((decodePayload env listQueue conn).state, (decodePayload env listQueue conn).events)
      else none
  | _ => none

section Stages

variable {conn : Connection σ}

theorem decodeHeader_skip (other : conn.wsState ≠ .waitDecodeHeader) :
    decodeHeader listQueue conn = ⟨true, conn, []⟩ := by
  ext1 <;> simp [decodeHeader, other]

theorem decodeHeader_short (here : conn.wsState = .waitDecodeHeader) (short : ¬ 2 ≤ conn.bl.length) :
    decodeHeader listQueue conn = ⟨false, conn, []⟩ := by
  ext1 <;> simp [decodeHeader, here, listQueue, short]

/-- The header of a frame is taken. -/
theorem decodeHeader_take (here : conn.wsState = .waitDecodeHeader) (enough : 2 ≤ conn.bl.length) :
    decodeHeader listQueue conn =
      ⟨true, { conn with
        frame := headerFrame (byteAt conn.bl 0) (byteAt conn.bl 1)
        wsState := lengthState (headerFrame (byteAt conn.bl 0) (byteAt conn.bl 1)).length
        bl := conn.bl.drop 2 }, []⟩ := by
  ext1 <;> simp [decodeHeader, here, listQueue, enough]

theorem decode16BitLength_skip (other : conn.wsState ≠ .waitingFor16BitLength ∨ ¬ 2 ≤ conn.bl.length) :
    decode16BitLength listQueue conn = ⟨(), conn, []⟩ := by
  have stays : ¬ (conn.wsState = .waitingFor16BitLength ∧ 2 ≤ conn.bl.length) := by
    rwa [not_and_or]
  ext1 <;> simp [decode16BitLength, listQueue, stays]

theorem decode16BitLength_take (here : conn.wsState = .waitingFor16BitLength) (enough : 2 ≤ conn.bl.length) :
    decode16BitLength listQueue conn =
      ⟨(), { conn with
        frame.length := 256 * (byteAt conn.bl 0).toNat + (byteAt conn.bl 1).toNat
        bl := conn.bl.drop 2
        wsState := .waitingForMaskKey }, []⟩ := by
  ext1 <;> simp [decode16BitLength, listQueue, here, enough]

theorem decode64BitLength_skip (other : conn.wsState ≠ .waitingFor64BitLength ∨ ¬ 8 ≤ conn.bl.length) :
    decode64BitLength env listQueue conn = ⟨(), conn, []⟩ := by
  have stays : ¬ (conn.wsState = .waitingFor64BitLength ∧ 8 ≤ conn.bl.length) := by
    rwa [not_and_or]
  ext1 <;> simp [decode64BitLength, listQueue, stays]

theorem decode64BitLength_take (here : conn.wsState = .waitingFor64BitLength) (enough : 8 ≤ conn.bl.length) :
    decode64BitLength env listQueue conn =
      ⟨(), { conn with
        frame.length := length64 env (byteAt conn.bl)
        bl := conn.bl.drop 8
        wsState := .waitingForMaskKey }, []⟩ := by
  ext1 <;> simp [decode64BitLength, listQueue, here, enough]

theorem decodeMaskKey_skip
    (other : conn.wsState ≠ .waitingForMaskKey ∨ conn.frame.mask = true ∧ conn.bl.length < 4) :
    decodeMaskKey listQueue conn = ⟨(), conn, []⟩ := by
  rcases other with elsewhere | ⟨masked, short⟩
  · ext1 <;> simp [decodeMaskKey, elsewhere]
  · have few : ¬ 4 ≤ conn.bl.length := not_le_of_gt short
    by_cases here : conn.wsState = .waitingForMaskKey
    · ext1 <;> simp [decodeMaskKey, here, masked, listQueue, few]
    · ext1 <;> simp [decodeMaskKey, here]

/-- The mask key is taken, or none is needed. -/
theorem decodeMaskKey_take (here : conn.wsState = .waitingForMaskKey)
    (enough : ¬ (conn.frame.mask = true ∧ conn.bl.length < 4)) :
    decodeMaskKey listQueue conn =
      ⟨(), { conn with
        frame.maskBytes := if conn.frame.mask then listQueue.copyTo conn.bl 4 else conn.frame.maskBytes
        bl := if conn.frame.mask then conn.bl.drop 4 else conn.bl
        wsState := .waitingForPayload }, []⟩ := by
  cases masked : conn.frame.mask with
  | true =>
      have many : 4 ≤ conn.bl.length := le_of_not_gt fun few => enough ⟨masked, few⟩
      ext1 <;> simp [decodeMaskKey, here, masked, listQueue, many]
  | false =>
      ext1 <;> simp [decodeMaskKey, here, masked]
      rw [← masked]

theorem decodePayload_skip
    (other : conn.wsState ≠ .waitingForPayload ∨ ¬ conn.frame.length ≤ conn.bl.length) :
    decodePayload env listQueue conn = ⟨(), conn, []⟩ := by
  have stays : ¬ (conn.wsState = .waitingForPayload ∧ conn.frame.length ≤ conn.bl.length) := by
    rwa [not_and_or]
  ext1 <;> simp [decodePayload, listQueue, stays]

/-- The connection that `onFrame` is invoked on. -/
def WSConnection.framed (conn : Connection σ) : Connection σ :=
  { conn with
    frame.data := conn.payload listQueue
    bl := conn.bl.drop conn.frame.length
    wsState := .waitDecodeHeader }

theorem decodePayload_take (here : conn.wsState = .waitingForPayload)
    (enough : conn.frame.length ≤ conn.bl.length) :
    decodePayload env listQueue conn = onFrame env conn.framed := by
  ext1 <;> simp [decodePayload, listQueue, here, enough, WSConnection.framed]

variable (conn) in
/-- What a stage leaves and performs. -/
inductive Decodes : Connection σ → List RpcEvent → Prop where
  | header (here : conn.wsState = .waitDecodeHeader) (enough : 2 ≤ conn.bl.length) :
      Decodes { conn with
        frame := headerFrame (byteAt conn.bl 0) (byteAt conn.bl 1)
        wsState := lengthState (headerFrame (byteAt conn.bl 0) (byteAt conn.bl 1)).length
        bl := conn.bl.drop 2 } []
  | length16 (here : conn.wsState = .waitingFor16BitLength) (enough : 2 ≤ conn.bl.length) :
      Decodes { conn with
        frame.length := 256 * (byteAt conn.bl 0).toNat + (byteAt conn.bl 1).toNat
        bl := conn.bl.drop 2
        wsState := .waitingForMaskKey } []
  | length64 (here : conn.wsState = .waitingFor64BitLength) (enough : 8 ≤ conn.bl.length) :
      Decodes { conn with
        frame.length := length64 env (byteAt conn.bl)
        bl := conn.bl.drop 8
        wsState := .waitingForMaskKey } []
  | maskKey (here : conn.wsState = .waitingForMaskKey)
      (enough : ¬ (conn.frame.mask = true ∧ conn.bl.length < 4)) :
      Decodes { conn with
        frame.maskBytes := if conn.frame.mask then listQueue.copyTo conn.bl 4 else conn.frame.maskBytes
        bl := if conn.frame.mask then conn.bl.drop 4 else conn.bl
        wsState := .waitingForPayload } []
  | payload (here : conn.wsState = .waitingForPayload) (enough : conn.frame.length ≤ conn.bl.length) :
      Decodes (onFrame env conn.framed).state (onFrame env conn.framed).events

theorem decodeStep_of_decodes {next : Connection σ} {events : List RpcEvent}
    (decodes : Decodes env conn next events) : decodeStep env conn = some (next, events) := by
  cases decodes with
  | header here enough => simp only [decodeStep, here, if_pos enough, decodeHeader_take here enough]
  | length16 here enough =>
      simp only [decodeStep, here, if_pos enough, decode16BitLength_take here enough]
  | length64 here enough =>
      simp only [decodeStep, here, if_pos enough, decode64BitLength_take env here enough]
  | maskKey here enough => simp only [decodeStep, here, if_neg enough, decodeMaskKey_take here enough]
  | payload here enough =>
      simp only [decodeStep, here, if_pos enough, decodePayload_take env here enough]

theorem decodes_or_blocked (conn : Connection σ) :
    (∃ next events, Decodes env conn next events) ∨ decodeStep env conn = none := by
  cases here : conn.wsState with
  | waitDecodeHeader =>
      by_cases enough : 2 ≤ conn.bl.length
      · exact .inl ⟨_, _, .header here enough⟩
      · exact .inr (by simp only [decodeStep, here, if_neg enough])
  | waitingFor16BitLength =>
      by_cases enough : 2 ≤ conn.bl.length
      · exact .inl ⟨_, _, .length16 here enough⟩
      · exact .inr (by simp only [decodeStep, here, if_neg enough])
  | waitingFor64BitLength =>
      by_cases enough : 8 ≤ conn.bl.length
      · exact .inl ⟨_, _, .length64 here enough⟩
      · exact .inr (by simp only [decodeStep, here, if_neg enough])
  | waitingForMaskKey =>
      by_cases short : conn.frame.mask = true ∧ conn.bl.length < 4
      · exact .inr (by simp only [decodeStep, here, if_pos short])
      · exact .inl ⟨_, _, .maskKey here short⟩
  | waitingForPayload =>
      by_cases enough : conn.frame.length ≤ conn.bl.length
      · exact .inl ⟨_, _, .payload here enough⟩
      · exact .inr (by simp only [decodeStep, here, if_neg enough])
  | doHeader | waitHttp | dead => exact .inr (by simp only [decodeStep, here])

/-- Every stage that is reached is one of the five. -/
theorem decodeStep_eq_some_iff {next : Connection σ} {events : List RpcEvent} :
    decodeStep env conn = some (next, events) ↔ Decodes env conn next events := by
  refine ⟨fun moved => ?_, decodeStep_of_decodes env⟩
  rcases decodes_or_blocked env conn with ⟨other, performed, decodes⟩ | blocked
  · obtain ⟨rfl, rfl⟩ := Prod.mk.inj (Option.some.inj (moved.symm.trans (decodeStep_of_decodes env decodes)))
    exact decodes
  · rw [blocked] at moved
    cases moved

end Stages

/-! ## What the decoder does not look at -/

/-- More bytes wait, and something else is left in the line reader. -/
def WSConnection.behind (rl data : Bytes) (conn : Connection σ) : Connection σ :=
  { conn with rl, bl := conn.bl ++ data }

section Behind

variable (rl data : Bytes)

theorem ignores_sendText (str : Bytes) :
    Proc.Ignores (WSConnection.behind rl data) (sendText str : Proc (Connection σ) RpcEvent Unit) := by
  refine Proc.ignores_ite ?_ (Proc.ignores_ite ?_ (Proc.ignores_pure ()))
  · exact (Proc.ignores_emit _).bind fun _ => Proc.ignores_emit _
  · exact (Proc.ignores_emit _).bind fun _ => Proc.ignores_emit _

theorem ignores_wsReply (line : Bytes) (authed : Bool) :
    Proc.Ignores (WSConnection.behind rl data)
      (wsReply env line authed : Proc (Connection σ) RpcEvent Bytes) := by
  refine Proc.ignores_ite ?_ (Proc.ignores_ite ?_ (Proc.ignores_pure _))
  · exact Proc.ignores_zoom (fun _ => rfl) fun _ _ => rfl
  · refine Proc.Ignores.bind (Proc.ignores_update ?_) fun _ => Proc.ignores_pure _
    intro conn
    rfl

theorem ignores_onText (line : Bytes) :
    Proc.Ignores (WSConnection.behind rl data) (onText env line : Proc (Connection σ) RpcEvent Unit) := by
  refine (Proc.ignores_emit _).bind fun _ => ?_
  refine Proc.ignores_read_bind (fun _ => rfl) fun conn => ?_
  refine (ignores_wsReply env rl data line conn.authed).bind fun result => ?_
  exact Proc.ignores_ite (ignores_sendText rl data result) (Proc.ignores_pure ())

theorem ignores_onFrame :
    Proc.Ignores (WSConnection.behind rl data) (onFrame env : Proc (Connection σ) RpcEvent Unit) := by
  refine Proc.ignores_read_bind (fun _ => rfl) fun conn => ?_
  refine (Proc.ignores_emit _).bind fun _ => ?_
  refine Proc.ignores_ite (Proc.ignores_emit _) (Proc.ignores_ite (Proc.ignores_pure ()) ?_)
  refine Proc.Ignores.bind (Proc.ignores_update ?_) fun _ => ignores_onText env rl data _
  intro conn
  rfl

theorem copyTo_append {bl : Bytes} {n : Nat} (enough : n ≤ bl.length) :
    listQueue.copyTo (bl ++ data) n = listQueue.copyTo bl n := by
  apply List.map_congr_left
  intro i within
  exact byteAt_append_left bl data i ((List.mem_range.mp within).trans_le enough)

theorem length64_append {bl : Bytes} (enough : 8 ≤ bl.length) :
    length64 env (byteAt (bl ++ data)) = length64 env (byteAt bl) := by
  apply List.foldl_ext
  intro length i within
  rw [byteAt_append_left bl data i ((List.mem_range.mp within).trans_le enough)]

theorem payload_behind {conn : Connection σ} (enough : conn.frame.length ≤ conn.bl.length) :
    (conn.behind rl data).payload listQueue = conn.payload listQueue := by
  change (if conn.frame.mask then unmask _ (listQueue.copyTo (conn.bl ++ data) conn.frame.length)
    else listQueue.copyTo (conn.bl ++ data) conn.frame.length) = _
  rw [copyTo_append data enough]
  rfl

theorem framed_behind {conn : Connection σ} (enough : conn.frame.length ≤ conn.bl.length) :
    (conn.behind rl data).framed = conn.framed.behind rl data := by
  simp only [WSConnection.framed, payload_behind rl data enough]
  simp only [WSConnection.behind, List.drop_append_of_le_length enough]

/-- Whatever waits behind the bytes of a stage, the stage does the same. -/
theorem Decodes.behind {conn next : Connection σ} {events : List RpcEvent}
    (decodes : Decodes env conn next events) :
    Decodes env (conn.behind rl data) (next.behind rl data) events := by
  have more (n : Nat) (enough : n ≤ conn.bl.length) : n ≤ (conn.behind rl data).bl.length := by
    rw [WSConnection.behind, List.length_append]
    exact enough.trans (Nat.le_add_right _ _)
  cases decodes with
  | header here enough =>
      have taken : Decodes env (conn.behind rl data) _ _ := .header here (more 2 enough)
      convert taken using 1
      simp only [WSConnection.behind, byteAt_append_left conn.bl data _ (show 0 < _ by omega),
        byteAt_append_left conn.bl data _ (show 1 < _ by omega), List.drop_append_of_le_length enough]
  | length16 here enough =>
      have taken : Decodes env (conn.behind rl data) _ _ := .length16 here (more 2 enough)
      convert taken using 1
      simp only [WSConnection.behind, byteAt_append_left conn.bl data _ (show 0 < _ by omega),
        byteAt_append_left conn.bl data _ (show 1 < _ by omega), List.drop_append_of_le_length enough]
  | length64 here enough =>
      have taken : Decodes env (conn.behind rl data) _ _ := .length64 here (more 8 enough)
      convert taken using 1
      simp only [WSConnection.behind, length64_append env data enough,
        List.drop_append_of_le_length enough]
  | maskKey here enough =>
      have enough' : ¬ (conn.frame.mask = true ∧ (conn.behind rl data).bl.length < 4) := by
        rintro ⟨masked, few⟩
        exact enough ⟨masked, lt_of_not_ge fun many => absurd (more 4 many) (not_le_of_gt few)⟩
      have taken : Decodes env (conn.behind rl data) _ _ := .maskKey here enough'
      convert taken using 1
      cases masked : conn.frame.mask with
      | true =>
          have many : 4 ≤ conn.bl.length := le_of_not_gt fun few => enough ⟨masked, few⟩
          simp [WSConnection.behind, masked, copyTo_append data many, List.drop_append_of_le_length many]
      | false => simp [WSConnection.behind, masked]
  | payload here enough =>
      have taken : Decodes env (conn.behind rl data) _ _ := .payload here (more _ enough)
      rw [framed_behind rl data enough, ignores_onFrame env rl data] at taken
      exact taken

theorem decodeStep_behind {conn next : Connection σ} {events : List RpcEvent}
    (moved : decodeStep env conn = some (next, events)) :
    decodeStep env (conn.behind rl data) = some (next.behind rl data, events) :=
  (decodeStep_eq_some_iff env).mpr (((decodeStep_eq_some_iff env).mp moved).behind env rl data)

end Behind

/-! ## The loop -/

/-- The computation takes the connection to where its stages take it. -/
def Settles (m : Proc (Connection σ) RpcEvent Unit) (conn : Connection σ) : Prop :=
  Rests (decodeStep env) conn (m conn).state (m conn).events

/-- The end of a pass. -/
def passEnd (passes : Nat) : Proc (Connection σ) RpcEvent Unit := do
  decodePayload env listQueue
  let conn ← Proc.read
  if conn.wsState = .waitDecodeHeader then decodeLoop env listQueue passes else pure ()

/-- A pass after its first stage. -/
def passRest (passes : Nat) : Proc (Connection σ) RpcEvent Unit := do
  decode16BitLength listQueue
  decode64BitLength env listQueue
  decodeMaskKey listQueue
  passEnd env passes

/-- What the loop looks at. -/
def WSConnection.progress (conn : Connection σ) : WSCState × Bytes := (conn.wsState, conn.bl)

/-- The event is not the arrival of bytes. -/
def NotAdded : RpcEvent → Prop
  | .add _ => False
  | _ => True

/-- What `onFrame` may perform for a frame. -/
def Answers : RpcEvent → Prop
  | .message _ | .onMessage _ | .write _ | .close => True
  | _ => False

theorem Answers.notAdded {event : RpcEvent} (answers : Answers event) : NotAdded event := by
  cases event with
  | add data => exact answers
  | message | onMessage | write | frame | close | openFile => trivial

theorem sendText_progress (str : Bytes) :
    (sendText str : Proc (Connection σ) RpcEvent Unit).Framed WSConnection.progress Answers := by
  refine Proc.framed_ite ?_ (Proc.framed_ite ?_ (Proc.framed_pure ()))
  · exact (Proc.framed_emit trivial).bind fun _ => Proc.framed_emit trivial
  · exact (Proc.framed_emit trivial).bind fun _ => Proc.framed_emit trivial

theorem wsReply_progress (line : Bytes) (authed : Bool) :
    (wsReply env line authed : Proc (Connection σ) RpcEvent Bytes).Framed WSConnection.progress
      Answers := by
  refine Proc.framed_ite ?_ (Proc.framed_ite ?_ (Proc.framed_pure _))
  · refine Proc.framed_zoom (fun _ _ => rfl) fun server event member => ?_
    obtain rfl : event = .onMessage line := by simpa [callOnMessage] using member
    trivial
  · exact (Proc.framed_update (by exact fun _ => rfl)).bind fun _ => Proc.framed_pure _

/-- `onFrame` after it was invoked. -/
def handleFrame {β : Type} (frame : WSFrame) : Proc (WSConnection β σ) RpcEvent Unit :=
  if frame.opcode = 8 then
    Proc.emit .close
  else if frame.opcode ≠ 1 then
    pure ()
  else do
    Proc.update fun conn => { conn with frame.data := [] }
    onText env frame.data

theorem onFrame_eq {β : Type} (conn : WSConnection β σ) :
    onFrame env conn =
      ⟨(), (handleFrame env conn.frame conn).state,
        .frame conn.frame :: (handleFrame env conn.frame conn).events⟩ := rfl

theorem handleFrame_progress (frame : WSFrame) :
    (handleFrame env frame : Proc (Connection σ) RpcEvent Unit).Framed WSConnection.progress Answers := by
  refine Proc.framed_ite (Proc.framed_emit trivial) (Proc.framed_ite (Proc.framed_pure ()) ?_)
  refine (Proc.framed_update (by exact fun _ => rfl)).bind fun _ => ?_
  refine (Proc.framed_emit trivial).bind fun _ => Proc.framed_read.bind fun conn => ?_
  refine (wsReply_progress env _ _).bind fun result => ?_
  exact Proc.framed_ite (sendText_progress result) (Proc.framed_pure ())

theorem onFrame_progress :
    (onFrame env : Proc (Connection σ) RpcEvent Unit).Framed WSConnection.progress NotAdded := by
  intro conn
  obtain ⟨kept, answers⟩ := handleFrame_progress env conn.frame conn
  rw [onFrame_eq]
  refine ⟨kept, ?_⟩
  rw [Proc.Emits, onFrame_eq]
  exact List.forall_mem_cons.mpr ⟨trivial, fun event member => (answers event member).notAdded⟩

section Pass

variable {conn : Connection σ} (passes : Nat)

/-- A pass without the bytes it needs does nothing. -/
theorem passRest_blocked (blocked : decodeStep env conn = none)
    (other : conn.wsState ≠ .waitDecodeHeader) : passRest env passes conn = ⟨(), conn, []⟩ := by
  have idle {next : Connection σ} {events : List RpcEvent} (decodes : Decodes env conn next events) :
      False := by
    rw [decodeStep_of_decodes env decodes] at blocked
    cases blocked
  have skip16 : conn.wsState ≠ .waitingFor16BitLength ∨ ¬ 2 ≤ conn.bl.length := by
    by_contra! both
    exact idle (.length16 both.1 both.2)
  have skip64 : conn.wsState ≠ .waitingFor64BitLength ∨ ¬ 8 ≤ conn.bl.length := by
    by_contra! both
    exact idle (.length64 both.1 both.2)
  have skipMask : conn.wsState ≠ .waitingForMaskKey ∨ conn.frame.mask = true ∧ conn.bl.length < 4 := by
    by_contra! both
    exact idle (.maskKey both.1 fun short => absurd (both.2 short.1) (not_le_of_gt short.2))
  have skipPayload : conn.wsState ≠ .waitingForPayload ∨ ¬ conn.frame.length ≤ conn.bl.length := by
    by_contra! both
    exact idle (.payload both.1 both.2)
  rw [passRest, Proc.bind_of_quiet conn (decode16BitLength_skip skip16),
    Proc.bind_of_quiet conn (decode64BitLength_skip env skip64),
    Proc.bind_of_quiet conn (decodeMaskKey_skip skipMask),
    passEnd, Proc.bind_of_quiet conn (decodePayload_skip env skipPayload)]
  ext1 <;> simp [other]

theorem passRest_payload (here : conn.wsState = .waitingForPayload) :
    passRest env passes conn = passEnd env passes conn := by
  rw [passRest, Proc.bind_of_quiet conn (decode16BitLength_skip (.inl (by simp [here]))),
    Proc.bind_of_quiet conn (decode64BitLength_skip env (.inl (by simp [here]))),
    Proc.bind_of_quiet conn (decodeMaskKey_skip (.inl (by simp [here])))]

theorem passRest_maskKey (here : conn.wsState = .waitingForMaskKey) :
    passRest env passes conn = (do decodeMaskKey listQueue; passEnd env passes) conn := by
  rw [passRest, Proc.bind_of_quiet conn (decode16BitLength_skip (.inl (by simp [here]))),
    Proc.bind_of_quiet conn (decode64BitLength_skip env (.inl (by simp [here])))]

theorem passRest_64BitLength (here : conn.wsState = .waitingFor64BitLength) :
    passRest env passes conn =
      (do decode64BitLength env listQueue; decodeMaskKey listQueue; passEnd env passes) conn := by
  rw [passRest, Proc.bind_of_quiet conn (decode16BitLength_skip (.inl (by simp [here])))]

theorem settles_blocked (blocked : decodeStep env conn = none)
    (other : conn.wsState ≠ .waitDecodeHeader) : Settles env (passRest env passes) conn := by
  rw [Settles, passRest_blocked env passes blocked other]
  exact .stop blocked

/-- A stage of a pass that is followed by the next one. -/
theorem settles_move {m : Proc (Connection σ) RpcEvent Unit} {next : Connection σ}
    (moved : decodeStep env conn = some (next, [])) (goesOn : m conn = passRest env passes next)
    (settles : Settles env (passRest env passes) next) : Settles env m conn := by
  rw [Settles, goesOn]
  exact (Rests.move moved settles :)

variable {passes}
variable (loops : ∀ next : Connection σ, next.wsState = .waitDecodeHeader → next.bl.length < passes →
  Settles env (decodeLoop env listQueue passes) next)
include loops

theorem settles_payload (here : conn.wsState = .waitingForPayload) (short : conn.bl.length < passes) :
    Settles env (passRest env passes) conn := by
  by_cases enough : conn.frame.length ≤ conn.bl.length
  · have moved := decodeStep_of_decodes env (.payload here enough)
    obtain ⟨kept, -⟩ := onFrame_progress env conn.framed
    have again : (onFrame env conn.framed).state.wsState = .waitDecodeHeader := congrArg Prod.fst kept
    have left : (onFrame env conn.framed).state.bl = conn.bl.drop conn.frame.length :=
      congrArg Prod.snd kept
    have settles := loops _ again (by rw [left, List.length_drop]; omega)
    have ends : passRest env passes conn =
        ⟨(), (decodeLoop env listQueue passes (onFrame env conn.framed).state).state,
          (onFrame env conn.framed).events ++
            (decodeLoop env listQueue passes (onFrame env conn.framed).state).events⟩ := by
      rw [passRest_payload env passes here, passEnd]
      ext1 <;> simp [decodePayload_take env here enough, again]
    rw [Settles, ends]
    exact .move moved settles
  · exact settles_blocked env passes (by simp [decodeStep, here, enough]) (by simp [here])

theorem settles_maskKey (here : conn.wsState = .waitingForMaskKey) (short : conn.bl.length < passes) :
    Settles env (passRest env passes) conn := by
  by_cases blocked : conn.frame.mask = true ∧ conn.bl.length < 4
  · exact settles_blocked env passes (by simp [decodeStep, here, blocked]) (by simp [here])
  · have took := decodeMaskKey_take here blocked
    have moved := decodeStep_of_decodes env (.maskKey here blocked)
    refine settles_move env passes moved ?_ (settles_payload env loops rfl ?_)
    · rw [passRest_maskKey env passes here, Proc.bind_of_quiet conn took, passRest_payload env passes rfl]
    · dsimp only
      split
      · rw [List.length_drop]
        omega
      · exact short

theorem settles_64BitLength (here : conn.wsState = .waitingFor64BitLength)
    (short : conn.bl.length < passes) : Settles env (passRest env passes) conn := by
  by_cases enough : 8 ≤ conn.bl.length
  · have took := decode64BitLength_take env here enough
    have moved := decodeStep_of_decodes env (.length64 here enough)
    refine settles_move env passes moved ?_ (settles_maskKey env loops rfl ?_)
    · rw [passRest_64BitLength env passes here, Proc.bind_of_quiet conn took,
        passRest_maskKey env passes rfl]
    · rw [List.length_drop]
      omega
  · exact settles_blocked env passes (by simp [decodeStep, here, enough]) (by simp [here])

theorem settles_16BitLength (here : conn.wsState = .waitingFor16BitLength)
    (short : conn.bl.length < passes) : Settles env (passRest env passes) conn := by
  by_cases enough : 2 ≤ conn.bl.length
  · have took := decode16BitLength_take here enough
    have moved := decodeStep_of_decodes env (.length16 here enough)
    refine settles_move env passes moved ?_ (settles_maskKey env loops rfl ?_)
    · refine (Proc.bind_of_quiet conn took _).trans ?_
      rw [passRest_maskKey env passes rfl]
      exact Proc.bind_of_quiet _ (decode64BitLength_skip env (.inl (by simp))) _
    · rw [List.length_drop]
      omega
  · exact settles_blocked env passes (by simp [decodeStep, here, enough]) (by simp [here])

/-- A pass that starts within a frame. -/
theorem settles_passRest (other : conn.wsState ≠ .waitDecodeHeader) (short : conn.bl.length < passes) :
    Settles env (passRest env passes) conn := by
  cases here : conn.wsState with
  | waitDecodeHeader => exact absurd here other
  | waitingFor16BitLength => exact settles_16BitLength env loops here short
  | waitingFor64BitLength => exact settles_64BitLength env loops here short
  | waitingForMaskKey => exact settles_maskKey env loops here short
  | waitingForPayload => exact settles_payload env loops here short
  | doHeader | waitHttp | dead =>
      exact settles_blocked env passes (by simp [decodeStep, here]) other

end Pass

theorem lengthState_ne_header (length : Nat) : lengthState length ≠ .waitDecodeHeader := by
  unfold lengthState
  split
  · nofun
  · split <;> nofun

/-- The loop at the start of a frame, with passes enough for the bytes there are. -/
theorem settles_header (passes : Nat) (conn : Connection σ) (here : conn.wsState = .waitDecodeHeader)
    (short : conn.bl.length < passes) : Settles env (decodeLoop env listQueue passes) conn := by
  induction passes generalizing conn with
  | zero => exact absurd short (Nat.not_lt_zero _)
  | succ passes ih =>
      by_cases enough : 2 ≤ conn.bl.length
      · have took := decodeHeader_take here enough
        have moved := decodeStep_of_decodes env (.header here enough)
        refine settles_move env passes moved ?_ (settles_passRest env ih (lengthState_ne_header _) ?_)
        · rw [decodeLoop, Proc.bind_of_quiet conn took]
          rfl
        · rw [List.length_drop]
          omega
      · have blocked : decodeStep env conn = none := by simp [decodeStep, here, enough]
        have stays : decodeLoop env listQueue (passes + 1) conn = ⟨(), conn, []⟩ := by
          rw [decodeLoop, Proc.bind_of_quiet conn (decodeHeader_short here enough)]
          rfl
        rw [Settles, stays]
        exact .stop blocked

/-- The loop from any stage, with passes enough. -/
theorem settles_decodeLoop_of_lt {passes : Nat} {conn : Connection σ} (short : conn.bl.length + 1 < passes) :
    Settles env (decodeLoop env listQueue passes) conn := by
  by_cases here : conn.wsState = .waitDecodeHeader
  · exact settles_header env _ conn here (by omega)
  · obtain ⟨passes, rfl⟩ : ∃ less, passes = less + 1 := ⟨passes - 1, by omega⟩
    have rest : decodeLoop env listQueue (passes + 1) conn = passRest env passes conn := by
      rw [decodeLoop, Proc.bind_of_quiet conn (decodeHeader_skip here)]
      rfl
    rw [Settles, rest]
    exact settles_passRest env (settles_header env _) here (by omega)

theorem settles_decodeLoop (conn : Connection σ) :
    Settles env (decodeLoop env listQueue (listQueue.passes conn.bl)) conn :=
  settles_decodeLoop_of_lt env (Nat.lt_succ_self _)

/-- The loop ends before its passes do: more of them change nothing. -/
theorem decodeLoop_passes {passes : Nat} {conn : Connection σ} (enough : listQueue.passes conn.bl ≤ passes) :
    decodeLoop env listQueue passes conn =
      decodeLoop env listQueue (listQueue.passes conn.bl) conn := by
  have settles : Settles env (decodeLoop env listQueue passes) conn :=
    settles_decodeLoop_of_lt env enough
  obtain ⟨sameState, sameEvents⟩ := settles.unique (settles_decodeLoop env conn)
  exact Outcome.ext rfl sameState sameEvents

/-! ## Data events -/

/-- The upgrade is done and the connection reads frames. -/
def WSConnection.Upgraded (conn : Connection σ) : Prop :=
  conn.wsState ≠ .doHeader ∧ conn.wsState ≠ .waitHttp ∧ conn.wsState ≠ .dead

/-- The bytes that were added to the queue. -/
def addedBytes (events : List RpcEvent) : Bytes :=
  events.flatMap fun event =>
    match event with
    | .add data => data
    | _ => []

/-- The frames that `onFrame` was invoked with. -/
def frames (events : List RpcEvent) : List WSFrame :=
  events.filterMap fun event =>
    match event with
    | .frame frame => some frame
    | _ => none

@[simp] theorem addedBytes_append (first second : List RpcEvent) :
    addedBytes (first ++ second) = addedBytes first ++ addedBytes second := List.flatMap_append

@[simp] theorem frames_append (first second : List RpcEvent) :
    frames (first ++ second) = frames first ++ frames second := List.filterMap_append

theorem addedBytes_eq_nil {events : List RpcEvent} (quiet : ∀ event ∈ events, NotAdded event) :
    addedBytes events = [] := by
  apply List.flatMap_eq_nil_iff.mpr
  intro event member
  cases event with
  | add data => exact absurd (quiet _ member) id
  | message | onMessage | write | frame | close | openFile => rfl

theorem lengthState_upgraded (length : Nat) :
    lengthState length ≠ .doHeader ∧ lengthState length ≠ .waitHttp ∧ lengthState length ≠ .dead := by
  unfold lengthState
  split
  · exact ⟨nofun, nofun, nofun⟩
  · split <;> exact ⟨nofun, nofun, nofun⟩

theorem upgraded_of_waiting {conn : Connection σ} (here : conn.wsState = .waitDecodeHeader) :
    conn.Upgraded := by
  rw [WSConnection.Upgraded, here]
  exact ⟨nofun, nofun, nofun⟩

/-- A stage stays within the frames and adds no bytes. -/
theorem Decodes.upgraded {conn next : Connection σ} {events : List RpcEvent}
    (decodes : Decodes env conn next events) : next.Upgraded ∧ ∀ event ∈ events, NotAdded event := by
  cases decodes with
  | header here enough => exact ⟨lengthState_upgraded _, nofun⟩
  | length16 here enough => exact ⟨⟨nofun, nofun, nofun⟩, nofun⟩
  | length64 here enough => exact ⟨⟨nofun, nofun, nofun⟩, nofun⟩
  | maskKey here enough => exact ⟨⟨nofun, nofun, nofun⟩, nofun⟩
  | payload here enough =>
      obtain ⟨kept, quiet⟩ := onFrame_progress env conn.framed
      exact ⟨upgraded_of_waiting (congrArg Prod.fst kept), quiet⟩

theorem rests_upgraded {conn final : Connection σ} {events : List RpcEvent} (upgraded : conn.Upgraded)
    (rests : Rests (decodeStep env) conn final events) :
    final.Upgraded ∧ ∀ event ∈ events, NotAdded event := by
  induction rests with
  | stop blocked => exact ⟨upgraded, nofun⟩
  | move moved rests ih =>
      obtain ⟨next, quiet⟩ := ((decodeStep_eq_some_iff env).mp moved).upgraded env
      obtain ⟨last, quietRest⟩ := ih next
      exact ⟨last, List.forall_mem_append.mpr ⟨quiet, quietRest⟩⟩

theorem behind_behind (rl rl' data data' : Bytes) (conn : Connection σ) :
    (conn.behind rl data).behind rl' data' = conn.behind rl' (data ++ data') := by
  simp [WSConnection.behind]

theorem behind_self (conn : Connection σ) : conn.behind conn.rl [] = conn := by
  simp [WSConnection.behind]

/-- Whether a stage is ready does not depend on the line reader. -/
theorem decodeStep_blocked_behind {conn : Connection σ} (blocked : decodeStep env conn = none)
    (rl : Bytes) : decodeStep env (conn.behind rl []) = none := by
  cases moved : decodeStep env (conn.behind rl []) with
  | none => rfl
  | some result =>
      have unchanged := decodeStep_behind env conn.rl [] moved
      rw [behind_behind, List.append_nil, behind_self, blocked] at unchanged
      cases unchanged

theorem wsOnData_upgraded {conn : Connection σ} (upgraded : conn.Upgraded) (data : Bytes) :
    wsOnData env listQueue data conn =
      ⟨(), (decodeLoop env listQueue (listQueue.passes (conn.behind conn.rl data).bl)
          (conn.behind conn.rl data)).state,
        .add data :: (decodeLoop env listQueue (listQueue.passes (conn.behind conn.rl data).bl)
          (conn.behind conn.rl data)).events⟩ := by
  obtain ⟨notHeader, notHttp, notDead⟩ := upgraded
  ext1 <;> simp [wsOnData, notHeader, notHttp, notDead, listQueue, WSConnection.behind]

/-- However the bytes are cut into data events, the stages and the frames are
those of all the bytes at once. -/
theorem upgraded_run (chunks : List Bytes) {conn : Connection σ} (upgraded : conn.Upgraded)
    (resting : decodeStep env conn = none) :
    let run := Proc.runAll (wsOnData env listQueue) chunks conn
    addedBytes run.events = chunks.flatten ∧
      ∃ events, frames run.events = frames events ∧
        ∀ rl, Rests (decodeStep env) (conn.behind rl chunks.flatten) (run.state.behind rl []) events := by
  induction chunks generalizing conn with
  | nil => exact ⟨rfl, [], rfl, fun rl => .stop (decodeStep_blocked_behind env resting rl)⟩
  | cons chunk rest ih =>
      have settles := settles_decodeLoop env (conn.behind conn.rl chunk)
      have within : (conn.behind conn.rl chunk).Upgraded := upgraded
      obtain ⟨next, quiet⟩ := rests_upgraded env within settles
      obtain ⟨added, events, sameFrames, rests⟩ := ih next settles.blocked
      have taken := wsOnData_upgraded env upgraded chunk
      have whole (rl : Bytes) := Rests.append
        (fun _ _ _ moved => decodeStep_behind env rl rest.flatten moved) settles (rests rl)
      simp only [behind_behind] at whole
      dsimp only
      rw [Proc.runAll_cons_state, Proc.runAll_cons_events, taken]
      refine ⟨?_, _, ?_, whole⟩
      · rw [addedBytes_append, added]
        change (chunk ++ addedBytes _) ++ _ = _
        rw [addedBytes_eq_nil quiet, List.append_nil, List.flatten_cons]
      · rw [frames_append, sameFrames, frames_append]
        rfl

end SwitchLanPlay.Rpc
