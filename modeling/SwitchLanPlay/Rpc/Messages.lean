import SwitchLanPlay.Rpc.Authentication
import SwitchLanPlay.Rpc.Handshake

/-!
# Which texts are executed

`onFrame` executes the payload of every frame with opcode 1 and looks neither at
`fin` nor at continuation frames.  A Close frame closes the handle, so that later
data events do not arrive, but the loop of `onData` goes on with the frames that
came with it.
-/

namespace SwitchLanPlay.Rpc

open Library

/-! ## Messages -/

/-- The strings that were passed to the callback. -/
def executed (events : List RpcEvent) : List Bytes :=
  events.filterMap fun event =>
    match event with
    | .onMessage text => some text
    | _ => none

/-- The payloads of text frames. -/
def texts (frames : List WSFrame) : List Bytes :=
  frames.filterMap fun frame => if frame.opcode = 1 then some frame.data else none

/-- The complete text messages before the first Close frame: a text frame and its
continuation frames up to the final one.  `pending` is the text of a message that is
not complete.  Control frames may come between its frames, other data frames end it. -/
def wholeTexts : Option Bytes → List WSFrame → List Bytes
  | _, [] => []
  | pending, frame :: rest =>
      if frame.opcode = 8 then []
      else if frame.opcode = 1 then
        if frame.fin then frame.data :: wholeTexts none rest else wholeTexts (some frame.data) rest
      else if frame.opcode = 0 then
        match pending with
        | none => wholeTexts none rest
        | some text =>
            if frame.fin then (text ++ frame.data) :: wholeTexts none rest
            else wholeTexts (some (text ++ frame.data)) rest
      else if frame.opcode < 8 then wholeTexts none rest
      else wholeTexts pending rest

/-- Every text frame is final and comes before the first Close frame. -/
structure OnlyWholeTexts (frames : List WSFrame) : Prop where
  final : ∀ frame ∈ frames, frame.opcode = 1 → frame.fin = true
  before : ∀ frame ∈ frames.dropWhile (fun frame => frame.opcode ≠ 8), frame.opcode ≠ 1

section WholeTexts

variable {frame : WSFrame} {rest : List WSFrame}

theorem texts_cons_text (text : frame.opcode = 1) : texts (frame :: rest) = frame.data :: texts rest := by
  simp [texts, text]

theorem texts_cons_other (other : frame.opcode ≠ 1) : texts (frame :: rest) = texts rest := by
  simp [texts, other]

theorem texts_eq_nil_iff {frames : List WSFrame} : texts frames = [] ↔ ∀ frame ∈ frames, frame.opcode ≠ 1 := by
  simp [texts, List.filterMap_eq_nil_iff]

theorem onlyWholeTexts_cons_close (close : frame.opcode = 8) :
    OnlyWholeTexts (frame :: rest) ↔ texts rest = [] := by
  have stops : (frame :: rest).dropWhile (fun frame => frame.opcode ≠ 8) = frame :: rest := by
    simp [close]
  rw [texts_eq_nil_iff]
  constructor
  · intro whole other member
    refine whole.before other ?_
    rw [stops]
    exact List.mem_cons_of_mem _ member
  · intro noText
    have none : ∀ other ∈ frame :: rest, other.opcode ≠ 1 :=
      List.forall_mem_cons.mpr ⟨by rw [close]; decide, noText⟩
    refine ⟨fun other member text => absurd text (none other member), ?_⟩
    rw [stops]
    exact none

theorem onlyWholeTexts_cons (other : frame.opcode ≠ 8) :
    OnlyWholeTexts (frame :: rest) ↔ (frame.opcode = 1 → frame.fin = true) ∧ OnlyWholeTexts rest := by
  have goesOn : (frame :: rest).dropWhile (fun frame => frame.opcode ≠ 8) =
      rest.dropWhile (fun frame => frame.opcode ≠ 8) := by
    simp [other]
  constructor
  · intro whole
    obtain ⟨first, others⟩ := List.forall_mem_cons.mp whole.final
    have before := whole.before
    rw [goesOn] at before
    exact ⟨first, others, before⟩
  · rintro ⟨first, whole⟩
    refine ⟨List.forall_mem_cons.mpr ⟨first, whole.final⟩, ?_⟩
    rw [goesOn]
    exact whole.before

end WholeTexts

/-- If every text frame is a whole message, the messages are the text frames. -/
theorem wholeTexts_of_onlyWholeTexts {frames : List WSFrame} (whole : OnlyWholeTexts frames) :
    wholeTexts none frames = texts frames := by
  induction frames with
  | nil => rfl
  | cons frame rest ih =>
      rw [wholeTexts]
      by_cases close : frame.opcode = 8
      · have noText : frame.opcode ≠ 1 := by rw [close]; decide
        rw [if_pos close, texts_cons_other noText, (onlyWholeTexts_cons_close close).mp whole]
      · obtain ⟨final, others⟩ := (onlyWholeTexts_cons close).mp whole
        rw [if_neg close]
        by_cases text : frame.opcode = 1
        · rw [if_pos text, if_pos (final text), texts_cons_text text, ih others]
        · rw [if_neg text, texts_cons_other text, ← ih others]
          simp only [ite_self]

/-- A message needs a text frame. -/
theorem length_wholeTexts_le (pending : Option Bytes) (frames : List WSFrame) :
    (wholeTexts pending frames).length ≤ (texts frames).length + pending.toList.length := by
  fun_induction wholeTexts pending frames with
  | case1 => exact Nat.zero_le _
  | case2 => exact Nat.zero_le _
  | case3 pending frame rest _ text final ih =>
      rw [texts_cons_text text, List.length_cons, List.length_cons]
      simp only [Option.toList_none, List.length_nil] at ih
      omega
  | case4 pending frame rest _ text final ih =>
      rw [texts_cons_text text, List.length_cons]
      simp only [Option.toList_some, List.length_singleton] at ih
      omega
  | case5 frame rest _ noText continuation ih => rwa [texts_cons_other noText]
  | case6 frame rest _ noText continuation text final ih =>
      rw [texts_cons_other noText]
      simp only [Option.toList_none, Option.toList_some, List.length_nil, List.length_cons] at ih ⊢
      omega
  | case7 frame rest _ noText continuation text final ih => rwa [texts_cons_other noText]
  | case8 pending frame rest _ noText _ data ih =>
      rw [texts_cons_other noText]
      exact Nat.le_add_right_of_le ih
  | case9 pending frame rest _ noText _ control ih => rwa [texts_cons_other noText]

/-- What becomes of a text that is pending: it is dropped, or completed by more. -/
theorem wholeTexts_pending (text : Bytes) {frames : List WSFrame}
    (filled : ∀ frame ∈ frames, frame.opcode = 0 → frame.data ≠ []) :
    (wholeTexts (some text) frames).length ≤ (texts frames).length ∨
      ∃ more, more ≠ [] ∧ (wholeTexts (some text) frames).head? = some (text ++ more) := by
  induction frames generalizing text with
  | nil => exact .inl (Nat.le_refl 0)
  | cons frame rest ih =>
      obtain ⟨first, others⟩ := List.forall_mem_cons.mp filled
      rw [wholeTexts]
      by_cases close : frame.opcode = 8
      · rw [if_pos close]
        exact .inl (Nat.zero_le _)
      rw [if_neg close]
      by_cases isText : frame.opcode = 1
      · rw [if_pos isText, texts_cons_text isText]
        left
        split
        · exact Nat.succ_le_succ (length_wholeTexts_le none rest)
        · exact length_wholeTexts_le (some frame.data) rest
      rw [if_neg isText, texts_cons_other isText]
      by_cases continuation : frame.opcode = 0
      · rw [if_pos continuation]
        split
        · exact .inr ⟨frame.data, first continuation, rfl⟩
        · rcases ih (text ++ frame.data) others with dropped | ⟨more, -, completed⟩
          · exact .inl dropped
          · refine .inr ⟨frame.data ++ more, by simp [first continuation], ?_⟩
            rw [completed, List.append_assoc]
      rw [if_neg continuation]
      by_cases data : frame.opcode < 8
      · rw [if_pos data]
        exact .inl (length_wholeTexts_le none rest)
      · rw [if_neg data]
        exact ih text others

/-- With continuations that are not empty, other frames make a difference. -/
theorem onlyWholeTexts_of_wholeTexts {frames : List WSFrame}
    (filled : ∀ frame ∈ frames, frame.opcode = 0 → frame.data ≠ [])
    (same : texts frames = wholeTexts none frames) : OnlyWholeTexts frames := by
  induction frames with
  | nil => exact ⟨nofun, nofun⟩
  | cons frame rest ih =>
      obtain ⟨-, others⟩ := List.forall_mem_cons.mp filled
      rw [wholeTexts] at same
      by_cases close : frame.opcode = 8
      · have noText : frame.opcode ≠ 1 := by rw [close]; decide
        rw [if_pos close, texts_cons_other noText] at same
        exact (onlyWholeTexts_cons_close close).mpr same
      rw [if_neg close] at same
      rw [onlyWholeTexts_cons close]
      by_cases isText : frame.opcode = 1
      · rw [if_pos isText, texts_cons_text isText] at same
        by_cases final : frame.fin = true
        · rw [if_pos final] at same
          exact ⟨fun _ => final, ih others (List.cons.inj same).2⟩
        · rw [if_neg final] at same
          exfalso
          rcases wholeTexts_pending frame.data others with dropped | ⟨more, filledMore, completed⟩
          · rw [← same, List.length_cons] at dropped
            omega
          · rw [← same, List.head?_cons] at completed
            exact filledMore (List.self_eq_append_right.mp (Option.some.inj completed))
      · rw [if_neg isText, texts_cons_other isText] at same
        simp only [ite_self] at same
        exact ⟨fun text => absurd text isText, ih others same⟩

/-- Nothing behind a Close frame matters. -/
theorem wholeTexts_append {first : List WSFrame} (closes : ∃ frame ∈ first, frame.opcode = 8)
    (second : List WSFrame) (pending : Option Bytes) :
    wholeTexts pending (first ++ second) = wholeTexts pending first := by
  induction first generalizing pending with
  | nil =>
      obtain ⟨frame, member, -⟩ := closes
      cases member
  | cons frame rest ih =>
      by_cases close : frame.opcode = 8
      · simp only [List.cons_append, wholeTexts, if_pos close]
      · have later : ∃ frame ∈ rest, frame.opcode = 8 := by
          obtain ⟨other, member, closing⟩ := closes
          rcases List.mem_cons.mp member with rfl | inRest
          · exact absurd closing close
          · exact ⟨other, inRest, closing⟩
        simp only [List.cons_append, wholeTexts, ih later]

/-! ## What a data event executes -/

section Session

variable {β σ : Type} (env : RpcEnv σ) (queue : ByteQueue β)

/-- The event is about no frame. -/
def Silent : RpcEvent → Prop
  | .onMessage _ | .frame _ | .close => False
  | _ => True

/-- What holds of an authenticated connection and of its trace. -/
structure Executing (conn : WSConnection β σ) (trace : List RpcEvent) : Prop where
  authed : conn.authed = true
  executes : executed trace = texts (frames trace)
  closed : .close ∈ trace ↔ ∃ frame ∈ frames trace, frame.opcode = 8

theorem executed_append (first second : List RpcEvent) :
    executed (first ++ second) = executed first ++ executed second := List.filterMap_append

theorem texts_append (first second : List WSFrame) : texts (first ++ second) = texts first ++ texts second :=
  List.filterMap_append

theorem executing_start {conn : WSConnection β σ} (authed : conn.authed = true) : Executing conn [] :=
  ⟨authed, rfl, iff_of_false nofun nofun⟩

section Silent

variable {events : List RpcEvent} (silent : ∀ event ∈ events, Silent event)
include silent

theorem executed_silent : executed events = [] := by
  apply List.filterMap_eq_nil_iff.mpr
  intro event member
  cases event with
  | onMessage text => exact absurd (silent _ member) id
  | message | write | add | frame | close | openFile => rfl

theorem frames_silent : frames events = [] := by
  apply List.filterMap_eq_nil_iff.mpr
  intro event member
  cases event with
  | frame frame => exact absurd (silent _ member) id
  | message | onMessage | write | add | close | openFile => rfl

theorem Executing.append_silent {conn next : WSConnection β σ} {trace : List RpcEvent}
    (executing : Executing conn trace) (authed : next.authed = true) :
    Executing next (trace ++ events) := by
  have noClose : .close ∉ events := fun member => silent _ member
  refine ⟨authed, ?_, ?_⟩
  · rw [executed_append, frames_append, executed_silent silent, frames_silent silent, List.append_nil,
      List.append_nil, executing.executes]
  · rw [frames_append, frames_silent silent, List.append_nil, ← executing.closed, List.mem_append,
      or_iff_left noClose]

end Silent

theorem executing_of_framed {α : Type} {m : Proc (WSConnection β σ) RpcEvent α}
    (framed : m.Framed WSConnection.guard Silent) : Proc.Triple Executing m fun _ => Executing := by
  intro conn past executing
  obtain ⟨kept, silent⟩ := framed conn
  have sameAuthed : (m conn).state.authed = conn.authed := congrArg Prod.fst kept
  exact executing.append_silent silent (sameAuthed.trans executing.authed)

/-- A frame, and its text or its close. -/
theorem Executing.snoc_frame {conn : WSConnection β σ} {trace : List RpcEvent}
    (executing : Executing conn trace) (frame : WSFrame) :
    Executing conn (trace ++ .frame frame ::
      if frame.opcode = 8 then [.close]
      else if frame.opcode = 1 then [.message frame.data, .onMessage frame.data] else []) := by
  refine ⟨executing.authed, ?_, ?_⟩
  · rw [executed_append, frames_append, texts_append, executing.executes]
    congr 1
    by_cases close : frame.opcode = 8
    · simp [executed, frames, texts, close]
    · by_cases text : frame.opcode = 1 <;> simp [executed, frames, texts, close, text]
  · rw [List.mem_append, executing.closed, frames_append]
    by_cases close : frame.opcode = 8
    · simp [frames, close]
    · by_cases text : frame.opcode = 1 <;> simp [frames, close, text, or_and_right, exists_or]

/-- What is done with the result of a text. -/
def sendResult (result : Bytes) : Proc (WSConnection β σ) RpcEvent Unit :=
  if result.length > 0 then sendText result else pure ()

theorem onText_authed {conn : WSConnection β σ} (authed : conn.authed = true) (line : Bytes) :
    onText env line conn =
      let sent := sendResult (env.onMessage line conn.server).1
        { conn with server := (env.onMessage line conn.server).2 }
      ⟨(), sent.state, [.message line, .onMessage line] ++ sent.events⟩ := by
  cases conn
  subst authed
  rfl

theorem sendResult_framed (result : Bytes) :
    (sendResult result : Proc (WSConnection β σ) RpcEvent Unit).Framed WSConnection.guard Silent :=
  Proc.framed_ite (sendText_framed (fun _ => trivial) result) (Proc.framed_pure ())

theorem onFrame_text {conn : WSConnection β σ} (text : conn.frame.opcode = 1) :
    onFrame env conn =
      let done := onText env conn.frame.data { conn with frame.data := [] }
      ⟨(), done.state, .frame conn.frame :: done.events⟩ := by
  have notClose : conn.frame.opcode ≠ 8 := by rw [text]; decide
  rw [onFrame_eq, handleFrame, if_neg notClose, if_neg (not_not_intro text)]
  rfl

theorem onFrame_executing : Proc.Triple Executing (onFrame env : Proc (WSConnection β σ) RpcEvent Unit)
    fun _ => Executing := by
  intro conn past executing
  have after := executing.snoc_frame conn.frame
  by_cases close : conn.frame.opcode = 8
  · rw [if_pos close] at after
    rw [onFrame_eq, handleFrame, if_pos close]
    exact after
  rw [if_neg close] at after
  by_cases text : conn.frame.opcode = 1
  · rw [if_pos text] at after
    rw [onFrame_text env text, onText_authed env (by exact executing.authed)]
    obtain ⟨kept, silent⟩ := sendResult_framed (env.onMessage conn.frame.data conn.server).1
      { conn with frame.data := [], server := (env.onMessage conn.frame.data conn.server).2 }
    have authed := (congrArg Prod.fst kept).trans executing.authed
    have more := after.append_silent silent authed
    rw [List.append_assoc] at more
    exact more
  · rw [if_neg text] at after
    rw [onFrame_eq, handleFrame, if_neg close, if_pos text]
    exact after

/-- A data event of an authenticated connection executes the texts it completes. -/
theorem wsOnData_executing {conn : WSConnection β σ} (authed : conn.authed = true) (data : Bytes) :
    Executing (wsOnData env queue data conn).state (wsOnData env queue data conn).events :=
  triple_wsOnData env queue executing_of_framed (onFrame_executing env) (fun _ => trivial)
    (fun _ => trivial) (fun _ => trivial) data conn [] (executing_start authed)

/-! ## Sessions -/

/-- A connection and whether its handle was closed. -/
structure Session (β σ : Type) where
  conn : WSConnection β σ
  closed : Bool

/-- A data event.  None arrives at a handle that was closed. -/
def sessionData (data : Bytes) : Proc (Session β σ) RpcEvent Unit := fun session =>
  if session.closed then
    ⟨(), session, []⟩
  else
    let done := wsOnData env queue data session.conn
    ⟨(), ⟨done.state, decide (.close ∈ done.events)⟩, done.events⟩

/-- The frames that each of the data events completes. -/
def framesPerEvent (conn : WSConnection β σ) : List Bytes → List (List WSFrame)
  | [] => []
  | data :: rest =>
      frames (wsOnData env queue data conn).events ::
        framesPerEvent (wsOnData env queue data conn).state rest

/-- The frames of the data events up to the one with the first Close frame. -/
def upToClose : List (List WSFrame) → List WSFrame
  | [] => []
  | group :: rest => if ∃ frame ∈ group, frame.opcode = 8 then group else group ++ upToClose rest

theorem session_closed (chunks : List Bytes) (conn : WSConnection β σ) :
    (Proc.runAll (sessionData env queue) chunks ⟨conn, true⟩).events = [] := by
  induction chunks with
  | nil => rfl
  | cons data rest ih => exact ih

theorem session_executes (chunks : List Bytes) {conn : WSConnection β σ} (authed : conn.authed = true) :
    executed (Proc.runAll (sessionData env queue) chunks ⟨conn, false⟩).events =
      texts (upToClose (framesPerEvent env queue conn chunks)) := by
  induction chunks generalizing conn with
  | nil => rfl
  | cons data rest ih =>
      have executing := wsOnData_executing env queue authed data
      have step : sessionData env queue data ⟨conn, false⟩ =
          ⟨(), ⟨(wsOnData env queue data conn).state, decide (.close ∈ (wsOnData env queue data conn).events)⟩,
            (wsOnData env queue data conn).events⟩ := rfl
      rw [Proc.runAll_cons_events, executed_append, step, executing.executes, framesPerEvent, upToClose]
      by_cases closes : .close ∈ (wsOnData env queue data conn).events
      · rw [if_pos (executing.closed.mp closes), decide_eq_true closes, session_closed]
        exact List.append_nil _
      · rw [if_neg (executing.closed.not.mp closes), decide_eq_false closes, ih executing.authed,
          texts_append]

theorem wholeTexts_append_congr {second other : List WSFrame}
    (same : ∀ pending, wholeTexts pending second = wholeTexts pending other) (first : List WSFrame)
    (pending : Option Bytes) : wholeTexts pending (first ++ second) = wholeTexts pending (first ++ other) := by
  induction first generalizing pending with
  | nil => exact same pending
  | cons frame rest ih => simp only [List.cons_append, wholeTexts, ih]

theorem wholeTexts_upToClose (groups : List (List WSFrame)) (pending : Option Bytes) :
    wholeTexts pending groups.flatten = wholeTexts pending (upToClose groups) := by
  induction groups generalizing pending with
  | nil => rfl
  | cons group rest ih =>
      rw [List.flatten_cons, upToClose]
      by_cases closes : ∃ frame ∈ group, frame.opcode = 8
      · rw [if_pos closes, wholeTexts_append closes]
      · rw [if_neg closes]
        exact wholeTexts_append_congr ih group pending

theorem mem_flatten_of_upToClose {groups : List (List WSFrame)} {frame : WSFrame}
    (member : frame ∈ upToClose groups) : frame ∈ groups.flatten := by
  induction groups with
  | nil => exact member
  | cons group rest ih =>
      rw [upToClose] at member
      rw [List.flatten_cons, List.mem_append]
      split at member
      · exact .inl member
      · exact (List.mem_append.mp member).imp_right ih

/-- On an authenticated connection the callback gets the whole text messages before the
first Close frame if each text frame that arrives, up to the end of the data event with
that frame, is final and comes before it.  If no continuation frame is empty, this is
the only case. -/
theorem executed_eq_wholeTexts_iff {conn : WSConnection β σ} (authed : conn.authed = true)
    (chunks : List Bytes) :
    let groups := framesPerEvent env queue conn chunks
    let run := Proc.runAll (sessionData env queue) chunks ⟨conn, false⟩
    (OnlyWholeTexts (upToClose groups) → executed run.events = wholeTexts none groups.flatten) ∧
      ((∀ frame ∈ groups.flatten, frame.opcode = 0 → frame.data ≠ []) →
        executed run.events = wholeTexts none groups.flatten → OnlyWholeTexts (upToClose groups)) := by
  intro groups run
  have texts : executed run.events = texts (upToClose groups) := session_executes env queue chunks authed
  rw [texts, wholeTexts_upToClose]
  constructor
  · intro whole
    exact (wholeTexts_of_onlyWholeTexts whole).symm
  · intro filled same
    exact onlyWholeTexts_of_wholeTexts (fun frame member => filled frame (mem_flatten_of_upToClose member)) same

end Session

/-- A connection after the handshake and the token. -/
def authedConn : Connection Unit := { fresh () with wsState := .waitDecodeHeader, authed := true }

/-- Two texts, then a Close frame in a data event of its own, then another text. -/
def politeChunks : List Bytes := [[0x81, 1, 65, 0x81, 1, 66], [0x88, 0], [0x81, 1, 67]]

theorem executed_eq_wholeTexts_polite :
    executed (Proc.runAll (sessionData plainEnv listQueue) politeChunks ⟨authedConn, false⟩).events =
      wholeTexts none (framesPerEvent plainEnv listQueue authedConn politeChunks).flatten := by
  have whole : OnlyWholeTexts (upToClose (framesPerEvent plainEnv listQueue authedConn politeChunks)) :=
    ⟨by decide +kernel, by decide +kernel⟩
  exact (executed_eq_wholeTexts_iff plainEnv listQueue rfl politeChunks).1 whole

/-- A text in two fragments. -/
def fragmentChunks : List Bytes := [[0x01, 1, 65], [0x80, 1, 66]]

/-- A text behind a Close frame in the same data event. -/
def lateChunks : List Bytes := [[0x88, 0, 0x81, 1, 67]]

theorem executed_fragment_and_late :
    executed (Proc.runAll (sessionData plainEnv listQueue) fragmentChunks ⟨authedConn, false⟩).events =
        [[65]] ∧
      wholeTexts none (framesPerEvent plainEnv listQueue authedConn fragmentChunks).flatten = [[65, 66]] ∧
      executed (Proc.runAll (sessionData plainEnv listQueue) lateChunks ⟨authedConn, false⟩).events =
        [[67]] ∧
      wholeTexts none (framesPerEvent plainEnv listQueue authedConn lateChunks).flatten = [] := by
  decide +kernel

end SwitchLanPlay.Rpc
