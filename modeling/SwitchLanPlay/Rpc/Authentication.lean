import SwitchLanPlay.Library.Hoare
import SwitchLanPlay.Rpc.WebSocket

/-!
# No command before the token

On both kinds of connections `onMessage` is invoked only for a message that
follows one that was equal to the token, and until it is invoked the connection
leaves the server alone.  For WebSocket connections this holds whatever bytes
the queue in the place of `BufferList` returns.
-/

namespace SwitchLanPlay.Rpc

open Library

/-- An invocation of `onMessage` comes right after the message it is for, and a
message before that one was the token. -/
def Authenticated (token : Bytes) (before : List RpcEvent) : RpcEvent → Prop
  | .onMessage text => ∃ front, before = front ++ [.message text] ∧ .message token ∈ front
  | _ => True

/-- The event is no invocation of `onMessage`. -/
def NotExecuted : RpcEvent → Prop
  | .onMessage _ => False
  | _ => True

/-- What holds between the events of a connection: `base` is the server as it
would be without the connection. -/
structure Guarded {σ : Type} (token : Bytes) (base : σ) (authed : Bool) (server : σ)
    (trace : List RpcEvent) : Prop where
  known : authed = true → .message token ∈ trace
  authenticated : Throughout (Authenticated token) trace
  untouched : (∀ event ∈ trace, NotExecuted event) → server = base

section Guarded

variable {σ : Type} {token : Bytes} {base server server' : σ} {authed : Bool} {trace : List RpcEvent}

theorem guarded_start : Guarded token base false base [] where
  known := fun impossible => nomatch impossible
  authenticated := throughout_nil _
  untouched := fun _ => rfl

theorem Guarded.snoc_quiet (guarded : Guarded token base authed server trace) (event : RpcEvent)
    (quiet : NotExecuted event) : Guarded token base authed server (trace ++ [event]) where
  known := fun isAuthed => List.mem_append_left _ (guarded.known isAuthed)
  authenticated := by
    refine guarded.authenticated.snoc ?_
    cases event with
    | onMessage text => exact quiet.elim
    | message text => trivial
    | write data => trivial
    | add data => trivial
    | frame frame => trivial
    | close => trivial
    | openFile name => trivial
  untouched := fun none => guarded.untouched fun other member => none other (List.mem_append_left _ member)

theorem Guarded.append_quiet (guarded : Guarded token base authed server trace) {events : List RpcEvent}
    (quiet : ∀ event ∈ events, NotExecuted event) :
    Guarded token base authed server (trace ++ events) := by
  induction events generalizing trace with
  | nil => simpa using guarded
  | cons event rest ih =>
      have first := guarded.snoc_quiet event (quiet event List.mem_cons_self)
      have others := ih first fun other member => quiet other (List.mem_cons_of_mem _ member)
      simpa [List.append_assoc] using others

/-- The token arrives. -/
theorem Guarded.login (guarded : Guarded token base authed server trace) :
    Guarded token base true server (trace ++ [.message token]) where
  known := fun _ => by simp
  authenticated := (guarded.snoc_quiet (.message token) trivial).authenticated
  untouched := (guarded.snoc_quiet (.message token) trivial).untouched

/-- A message is executed on an authenticated connection. -/
theorem Guarded.execute (guarded : Guarded token base true server trace) (text : Bytes) :
    Guarded token base true server' (trace ++ [.message text] ++ [.onMessage text]) where
  known := fun _ =>
    List.mem_append_left _ (List.mem_append_left _ (guarded.known rfl))
  authenticated := (guarded.snoc_quiet (.message text) trivial).authenticated.snoc
    ⟨trace, rfl, guarded.known rfl⟩
  untouched := fun none => (none (.onMessage text) (by simp)).elim

end Guarded

/-! ## The two copies of the check -/

section Check

variable {σ τ : Type} (env : RpcEnv σ) (base : σ) (authedOf : τ → Bool) (serverOf : τ → σ)

/-- The state of a connection is guarded. -/
def GuardedAt (conn : τ) (past : List RpcEvent) : Prop :=
  Guarded env.token base (authedOf conn) (serverOf conn) past

variable {base authedOf serverOf}

/-- A computation that touches neither the server nor `authed`. -/
theorem guardedAt_of_framed {α : Type} {m : Proc τ RpcEvent α}
    (framed : m.Framed (fun conn => (authedOf conn, serverOf conn)) NotExecuted) :
    Proc.Triple (GuardedAt env base authedOf serverOf) m
      fun _ => GuardedAt env base authedOf serverOf := by
  intro conn past guarded
  obtain ⟨kept, quiet⟩ := framed conn
  obtain ⟨sameAuthed, sameServer⟩ := Prod.mk.inj kept
  unfold GuardedAt at guarded ⊢
  rw [sameAuthed, sameServer]
  exact guarded.append_quiet quiet

variable {setServer : σ → τ → τ} {setAuthed : τ → τ}

/-- The check of a message and what is done with the answer. -/
theorem guardedAt_check (line : Bytes) {reply : Bool → Proc τ RpcEvent Bytes}
    {next : Bytes → Proc τ RpcEvent Unit}
    (check : ∀ authed, reply authed =
      if authed then Proc.zoom serverOf setServer (callOnMessage env line)
      else if line = env.token then do
        Proc.update setAuthed
        pure authorized
      else pure invalidToken)
    (keepsAuthed : ∀ server conn, authedOf (setServer server conn) = authedOf conn)
    (login : ∀ conn, authedOf (setAuthed conn) = true)
    (keepsServer : ∀ conn, serverOf (setAuthed conn) = serverOf conn)
    (framed : ∀ result, (next result).Framed (fun conn => (authedOf conn, serverOf conn)) NotExecuted) :
    Proc.Triple (GuardedAt env base authedOf serverOf)
      (do
        Proc.emit (.message line)
        let conn ← Proc.read
        let result ← reply (authedOf conn)
        next result)
      fun _ => GuardedAt env base authedOf serverOf := by
  refine Proc.Triple.bind (fun _ conn past => ∃ front, past = front ++ [.message line] ∧
    GuardedAt env base authedOf serverOf conn front) ?_ fun _ => ?_
  · exact Proc.triple_emit fun conn past guarded => ⟨past, rfl, guarded⟩
  · refine Proc.triple_read_bind fun conn => Proc.Triple.bind
      (fun _ => GuardedAt env base authedOf serverOf) ?_ fun result => guardedAt_of_framed env (framed result)
    rw [check]
    refine Proc.triple_ite (fun authed => ?_) fun notAuthed => Proc.triple_ite (fun isToken => ?_) fun other => ?_
    · rintro _ _ ⟨rfl, front, rfl, guarded⟩
      unfold GuardedAt at guarded ⊢
      rw [authed] at guarded
      rw [Proc.zoom_state, keepsAuthed, authed]
      exact guarded.execute line
    · rintro _ _ ⟨rfl, front, rfl, guarded⟩
      unfold GuardedAt at guarded ⊢
      simp only [Proc.bind_state, Proc.update_state, Proc.pure_state, Proc.bind_events, Proc.update_events,
        Proc.pure_events, List.append_nil, login, keepsServer, isToken]
      exact guarded.login
    · rintro _ _ ⟨rfl, front, rfl, guarded⟩
      unfold GuardedAt at guarded ⊢
      simpa using guarded.snoc_quiet (.message line) trivial

end Check

/-- The lines of a buffer, one after the other. -/
theorem triple_feedLoop {τ ε : Type} {Inv : τ → List ε → Prop} {callback : Bytes → Proc τ ε Unit}
    (each : ∀ line, Proc.Triple Inv (callback line) fun _ => Inv) (buffer : Bytes) :
    Proc.Triple Inv (feedLoop callback buffer) fun _ => Inv := by
  induction buffer using feedLoop.induct with
  | case1 buffer noLine =>
      rw [feedLoop_none callback noLine]
      exact Proc.triple_pure fun _ _ holds => holds
  | case2 buffer index found ih =>
      rw [feedLoop_some callback found]
      exact Proc.Triple.bind (fun _ => Inv) (each _) fun _ => ih

theorem sendStr_framed {τ κ : Type} {view : τ → κ} {Q : RpcEvent → Prop}
    (writes : ∀ data, Q (.write data)) (str : Bytes) : (sendStr str : Proc τ RpcEvent Unit).Framed view Q :=
  Proc.framed_ite (Proc.framed_emit (writes str)) (Proc.framed_pure ())

/-! ## TCP -/

section Tcp

variable {σ : Type} (env : RpcEnv σ) (base : σ)

theorem tcpLine_guarded (line : Bytes) :
    Proc.Triple (GuardedAt env base TCPConnection.authed TCPConnection.server) (tcpLine env line)
      fun _ => GuardedAt env base TCPConnection.authed TCPConnection.server :=
  guardedAt_check env line (fun _ => rfl) (fun _ _ => rfl) (fun _ => rfl) (fun _ => rfl)
    fun _ => sendStr_framed (fun _ => trivial) _

theorem tcpOnData_guarded (data : Bytes) :
    Proc.Triple (GuardedAt env base TCPConnection.authed TCPConnection.server) (tcpOnData env data)
      fun _ => GuardedAt env base TCPConnection.authed TCPConnection.server := by
  refine Proc.triple_read_bind_of_forall fun conn => Proc.Triple.bind
    (fun _ => GuardedAt env base TCPConnection.authed TCPConnection.server) ?_ fun buffer =>
      Proc.triple_update fun _ _ guarded => guarded
  exact triple_feedLoop (tcpLine_guarded env base) _

end Tcp

/-! ## WebSocket -/

section WebSocket

variable {β σ : Type} (env : RpcEnv σ) (queue : ByteQueue β) (base : σ)

/-- What the check looks at. -/
def WSConnection.guard (conn : WSConnection β σ) : Bool × σ := (conn.authed, conn.server)

section Framed

variable {Q : RpcEvent → Prop}

theorem sendFile_framed (opens : ∀ name, Q (.openFile name)) (path : Bytes) :
    (sendFile path : Proc (WSConnection β σ) RpcEvent Bytes).Framed WSConnection.guard Q :=
  Proc.framed_ite (Proc.framed_pure _) ((Proc.framed_emit (opens _)).bind fun _ => Proc.framed_pure _)

theorem httpLine_framed (opens : ∀ name, Q (.openFile name)) (line : Bytes) :
    (httpLine env line : Proc (WSConnection β σ) RpcEvent Bytes).Framed WSConnection.guard Q := by
  have updated : ∀ (f : WSConnection β σ → WSConnection β σ) (answer : Bytes),
      (∀ conn, (f conn).guard = conn.guard) →
        (do Proc.update f; pure answer : Proc _ RpcEvent Bytes).Framed WSConnection.guard Q :=
    fun f answer kept => (Proc.framed_update kept).bind fun _ => Proc.framed_pure _
  refine Proc.framed_read.bind fun conn => ?_
  cases conn.wsState with
  | doHeader => exact Proc.framed_ite (updated _ _ fun _ => rfl) (updated _ _ fun _ => rfl)
  | waitHttp =>
      refine Proc.framed_ite ?_ (Proc.framed_ite (updated _ _ fun _ => rfl) ?_)
      · cases cutAt colon line with
        | none => exact updated _ _ fun _ => rfl
        | some header => exact updated _ _ fun _ => rfl
      · exact (Proc.framed_update (by exact fun _ => rfl)).bind fun _ => sendFile_framed opens _
  | waitDecodeHeader => exact Proc.framed_pure _
  | waitingFor16BitLength => exact Proc.framed_pure _
  | waitingFor64BitLength => exact Proc.framed_pure _
  | waitingForMaskKey => exact Proc.framed_pure _
  | waitingForPayload => exact Proc.framed_pure _
  | dead => exact Proc.framed_pure _

theorem wsLine_framed (opens : ∀ name, Q (.openFile name)) (writes : ∀ data, Q (.write data))
    (line : Bytes) :
    (wsLine env line : Proc (WSConnection β σ) RpcEvent Unit).Framed WSConnection.guard Q :=
  (httpLine_framed env opens line).bind fun _ => sendStr_framed writes _

theorem sendText_framed (writes : ∀ data, Q (.write data)) (str : Bytes) :
    (sendText str : Proc (WSConnection β σ) RpcEvent Unit).Framed WSConnection.guard Q := by
  have written : ∀ header : Bytes, (do Proc.emit (.write header); Proc.emit (.write str) :
      Proc (WSConnection β σ) RpcEvent Unit).Framed WSConnection.guard Q :=
    fun _ => (Proc.framed_emit (writes _)).bind fun _ => Proc.framed_emit (writes _)
  exact Proc.framed_ite (written _) (Proc.framed_ite (written _) (Proc.framed_pure ()))

theorem decodeHeader_framed :
    (decodeHeader queue : Proc (WSConnection β σ) RpcEvent Bool).Framed WSConnection.guard Q := by
  refine Proc.framed_read.bind fun conn => Proc.framed_ite (Proc.framed_ite ?_ (Proc.framed_pure _))
    (Proc.framed_pure _)
  exact (Proc.framed_update (by exact fun _ => rfl)).bind fun _ => Proc.framed_pure _

theorem decode16BitLength_framed :
    (decode16BitLength queue : Proc (WSConnection β σ) RpcEvent Unit).Framed WSConnection.guard Q :=
  Proc.framed_read.bind fun _ =>
    Proc.framed_ite (Proc.framed_update (by exact fun _ => rfl)) (Proc.framed_pure ())

theorem decode64BitLength_framed :
    (decode64BitLength env queue : Proc (WSConnection β σ) RpcEvent Unit).Framed WSConnection.guard Q :=
  Proc.framed_read.bind fun _ =>
    Proc.framed_ite (Proc.framed_update (by exact fun _ => rfl)) (Proc.framed_pure ())

theorem decodeMaskKey_framed :
    (decodeMaskKey queue : Proc (WSConnection β σ) RpcEvent Unit).Framed WSConnection.guard Q := by
  refine Proc.framed_read.bind fun _ => Proc.framed_ite (Proc.framed_ite ?_ ?_) (Proc.framed_pure ())
  · exact Proc.framed_ite (Proc.framed_update (by exact fun _ => rfl)) (Proc.framed_pure ())
  · exact Proc.framed_update (by exact fun _ => rfl)

end Framed

/-! What holds of a connection and its trace is kept by `onData` if it is kept by
`onFrame` and by everything that touches neither the server nor `authed`. -/
section Invariant

variable {Q : RpcEvent → Prop} {Inv : WSConnection β σ → List RpcEvent → Prop}
  (quiet : ∀ {α : Type} {m : Proc (WSConnection β σ) RpcEvent α}, m.Framed WSConnection.guard Q →
    Proc.Triple Inv m fun _ => Inv)
  (frame : Proc.Triple Inv (onFrame env) fun _ => Inv)
include quiet frame

theorem triple_decodePayload : Proc.Triple Inv (decodePayload env queue) fun _ => Inv := by
  refine Proc.triple_read_bind fun conn => Proc.triple_ite (fun _ => ?_) fun _ => ?_
  · refine Proc.Triple.bind (fun _ => Inv) ?_ fun _ => frame
    refine Proc.Triple.strengthen (quiet (Proc.framed_update ?_)) fun _ _ pre => pre.2
    intro conn
    rfl
  · exact Proc.triple_pure fun _ _ pre => pre.2

theorem triple_decodeLoop (passes : Nat) : Proc.Triple Inv (decodeLoop env queue passes) fun _ => Inv := by
  induction passes with
  | zero => exact Proc.triple_pure fun _ _ holds => holds
  | succ passes ih =>
      refine Proc.Triple.bind (fun _ => Inv) (quiet (decodeHeader_framed queue)) fun more => ?_
      refine Proc.triple_ite (fun _ => ?_) fun _ => Proc.triple_pure fun _ _ holds => holds
      refine Proc.Triple.bind (fun _ => Inv) (quiet (decode16BitLength_framed queue)) fun _ => ?_
      refine Proc.Triple.bind (fun _ => Inv) (quiet (decode64BitLength_framed env queue)) fun _ => ?_
      refine Proc.Triple.bind (fun _ => Inv) (quiet (decodeMaskKey_framed queue)) fun _ => ?_
      refine Proc.Triple.bind (fun _ => Inv) (triple_decodePayload env queue quiet frame) fun _ => ?_
      refine Proc.triple_read_bind_of_forall fun conn => ?_
      exact Proc.triple_ite (fun _ => ih) fun _ => Proc.triple_pure fun _ _ holds => holds

theorem triple_wsOnData (opens : ∀ name, Q (.openFile name)) (writes : ∀ data, Q (.write data))
    (adds : ∀ data, Q (.add data)) (data : Bytes) :
    Proc.Triple Inv (wsOnData env queue data) fun _ => Inv := by
  refine Proc.triple_read_bind_of_forall fun conn => Proc.triple_ite (fun _ => ?_) fun _ =>
    Proc.triple_ite (fun _ => ?_) fun _ => ?_
  · refine Proc.Triple.bind (fun _ => Inv) ?_ fun buffer => quiet (Proc.framed_update fun _ => rfl)
    exact triple_feedLoop (fun line => quiet (wsLine_framed env opens writes line)) _
  · exact Proc.triple_pure fun _ _ holds => holds
  · refine Proc.Triple.bind (fun _ => Inv) (quiet (Proc.framed_emit (adds data))) fun _ => ?_
    exact Proc.Triple.bind (fun _ => Inv) (quiet (Proc.framed_update fun _ => rfl)) fun _ =>
        triple_decodeLoop env queue quiet frame _

end Invariant

/-- The state of a WebSocket connection is guarded. -/
abbrev WsGuarded : WSConnection β σ → List RpcEvent → Prop :=
  GuardedAt env base WSConnection.authed WSConnection.server

theorem onText_guarded (line : Bytes) :
    Proc.Triple (WsGuarded env base) (onText env line : Proc (WSConnection β σ) RpcEvent Unit)
      fun _ => WsGuarded env base := by
  refine guardedAt_check env line (fun _ => rfl) (fun _ _ => rfl) (fun _ => rfl) (fun _ => rfl) fun result => ?_
  exact Proc.framed_ite (sendText_framed (fun _ => trivial) result) (Proc.framed_pure ())

theorem onFrame_guarded :
    Proc.Triple (WsGuarded env base) (onFrame env : Proc (WSConnection β σ) RpcEvent Unit)
      fun _ => WsGuarded env base := by
  refine Proc.triple_read_bind fun conn => Proc.Triple.bind (fun _ => WsGuarded env base) ?_ fun _ => ?_
  · exact Proc.triple_emit fun _ _ pre => pre.2.snoc_quiet _ trivial
  · refine Proc.triple_ite (fun _ => ?_) fun _ => Proc.triple_ite (fun _ => ?_) fun _ => ?_
    · exact Proc.triple_emit fun _ _ guarded => guarded.snoc_quiet _ trivial
    · exact Proc.triple_pure fun _ _ guarded => guarded
    · exact Proc.Triple.bind (fun _ => WsGuarded env base)
        (Proc.triple_update fun _ _ guarded => guarded) fun _ => onText_guarded env base _

theorem wsOnData_guarded (data : Bytes) :
    Proc.Triple (WsGuarded env base) (wsOnData env queue data) fun _ => WsGuarded env base :=
  triple_wsOnData env queue (guardedAt_of_framed env) (onFrame_guarded env base) (fun _ => trivial)
    (fun _ => trivial) (fun _ => trivial) data

end WebSocket

/-! ## Runs -/

/-- A data event of the connection, or a change of the server made elsewhere. -/
inductive RpcInput (σ : Type) where
  | data (bytes : Bytes)
  | elsewhere (change : σ → σ)

/-- The server after the changes made elsewhere. -/
def serverElsewhere {σ : Type} (server : σ) : List (RpcInput σ) → σ
  | [] => server
  | .data _ :: rest => serverElsewhere server rest
  | .elsewhere change :: rest => serverElsewhere (change server) rest

def tcpStep {σ : Type} (env : RpcEnv σ) : RpcInput σ → Proc (TCPConnection σ) RpcEvent Unit
  | .data bytes => tcpOnData env bytes
  | .elsewhere change => Proc.update fun conn => { conn with server := change conn.server }

def wsStep {β σ : Type} (env : RpcEnv σ) (queue : ByteQueue β) :
    RpcInput σ → Proc (WSConnection β σ) RpcEvent Unit
  | .data bytes => wsOnData env queue bytes
  | .elsewhere change => Proc.update fun conn => { conn with server := change conn.server }

section Runs

variable {σ τ : Type} {env : RpcEnv σ} {authedOf : τ → Bool} {serverOf : τ → σ}
  (step : RpcInput σ → Proc τ RpcEvent Unit)

/-- Changes made elsewhere change the server of the connection and the server
without the connection alike. -/
theorem guardedAt_run
    (data : ∀ bytes base, Proc.Triple (GuardedAt env base authedOf serverOf) (step (.data bytes))
      fun _ => GuardedAt env base authedOf serverOf)
    (elsewhere : ∀ change conn, authedOf (step (.elsewhere change) conn).state = authedOf conn ∧
      serverOf (step (.elsewhere change) conn).state = change (serverOf conn) ∧
        (step (.elsewhere change) conn).events = [])
    (inputs : List (RpcInput σ)) :
    ∀ (base : σ) (conn : τ) (past : List RpcEvent), GuardedAt env base authedOf serverOf conn past →
      GuardedAt env (serverElsewhere base inputs) authedOf serverOf (Proc.runAll step inputs conn).state
        (past ++ (Proc.runAll step inputs conn).events) := by
  induction inputs with
  | nil => intro base conn past guarded; simpa [serverElsewhere] using guarded
  | cons input rest ih =>
      intro base conn past guarded
      rw [Proc.runAll_cons_state, Proc.runAll_cons_events, ← List.append_assoc]
      cases input with
      | data bytes => exact ih base _ _ (data bytes base conn past guarded)
      | elsewhere change =>
          refine ih (change base) _ _ ?_
          obtain ⟨authed, server, quiet⟩ := elsewhere change conn
          unfold GuardedAt at guarded ⊢
          rw [authed, server, quiet, List.append_nil]
          exact ⟨guarded.known, guarded.authenticated, fun none => congrArg change (guarded.untouched none)⟩

end Runs

/-- What a run shows to have required the token. -/
structure RequiresToken {σ : Type} (token : Bytes) (elsewhere server : σ) (events : List RpcEvent) :
    Prop where
  /-- Every invocation of `onMessage` is for a message after the token. -/
  authenticated : Throughout (Authenticated token) events
  /-- Without an invocation the connection has not changed the server. -/
  untouched : (∀ text, .onMessage text ∉ events) → server = elsewhere
  /-- Without the token there is none. -/
  locked : .message token ∉ events → server = elsewhere

theorem Guarded.requiresToken {σ : Type} {token : Bytes} {base server : σ} {authed : Bool}
    {trace : List RpcEvent} (guarded : Guarded token base authed server trace) :
    RequiresToken token base server trace := by
  have untouched : (∀ text, .onMessage text ∉ trace) → server = base := by
    intro none
    refine guarded.untouched fun event member => ?_
    cases event with
    | onMessage text => exact none text member
    | message text => trivial
    | write data => trivial
    | add data => trivial
    | frame frame => trivial
    | close => trivial
    | openFile name => trivial
  refine ⟨guarded.authenticated, untouched, fun missing => untouched fun text member => missing ?_⟩
  obtain ⟨before, after, split⟩ := List.append_of_mem member
  obtain ⟨front, rfl, login⟩ := guarded.authenticated before _ after split
  rw [split]
  simp [login]

/-- On every TCP or WebSocket connection, for every sequence of data events and
of changes made elsewhere, commands require the token: `onMessage` is invoked
only for messages that come after one equal to the token, and until then the
connection does not change the server. -/
theorem rpc_requires_token {β σ : Type} (env : RpcEnv σ) (queue : ByteQueue β) (server : σ)
    (inputs : List (RpcInput σ)) :
    RequiresToken env.token (serverElsewhere server inputs)
      (Proc.runAll (tcpStep env) inputs (.start server)).state.server
      (Proc.runAll (tcpStep env) inputs (.start server)).events ∧
    RequiresToken env.token (serverElsewhere server inputs)
      (Proc.runAll (wsStep env queue) inputs (.start queue server)).state.server
      (Proc.runAll (wsStep env queue) inputs (.start queue server)).events := by
  constructor
  · have start : GuardedAt env server TCPConnection.authed TCPConnection.server (.start server) [] :=
      guarded_start
    exact Guarded.requiresToken (guardedAt_run (tcpStep env) (fun bytes base => tcpOnData_guarded env base bytes)
      (fun _ _ => ⟨rfl, rfl, rfl⟩) inputs server (.start server) [] start)
  · have start : WsGuarded env server (WSConnection.start queue server) [] := guarded_start
    exact Guarded.requiresToken (guardedAt_run (wsStep env queue)
      (fun bytes base => wsOnData_guarded env queue base bytes) (fun _ _ => ⟨rfl, rfl, rfl⟩) inputs server
      (.start queue server) [] start)

/-- The token in two pieces, then a command: the command is executed. -/
example :
    (Proc.runAll (tcpStep ⟨ascii "key", fun _ calls => ([], calls + 1), id, id, fun _ _ => 0⟩)
      [.data (ascii "stop\nke"), .data (ascii "y\r\nstop\n")] (.start 0)).events =
      [.message (ascii "stop"), .write (invalidToken ++ ascii "\n# end\n"),
        .message (ascii "key"), .write (authorized ++ ascii "\n# end\n"),
        .message (ascii "stop"), .onMessage (ascii "stop"), .write (ascii "\n# end\n")] := by
  decide +kernel

end SwitchLanPlay.Rpc
