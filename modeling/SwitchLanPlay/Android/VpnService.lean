import SwitchLanPlay.Library.Proc

/-!
# Starting and stopping the VPN

`onStartCommand`, `startVpn` and `onDestroy` of `LanPlayVpnService.kt`, with every
step of a start that can fail.  `running` is set before the first of them and only
`onDestroy` clears it: a start that fails keeps what it has acquired so far, and no
other start is attempted before the service is destroyed.
-/

namespace SwitchLanPlay.Android

open Library

/-! ## The service -/

/-- An open interface, known by its identity as the other objects are. -/
structure ParcelFileDescriptor where
  identity : Nat
  deriving DecidableEq

structure ServerRedirector where
  identity : Nat
  deriving DecidableEq

structure UdpRelayServer where
  identity : Nat
  deriving DecidableEq

/-- The fields of `LanPlayVpnService`. -/
structure VpnService where
  running : Bool
  vpnInterface : Option ParcelFileDescriptor
  relay : Option UdpRelayServer
  redirector : Option ServerRedirector
  deriving DecidableEq

/-- The service as it is created. -/
def VpnService.created : VpnService := ⟨false, none, none, none⟩

inductive VpnEvent where
  /-- A `Builder` is made: a start is attempted. -/
  | building
  | redirectorStarted (redirector : ServerRedirector)
  /-- The thread that reads packets from the interface. -/
  | reading (vpnInterface : Option ParcelFileDescriptor)
  | relayStopped (relay : UdpRelayServer)
  | redirectorStopped (redirector : ServerRedirector)
  | closed (vpnInterface : ParcelFileDescriptor)
  | log (message : String)
  deriving DecidableEq

/-- An exception, as far as it is read: the message may be null. -/
structure VpnException where
  message : Option String

/-- How the steps of one start end. -/
structure StartAnswers where
  /-- the setters of the builder -/
  builder : Except VpnException Unit
  /-- `establish()`, which may also return null -/
  establish : Except VpnException (Option ParcelFileDescriptor)
  redirector : String → Except VpnException ServerRedirector
  relay : ServerRedirector → Except VpnException UdpRelayServer
  /-- `redirector?.start()` -/
  start : Except VpnException Unit
  /-- the start of the reading thread -/
  thread : Except VpnException Unit

/-- A computation on the service that may throw. -/
abbrev Throwing (α : Type) : Type := ExceptT VpnException (Proc VpnService VpnEvent) α

def Throwing.perform (event : VpnEvent) : Throwing Unit := ExceptT.lift (Proc.emit event)

def Throwing.assign (change : VpnService → VpnService) : Throwing Unit := ExceptT.lift (Proc.update change)

open Throwing in
/-- The block that `startVpn` tries. -/
def acquire (serverAddr : String) (answers : StartAnswers) : Throwing Unit := do
  perform .building
  liftExcept answers.builder
  let vpnInterface ← liftExcept answers.establish
  assign fun s => { s with vpnInterface := vpnInterface }
  let redirector ← liftExcept (answers.redirector serverAddr)
  assign fun s => { s with redirector := some redirector }
  let relay ← liftExcept (answers.relay redirector)
  assign fun s => { s with relay := some relay }
  liftExcept answers.start
  perform (.redirectorStarted redirector)
  liftExcept answers.thread
  perform (.reading vpnInterface)

def sendLog (message : String) : Proc VpnService VpnEvent Unit := Proc.emit (.log message)

/-- The `catch` of `startVpn`. -/
def logFailure : Except VpnException Unit → Proc VpnService VpnEvent Unit
  | .ok () => pure ()
  | .error e => sendLog ("[ERROR] Failed to start VPN: " ++ e.message.getD "null")

def startVpn (serverAddr : String) (answers : StartAnswers) : Proc VpnService VpnEvent Unit := do
  let s ← Proc.read
  if s.running then
    pure ()
  else
    Proc.update fun s => { s with running := true }
    logFailure (← (acquire serverAddr answers).run)

def onStartCommand (serverAddr : Option String) (answers : StartAnswers) : Proc VpnService VpnEvent Unit :=
  startVpn (serverAddr.getD "lan-play.com:11451") answers

def onDestroy : Proc VpnService VpnEvent Unit := do
  Proc.update fun s => { s with running := false }
  let s ← Proc.read
  Proc.emitAll (s.relay.map .relayStopped).toList
  Proc.emitAll (s.redirector.map .redirectorStopped).toList
  Proc.emitAll (s.vpnInterface.map .closed).toList
  Proc.update fun s => { s with vpnInterface := none }
  sendLog "[INFO] VPN Service stopped"

/-- A call that Android makes. -/
inductive ServiceCall where
  | onStartCommand (serverAddr : Option String) (answers : StartAnswers)
  | onDestroy

def serve : ServiceCall → Proc VpnService VpnEvent Unit
  | .onStartCommand serverAddr answers => onStartCommand serverAddr answers
  | .onDestroy => onDestroy

/-- The service after a sequence of calls. -/
def VpnService.after (calls : List ServiceCall) : VpnService := (Proc.runAll serve calls .created).state

/-! ## What a start leaves behind -/

section Steps

variable (serverAddr : String) (answers : StartAnswers)

theorem framed_liftExcept {α : Type} (answer : Except VpnException α) :
    Proc.Framed VpnService.running (fun _ => True) (liftExcept answer : Throwing α).run := by
  cases answer with
  | ok value => exact Proc.framed_pure _
  | error e => exact Proc.framed_pure _

theorem framed_perform (event : VpnEvent) :
    Proc.Framed VpnService.running (fun _ => True) (Throwing.perform event).run :=
  Proc.framed_of_kept fun _ => rfl

theorem framed_assign {change : VpnService → VpnService} (kept : ∀ s, (change s).running = s.running) :
    Proc.Framed VpnService.running (fun _ => True) (Throwing.assign change).run :=
  Proc.framed_of_kept kept

/-- However far it gets, the block does not touch `running`. -/
theorem framed_acquire : Proc.Framed VpnService.running (fun _ => True) (acquire serverAddr answers).run := by
  unfold acquire
  refine Proc.Framed.bindThrowing (framed_perform _) fun _ => ?_
  refine Proc.Framed.bindThrowing (framed_liftExcept _) fun _ => ?_
  refine Proc.Framed.bindThrowing (framed_liftExcept _) fun vpnInterface => ?_
  refine Proc.Framed.bindThrowing (framed_assign (by intro _; rfl)) fun _ => ?_
  refine Proc.Framed.bindThrowing (framed_liftExcept _) fun redirector => ?_
  refine Proc.Framed.bindThrowing (framed_assign (by intro _; rfl)) fun _ => ?_
  refine Proc.Framed.bindThrowing (framed_liftExcept _) fun relay => ?_
  refine Proc.Framed.bindThrowing (framed_assign (by intro _; rfl)) fun _ => ?_
  refine Proc.Framed.bindThrowing (framed_liftExcept _) fun _ => ?_
  refine Proc.Framed.bindThrowing (framed_perform _) fun _ => ?_
  refine Proc.Framed.bindThrowing (framed_liftExcept _) fun _ => ?_
  exact framed_perform _

variable {s : VpnService}

theorem logFailure_state (outcome : Except VpnException Unit) (s : VpnService) :
    (logFailure outcome s).state = s := by
  cases outcome <;> rfl

theorem startVpn_of_running (running : s.running = true) : startVpn serverAddr answers s = ⟨(), s, []⟩ := by
  unfold startVpn
  rw [Proc.read_bind, if_pos running]
  rfl

theorem startVpn_of_stopped (stopped : s.running = false) :
    (startVpn serverAddr answers s).state.running = true ∧
      VpnEvent.building ∈ (startVpn serverAddr answers s).events := by
  have kept := (framed_acquire serverAddr answers { s with running := true }).1
  unfold startVpn
  rw [Proc.read_bind, if_neg (by rw [stopped]; decide)]
  constructor
  · rw [Proc.bind_state, Proc.bind_state, Proc.update_state, logFailure_state]
    exact kept
  · rw [Proc.bind_events, Proc.bind_events]
    apply List.mem_append_right
    apply List.mem_append_left
    exact List.mem_append_left _ (List.mem_singleton_self _)

end Steps

/-- A start is attempted exactly when `running` is not set. -/
theorem onStartCommand_attempts_iff (serverAddr : Option String) (answers : StartAnswers) (s : VpnService) :
    VpnEvent.building ∈ (onStartCommand serverAddr answers s).events ↔ s.running = false := by
  unfold onStartCommand
  cases running : s.running with
  | true =>
    rw [startVpn_of_running _ _ running]
    exact iff_of_false List.not_mem_nil (by decide)
  | false => exact iff_of_true (startVpn_of_stopped _ _ running).2 rfl

/-! ## Sequences of calls -/

def ServiceCall.starts : ServiceCall → Bool
  | .onStartCommand _ _ => true
  | .onDestroy => false

/-- Whatever fails, `running` tells which call was the last one. -/
theorem serve_running (call : ServiceCall) (s : VpnService) : (serve call s).state.running = call.starts := by
  cases call with
  | onDestroy => rfl
  | onStartCommand serverAddr answers =>
    change (startVpn _ _ s).state.running = true
    cases running : s.running with
    | true => rw [startVpn_of_running _ _ running, running]
    | false => exact (startVpn_of_stopped _ _ running).1

theorem after_running (calls : List ServiceCall) :
    (VpnService.after calls).running = false ↔ calls = [] ∨ ∃ earlier, calls = earlier ++ [.onDestroy] := by
  induction calls using List.reverseRecOn with
  | nil => exact iff_of_true rfl (.inl rfl)
  | append_singleton earlier last =>
    have running : (VpnService.after (earlier ++ [last])).running = last.starts := by
      rw [VpnService.after, Proc.runAll_snoc_state, serve_running]
    rw [running]
    constructor
    · intro stopped
      cases last with
      | onStartCommand serverAddr answers => cases stopped
      | onDestroy => exact .inr ⟨earlier, rfl⟩
    · rintro (empty | ⟨earlier', same⟩)
      · cases List.append_ne_nil_of_right_ne_nil _ (List.cons_ne_nil _ _) empty
      · obtain ⟨-, sameLast⟩ := List.append_inj' same rfl
        cases sameLast
        rfl

/-- Every step of a start succeeds, and there is an interface. -/
structure StartAnswers.Succeed (answers : StartAnswers) (serverAddr : String) : Prop where
  builder : answers.builder = .ok ()
  establish : ∃ vpnInterface, answers.establish = .ok (some vpnInterface)
  objects : ∃ redirector, answers.redirector serverAddr = .ok redirector ∧
    ∃ relay, answers.relay redirector = .ok relay
  start : answers.start = .ok ()
  thread : answers.thread = .ok ()

/-- The call attempts a start, and one of its steps fails. -/
def FailsIn (s : VpnService) : ServiceCall → Prop
  | .onStartCommand serverAddr answers =>
      s.running = false ∧ ¬ answers.Succeed (serverAddr.getD "lan-play.com:11451")
  | .onDestroy => False

/-- The call leaves the service as it was, and able to start. -/
structure Undone (s : VpnService) (call : ServiceCall) : Prop where
  running : (serve call s).state.running = false
  vpnInterface : (serve call s).state.vpnInterface = s.vpnInterface
  relay : (serve call s).state.relay = s.relay
  redirector : (serve call s).state.redirector = s.redirector
  attempts : ∀ serverAddr answers,
    VpnEvent.building ∈ (onStartCommand serverAddr answers (serve call s).state).events

theorem FailsIn.not_undone {s : VpnService} {call : ServiceCall} (fails : FailsIn s call) : ¬ Undone s call := by
  intro undone
  cases call with
  | onDestroy => exact fails
  | onStartCommand serverAddr answers =>
    have running := undone.running
    rw [serve_running] at running
    cases running

/-- No failing start is ever undone, so failing starts are undone along a sequence of
calls exactly when none of its starts fails.  After a sequence, failures or not, a
start is attempted again exactly when `onDestroy` was called last. -/
theorem failed_starts_undone_iff (calls : List ServiceCall) :
    (Proc.Along serve (fun s call => FailsIn s call → Undone s call) .created calls ↔
      Proc.Along serve (fun s call => ¬ FailsIn s call) .created calls) ∧
    ∀ serverAddr answers,
      VpnEvent.building ∈ (onStartCommand serverAddr answers (VpnService.after calls)).events ↔
        calls = [] ∨ ∃ earlier, calls = earlier ++ [.onDestroy] := by
  constructor
  · apply Proc.along_congr (fun _ => True)
    · intro s call _
      constructor
      · intro undone fails
        exact fails.not_undone (undone fails)
      · intro succeeds fails
        cases succeeds fails
    · intro _ _ _ _
      trivial
    · trivial
  · intro serverAddr answers
    rw [onStartCommand_attempts_iff, after_running]

/-- Every step of a start succeeds. -/
def workingAnswers : StartAnswers where
  builder := .ok ()
  establish := .ok (some ⟨1⟩)
  redirector _ := .ok ⟨2⟩
  relay _ := .ok ⟨3⟩
  start := .ok ()
  thread := .ok ()

theorem workingAnswers_succeed (serverAddr : String) : workingAnswers.Succeed serverAddr where
  builder := rfl
  establish := ⟨_, rfl⟩
  objects := ⟨_, rfl, _, rfl⟩
  start := rfl
  thread := rfl

/-- The service is started, destroyed, and can be started again. -/
theorem failed_starts_undone_restarted :
    Proc.Along serve (fun s call => FailsIn s call → Undone s call) .created
        [.onStartCommand none workingAnswers, .onDestroy] ∧
      VpnEvent.building ∈ (onStartCommand none workingAnswers
        (VpnService.after [.onStartCommand none workingAnswers, .onDestroy])).events := by
  obtain ⟨undone, attempts⟩ := failed_starts_undone_iff [.onStartCommand none workingAnswers, .onDestroy]
  refine ⟨undone.mpr ⟨?_, ?_, trivial⟩, (attempts _ _).mpr (.inr ⟨[.onStartCommand none workingAnswers], rfl⟩)⟩
  · exact fun fails => fails.2 (workingAnswers_succeed _)
  · exact fun fails => fails

/-- The redirector cannot be made: the interface stays open, `running` stays set and the
next call does nothing.  Without an interface the start even goes on to its end. -/
theorem failed_start_keeps_running :
    (serve (.onStartCommand none { workingAnswers with redirector := fun _ => .error ⟨none⟩ }) .created).state =
        ⟨true, some ⟨1⟩, none, none⟩ ∧
      serve (.onStartCommand none workingAnswers) ⟨true, some ⟨1⟩, none, none⟩ =
        ⟨(), ⟨true, some ⟨1⟩, none, none⟩, []⟩ ∧
      (serve (.onStartCommand none { workingAnswers with establish := .ok none }) .created).state =
        ⟨true, none, some ⟨3⟩, some ⟨2⟩⟩ ∧
      ¬ Proc.Along serve (fun s call => FailsIn s call → Undone s call) .created
        [.onStartCommand none { workingAnswers with redirector := fun _ => .error ⟨none⟩ }] := by
  refine ⟨rfl, rfl, rfl, ?_⟩
  rintro ⟨undone, -⟩
  have fails : FailsIn .created
      (.onStartCommand none { workingAnswers with redirector := fun _ => .error ⟨none⟩ }) := by
    refine ⟨rfl, ?_⟩
    intro succeeds
    obtain ⟨redirector, made, -⟩ := succeeds.objects
    cases made
  exact fails.not_undone (undone fails)

end SwitchLanPlay.Android
