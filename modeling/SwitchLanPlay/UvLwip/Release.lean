import Mathlib.Data.List.Sort
import Mathlib.Logic.Function.Basic
import SwitchLanPlay.Library.Hoare

/-!
# Releasing the gateway's network stack

`UvLwipBase` keeps itself alive with a reference to itself.  `release` closes the
listener and asks every connection to close; `onSelfClose` is called by the
listener's close callback and by the connection that brings `closingCount` to
zero, and its second call drops the reference.  Without a connection nothing
brings the counter to zero, so the reference is never dropped.

`uvl_close` and `uvl_tcp_close` call back later: the flag `closed` of the
listener, on which `uvl_close` would call back at once, is never set.  The reads
and writes that `uvl_tcp_close` cancels find `closing` set and do nothing.  After
`uvl_close` no connection is accepted.
-/

namespace SwitchLanPlay.UvLwip.Release

open Library

/-! ## Model -/

inductive ConnectionKind where
  /-- `TcpConnection` -/
  | tcp
  /-- `SwitchFakeTcpConnection` -/
  | fake
  deriving DecidableEq

/-- `closing` is the flag of `IConnection`; `killed` is the flag of the same name
that `TcpConnection` has of its own. -/
structure Connection where
  kind : ConnectionKind
  closing : Bool
  killed : Bool

/-- Connections are named by their addresses, which order `connSet`.  `sPtr` is
the reference to itself, `uvlwip` the one of the gateway. -/
structure UvLwipBase where
  connSet : List Nat
  conns : Nat → Connection
  closing : Bool
  lwipClosed : Bool
  closingCount : Int
  sPtr : Bool
  uvlwip : Bool

inductive Event where
  /-- `IConnection::close` is called. -/
  | asked (conn : Nat)
  | uvlTcpClose (conn : Nat)
  /-- The close callback of the listener runs. -/
  | listenerClosed
  /-- `reset` drops the reference to itself. -/
  | reset
  deriving DecidableEq

abbrev Base (α : Type) := Proc UvLwipBase Event α

/-- `weak_ptr::lock` succeeds as long as someone holds a reference. -/
def UvLwipBase.alive (base : UvLwipBase) : Bool := base.sPtr || base.uvlwip

def onConn (conn : Nat) (f : Connection → Connection) : Base Unit :=
  Proc.update fun base => { base with conns := Function.update base.conns conn (f (base.conns conn)) }

def onSelfClose : Base Unit := do
  let base ← Proc.read
  if base.lwipClosed then do
    Proc.update fun base => { base with sPtr := false }
    Proc.emit .reset
  else
    Proc.update fun base => { base with lwipClosed := true }

def removeConnection (conn : Nat) : Base Unit := do
  let base ← Proc.read
  if base.closing then do
    Proc.update fun base => { base with closingCount := base.closingCount - 1 }
    let base ← Proc.read
    if base.closingCount = 0 then onSelfClose else pure ()
  else
    Proc.update fun base => { base with connSet := base.connSet.erase conn }

/-- The end of `IConnection::close`. -/
def closeHandle (conn : Nat) : Base Unit := do
  let base ← Proc.read
  if (base.conns conn).closing then
    pure ()
  else do
    onConn conn fun c => { c with closing := true }
    Proc.emit (.uvlTcpClose conn)

/-- `IConnection::close` -/
def close (conn : Nat) (skipRemove : Bool) : Base Unit := do
  Proc.emit (.asked conn)
  let base ← Proc.read
  if !skipRemove && base.alive then removeConnection conn else pure ()
  closeHandle conn

/-- `TcpConnection::kill` -/
def kill (conn : Nat) : Base Unit := do
  let base ← Proc.read
  if (base.conns conn).killed then
    pure ()
  else do
    onConn conn fun c => { c with killed := true }
    close conn false

/-- What `onClose`, `onClosed` and the close event of the proxied connection do. -/
def killIfTcp (conn : Nat) : Base Unit := do
  let base ← Proc.read
  match (base.conns conn).kind with
  | .tcp => kill conn
  | .fake => pure ()

/-- `IConnection::writeCallback` with status 0: a fake connection closes when its
answer is written. -/
def onWrite (conn : Nat) : Base Unit := do
  let base ← Proc.read
  match (base.conns conn).kind with
  | .tcp => pure ()
  | .fake => close conn false

/-- `IConnection::readCallback` at the end of the stream. -/
def readEnd (conn : Nat) : Base Unit := do
  let base ← Proc.read
  if (base.conns conn).closing then pure () else killIfTcp conn

/-- `connSet.insert` -/
def insertConn (conn : Nat) (connSet : List Nat) : List Nat :=
  if conn ∈ connSet then connSet else connSet.orderedInsert (· ≤ ·) conn

/-- `onConnect`.  The proxied connection can fail while `onConnection` runs,
which is before the connection is in the set. -/
def onConnect (conn : Nat) (kind : ConnectionKind) (fails : Bool) : Base Unit := do
  onConn conn fun _ => ⟨kind, false, false⟩
  if fails then killIfTcp conn else pure ()
  Proc.update fun base => { base with connSet := insertConn conn base.connSet }

/-- The loop of `release`. -/
def closeAll : List Nat → Base Unit
  | [] => pure ()
  | conn :: rest => do
      close conn false
      closeAll rest

/-- `release`, called by the destructor of the gateway, which then drops its
reference. -/
def release : Base Unit := do
  Proc.update fun base => { base with closing := true, closingCount := base.connSet.length }
  let base ← Proc.read
  closeAll base.connSet
  Proc.update fun base => { base with uvlwip := false }

/-- The close callback of the listener. -/
def listenerClosed : Base Unit := do
  Proc.emit .listenerClosed
  onSelfClose

/-- What the event loop calls on account of a connection. -/
inductive Callback where
  | connect (conn : Nat) (kind : ConnectionKind) (fails : Bool)
  /-- The proxied connection is closed by its peer, or fails. -/
  | proxyClosed (conn : Nat)
  | readEnd (conn : Nat)
  | written (conn : Nat)
  /-- `IConnection::closeCallback` -/
  | closed (conn : Nat)

def baseStep : Callback → Base Unit
  | .connect conn kind fails => do
      let base ← Proc.read
      if base.closing then pure () else onConnect conn kind fails
  | .proxyClosed conn => killIfTcp conn
  | .readEnd conn => readEnd conn
  | .written conn => onWrite conn
  | .closed conn => killIfTcp conn

/-- The base after `init`. -/
def UvLwipBase.start : UvLwipBase where
  connSet := []
  conns := fun _ => ⟨.tcp, false, false⟩
  closing := false
  lwipClosed := false
  closingCount := 0
  sPtr := true
  uvlwip := true

/-- The base lives, is released, and the listener's close callback runs somewhere
among the callbacks of the connections. -/
def lifetime (before first second : List Callback) : Base Unit := do
  Proc.runAll baseStep before
  release
  Proc.runAll baseStep first
  listenerClosed
  Proc.runAll baseStep second

/-! ## Removing a connection -/

section Removing

variable {s : UvLwipBase} (conn : Nat)

theorem removeConnection_serving (serving : s.closing = false) :
    removeConnection conn s = ⟨(), { s with connSet := s.connSet.erase conn }, []⟩ := by
  unfold removeConnection
  rw [Proc.read_bind, if_neg (by simp [serving])]
  rfl

theorem removeConnection_closing (closing : s.closing = true) :
    removeConnection conn s =
      (if s.closingCount - 1 = 0 then onSelfClose else pure ())
        { s with closingCount := s.closingCount - 1 } := by
  unfold removeConnection
  rw [Proc.read_bind, if_pos closing]
  rfl

theorem close_of_removed {s' : UvLwipBase} (owned : s.uvlwip = true)
    (removed : removeConnection conn s = ⟨(), s', []⟩) :
    close conn false s =
      ⟨(), (closeHandle conn s').state, .asked conn :: (closeHandle conn s').events⟩ := by
  have alive : s.alive = true := by simp [UvLwipBase.alive, owned]
  unfold close
  apply Outcome.ext <;> simp [alive, removed]

end Removing

/-! ## What callbacks keep -/

/-- Not the end of the base. -/
def Event.Quiet (event : Event) : Prop := event ≠ .reset

section Callbacks

variable {Inv : UvLwipBase → Prop}
  (removes : ∀ conn, Proc.Keeps Inv Event.Quiet (removeConnection conn))
  (flags : ∀ s conns, Inv s → Inv { s with conns := conns })
  (members : ∀ s connSet, Inv s → Inv { s with connSet := connSet })

include flags

theorem keeps_onConn (conn : Nat) (f : Connection → Connection) :
    Proc.Keeps Inv Event.Quiet (onConn conn f) :=
  Proc.keeps_update fun s holds => flags s _ holds

theorem keeps_closeHandle (conn : Nat) : Proc.Keeps Inv Event.Quiet (closeHandle conn) := by
  refine Proc.keeps_read_bind fun base _ => Proc.keeps_ite (fun _ => Proc.keeps_pure ()) fun _ => ?_
  exact (keeps_onConn flags conn _).bind fun _ => Proc.keeps_emit nofun

include removes

theorem keeps_close (conn : Nat) (skipRemove : Bool) :
    Proc.Keeps Inv Event.Quiet (close conn skipRemove) := by
  refine (Proc.keeps_emit nofun).bind fun _ => Proc.keeps_read_bind fun base _ => ?_
  have handle := keeps_closeHandle flags conn
  exact Proc.keeps_ite (fun _ => (removes conn).bind fun _ => handle) fun _ => handle

theorem keeps_killIfTcp (conn : Nat) : Proc.Keeps Inv Event.Quiet (killIfTcp conn) := by
  refine Proc.keeps_read_bind fun base _ => ?_
  cases (base.conns conn).kind with
  | fake => exact Proc.keeps_pure ()
  | tcp =>
      refine Proc.keeps_read_bind fun base _ => Proc.keeps_ite (fun _ => Proc.keeps_pure ()) fun _ => ?_
      exact (keeps_onConn flags conn _).bind fun _ => keeps_close removes flags conn false

theorem keeps_onWrite (conn : Nat) : Proc.Keeps Inv Event.Quiet (onWrite conn) := by
  refine Proc.keeps_read_bind fun base _ => ?_
  cases (base.conns conn).kind with
  | tcp => exact Proc.keeps_pure ()
  | fake => exact keeps_close removes flags conn false

include members

theorem keeps_baseStep (callback : Callback) : Proc.Keeps Inv Event.Quiet (baseStep callback) := by
  have kills := keeps_killIfTcp removes flags
  cases callback with
  | connect conn kind fails =>
      refine Proc.keeps_read_bind fun base _ => Proc.keeps_ite (fun _ => Proc.keeps_pure ()) fun _ => ?_
      refine (keeps_onConn flags conn _).bind fun _ => ?_
      have inserts : Proc.Keeps Inv Event.Quiet (Proc.update fun base : UvLwipBase =>
          { base with connSet := insertConn conn base.connSet }) :=
        Proc.keeps_update fun s holds => members s _ holds
      exact Proc.keeps_ite (fun _ => (kills conn).bind fun _ => inserts) fun _ => inserts
  | proxyClosed conn => exact kills conn
  | readEnd conn =>
      refine Proc.keeps_read_bind fun base _ => ?_
      exact Proc.keeps_ite (fun _ => Proc.keeps_pure ()) fun _ => kills conn
  | written conn => exact keeps_onWrite removes flags conn
  | closed conn => exact kills conn

end Callbacks

/-- Before `release`. -/
structure Serving (s : UvLwipBase) : Prop where
  serving : s.closing = false
  waiting : s.lwipClosed = false
  owned : s.uvlwip = true

/-- After `release`: the counter is used up, and the first call of `onSelfClose`
was made or not. -/
structure Settled (lwipClosed : Bool) (s : UvLwipBase) : Prop where
  closing : s.closing = true
  spent : s.closingCount ≤ 0
  waiting : s.lwipClosed = lwipClosed

theorem serving_keeps (callbacks : List Callback) :
    Proc.Keeps Serving Event.Quiet (Proc.runAll baseStep callbacks) := by
  refine Proc.keeps_runAll (keeps_baseStep ?_ ?_ ?_) callbacks
  · intro conn s holds
    unfold Proc.Emits
    rw [removeConnection_serving conn holds.serving]
    exact ⟨⟨holds.serving, holds.waiting, holds.owned⟩, nofun⟩
  · exact fun s conns holds => ⟨holds.serving, holds.waiting, holds.owned⟩
  · exact fun s connSet holds => ⟨holds.serving, holds.waiting, holds.owned⟩

/-- The counter only falls, so it does not become zero again. -/
theorem settled_keeps (lwipClosed : Bool) (callbacks : List Callback) :
    Proc.Keeps (Settled lwipClosed) Event.Quiet (Proc.runAll baseStep callbacks) := by
  refine Proc.keeps_runAll (keeps_baseStep ?_ ?_ ?_) callbacks
  · intro conn s holds
    have spent := holds.spent
    have passed : ¬ s.closingCount - 1 = 0 := by omega
    have lower : s.closingCount - 1 ≤ 0 := by omega
    unfold Proc.Emits
    rw [removeConnection_closing conn holds.closing, if_neg passed]
    exact ⟨⟨holds.closing, lower, holds.waiting⟩, nofun⟩
  · exact fun s conns holds => ⟨holds.closing, holds.spent, holds.waiting⟩
  · exact fun s connSet holds => ⟨holds.closing, holds.spent, holds.waiting⟩

/-! ## The release -/

/-- In the loop of `release`, with so many connections left. -/
structure Closing (left : Nat) (s : UvLwipBase) : Prop where
  closing : s.closing = true
  owned : s.uvlwip = true
  counted : s.closingCount = left
  waiting : s.lwipClosed = false

theorem closeHandle_framed (conn : Nat) :
    (closeHandle conn).Framed
      (fun s => (s.closing, s.uvlwip, s.closingCount, s.lwipClosed)) Event.Quiet := by
  refine Proc.framed_read.bind fun base => Proc.framed_ite (Proc.framed_pure ()) ?_
  have flagged : (onConn conn fun c => { c with closing := true }).Framed
      (fun s => (s.closing, s.uvlwip, s.closingCount, s.lwipClosed)) Event.Quiet :=
    Proc.framed_update fun _ => rfl
  exact flagged.bind fun _ => Proc.framed_emit nofun

theorem Closing.removed {left : Nat} {s : UvLwipBase} (holds : Closing (left + 1) s) (conn : Nat) :
    removeConnection conn s =
      ⟨(), { s with closingCount := left, lwipClosed := decide (left = 0) }, []⟩ := by
  have count : s.closingCount - 1 = left := by
    rw [holds.counted]
    omega
  rw [removeConnection_closing conn holds.closing, count]
  cases left with
  | zero =>
      have last : ((0 : Nat) : Int) = 0 := rfl
      rw [if_pos last]
      unfold onSelfClose
      rw [Proc.read_bind, if_neg (by simp [holds.waiting])]
      rfl
  | succ left =>
      have more : ¬ ((left + 1 : Nat) : Int) = 0 := by omega
      have flag : decide (left + 1 = 0) = s.lwipClosed := by simp [holds.waiting]
      rw [if_neg more, flag]
      rfl

/-- Every connection is asked to close, and the last of them makes the first call
of `onSelfClose`. -/
theorem closeAll_settles (conns : List Nat) {s : UvLwipBase} (holds : Closing conns.length s) :
    Settled (decide (conns ≠ [])) (closeAll conns s).state ∧
      (closeAll conns).Emits Event.Quiet s ∧
      ∀ conn ∈ conns, .asked conn ∈ (closeAll conns s).events := by
  induction conns generalizing s with
  | nil =>
      have spent : s.closingCount ≤ 0 := Int.le_of_eq holds.counted
      exact ⟨⟨holds.closing, spent, holds.waiting⟩, Proc.emits_pure (), nofun⟩
  | cons conn rest ih =>
      obtain ⟨kept, quiet⟩ := closeHandle_framed conn
        { s with closingCount := rest.length, lwipClosed := decide (rest.length = 0) }
      have closed := close_of_removed conn holds.owned (holds.removed conn)
      rw [Prod.mk.injEq, Prod.mk.injEq, Prod.mk.injEq] at kept
      obtain ⟨closing, owned, counted, waiting⟩ := kept
      have remaining : Settled (decide (conn :: rest ≠ []))
            (closeAll rest (close conn false s).state).state ∧
          (closeAll rest).Emits Event.Quiet (close conn false s).state ∧
          ∀ other ∈ rest, .asked other ∈ (closeAll rest (close conn false s).state).events := by
        rw [closed]
        cases rest with
        | nil =>
            exact ⟨⟨closing.trans holds.closing, Int.le_of_eq counted, waiting⟩, Proc.emits_pure (),
              nofun⟩
        | cons next others =>
            exact ih ⟨closing.trans holds.closing, owned.trans holds.owned, counted, waiting⟩
      obtain ⟨settled, still, askedRest⟩ := remaining
      have first : (close conn false).Emits Event.Quiet s := by
        unfold Proc.Emits
        rw [closed]
        exact List.forall_mem_cons.mpr ⟨nofun, quiet⟩
      refine ⟨settled, (Proc.emits_bind _ _).mpr ⟨first, still⟩, ?_⟩
      intro other member
      change Event.asked other ∈ (close conn false s).events ++ _
      rcases List.mem_cons.mp member with rfl | later
      · rw [closed]
        exact List.mem_append_left _ List.mem_cons_self
      · exact List.mem_append_right _ (askedRest other later)

theorem release_settles {s : UvLwipBase} (serving : Serving s) :
    Settled (decide (s.connSet ≠ [])) (release s).state ∧ release.Emits Event.Quiet s ∧
      ∀ conn ∈ s.connSet, .asked conn ∈ (release s).events := by
  have begins : Closing s.connSet.length { s with closing := true, closingCount := s.connSet.length } :=
    ⟨rfl, serving.owned, rfl, serving.waiting⟩
  obtain ⟨settled, quiet, asked⟩ := closeAll_settles s.connSet begins
  have events : (release s).events = (closeAll s.connSet
      { s with closing := true, closingCount := s.connSet.length }).events := List.append_nil _
  unfold Proc.Emits at quiet ⊢
  rw [events]
  exact ⟨⟨settled.closing, settled.spent, settled.waiting⟩, quiet, asked⟩

/-- The close callback of the listener makes the second call of `onSelfClose`, or
the first. -/
theorem listenerClosed_settled {lwipClosed : Bool} {s : UvLwipBase} (settled : Settled lwipClosed s) :
    Settled true (listenerClosed s).state ∧
      (listenerClosed s).events = .listenerClosed :: if lwipClosed then [.reset] else [] := by
  have waiting := settled.waiting
  unfold listenerClosed onSelfClose
  rw [Proc.bind_state, Proc.bind_events, Proc.emit_state, Proc.read_bind, waiting]
  cases lwipClosed with
  | true => exact ⟨⟨settled.closing, settled.spent, waiting⟩, rfl⟩
  | false => exact ⟨⟨settled.closing, settled.spent, rfl⟩, rfl⟩

/-! ## Exactly once -/

/-- The reference is dropped once, after the listener has closed and all these
connections were asked to close. -/
def ReleasedOnce (conns : List Nat) (events : List Event) : Prop :=
  ∃ before after, events = before ++ .reset :: after ∧
    (∀ event ∈ before, event.Quiet) ∧ (∀ event ∈ after, event.Quiet) ∧
    .listenerClosed ∈ before ∧ ∀ conn ∈ conns, .asked conn ∈ before

/-- The trace of a lifetime: the reference is dropped by the listener's callback
or not at all. -/
theorem lifetime_events (before first second : List Callback) :
    ∃ early late,
      (lifetime before first second .start).events =
        early ++ .listenerClosed ::
          ((if (Proc.runAll baseStep before .start).state.connSet ≠ [] then [.reset] else []) ++ late) ∧
      (∀ event ∈ early, event.Quiet) ∧ (∀ event ∈ late, event.Quiet) ∧
      ∀ conn ∈ (Proc.runAll baseStep before .start).state.connSet, .asked conn ∈ early := by
  obtain ⟨serving, served⟩ := serving_keeps before .start ⟨rfl, rfl, rfl⟩
  obtain ⟨settled, released, asked⟩ := release_settles serving
  obtain ⟨settled, waited⟩ := settled_keeps _ first _ settled
  obtain ⟨settled, closed⟩ := listenerClosed_settled settled
  obtain ⟨_, rested⟩ := settled_keeps _ second _ settled
  refine ⟨(Proc.runAll baseStep before .start).events ++
    ((release (Proc.runAll baseStep before .start).state).events ++
      (Proc.runAll baseStep first (release (Proc.runAll baseStep before .start).state).state).events),
    _, ?_, ?_, rested, ?_⟩
  · unfold lifetime
    simp only [Proc.bind_events, closed, decide_eq_true_eq]
    simp only [List.append_assoc, List.cons_append]
  · exact List.forall_mem_append.mpr ⟨served, List.forall_mem_append.mpr ⟨released, waited⟩⟩
  · intro conn member
    exact List.mem_append_right _ (List.mem_append_left _ (asked conn member))

/-- In every lifetime, with callbacks of any kind in any order: the base releases
itself exactly once, and not too early, exactly when it has a connection at the
time of `release`. -/
theorem released_once_iff (before first second : List Callback) :
    ReleasedOnce (Proc.runAll baseStep before .start).state.connSet
        (lifetime before first second .start).events ↔
      (Proc.runAll baseStep before .start).state.connSet ≠ [] := by
  obtain ⟨early, late, events, quietEarly, quietLate, asked⟩ := lifetime_events before first second
  rw [events]
  constructor
  · rintro ⟨front, back, split, -⟩ none
    have dropped : Event.reset ∈ front ++ .reset :: back := List.mem_append_right _ List.mem_cons_self
    rw [← split, if_neg (not_not.mpr none)] at dropped
    rcases List.mem_append.mp dropped with soon | later
    · exact quietEarly _ soon rfl
    · rcases List.mem_cons.mp later with same | last
      · cases same
      · exact quietLate _ last rfl
  · intro some
    rw [if_pos some]
    refine ⟨early ++ [.listenerClosed], late, by simp, ?_, quietLate, by simp, ?_⟩
    · exact List.forall_mem_append.mpr ⟨quietEarly, List.forall_mem_singleton.mpr nofun⟩
    · exact fun conn member => List.mem_append_left _ (asked conn member)

/-- One connection, whose close callback runs before the listener's. -/
theorem released_once_one_connection :
    ReleasedOnce [7] (lifetime [.connect 7 .tcp false] [.closed 7] [] .start).events :=
  (released_once_iff [.connect 7 .tcp false] [.closed 7] []).mpr (List.cons_ne_nil 7 [])

/-- Without a connection the reference is never dropped. -/
theorem not_released_without_connections :
    (lifetime [] [] [] .start).events = [.listenerClosed] ∧
      (lifetime [] [] [] .start).state.sPtr = true ∧
      ¬ ReleasedOnce [] (lifetime [] [] [] .start).events := by
  have events : (lifetime [] [] [] .start).events = [.listenerClosed] := rfl
  refine ⟨events, rfl, ?_⟩
  rintro ⟨front, back, split, -⟩
  have dropped : Event.reset ∈ front ++ .reset :: back := List.mem_append_right _ List.mem_cons_self
  rw [← split, events] at dropped
  cases List.mem_singleton.mp dropped

end SwitchLanPlay.UvLwip.Release
