import SwitchLanPlay.UvLwip.Pcb

/-!
# Calls on an open pcb

As long as no `tcp_write` fails with an error other than `ERR_MEM`, every call
passes a pcb that is not NULL, on a connection that is not `closed`, whatever
`tcp_output` and `tcp_close` answer and however the owner reacts.  After such an
error the write step goes on, and its last call at the latest passes NULL.
-/

namespace SwitchLanPlay.UvLwip.Pcb

open Library

/-! ## Conditions -/

/-- A call that is made passes a pcb, and the connection is not `closed`. -/
def PcbEvent.OnOpenPcb : PcbEvent → Prop
  | .lwip _ pcb closed => pcb = true ∧ closed = false
  | .writeFailed => True

def PcbEvent.Fine (event : PcbEvent) : Prop := event.OnOpenPcb ∧ event ≠ .writeFailed

/-- The connection is open. -/
structure Open (s : UvlTcp) : Prop where
  pcb : s.pcb = true
  closed : s.closed = false

/-- The pcb is gone, but the read callback may still be on its way. -/
structure Shut (s : UvlTcp) : Prop where
  pcb : s.pcb = false
  closed : s.closed = true

/-- The pcb is gone and nobody reads. -/
structure Ended (s : UvlTcp) : Prop extends Shut s where
  silent : s.readCb = false

/-- `pcb` is NULL exactly when `closed` is set, and then nobody reads. -/
structure Coherent (s : UvlTcp) : Prop where
  pcb : s.pcb = !s.closed
  silent : s.closed = true → s.readCb = false

/-- Between two callbacks: what the owner closed is `closed`. -/
structure Tidy (s : UvlTcp) : Prop extends Coherent s where
  ended : s.closing = true → s.closed = true

/-- Between two calls of a write step. -/
structure Writable (s : UvlTcp) : Prop extends Tidy s where
  opened : s.closed = false

theorem Writable.open {s : UvlTcp} (writable : Writable s) : Open s :=
  ⟨by rw [writable.pcb, writable.opened]; rfl, writable.opened⟩

theorem Ended.tidy {s : UvlTcp} (ended : Ended s) : Tidy s :=
  ⟨⟨by rw [ended.pcb, ended.closed]; rfl, fun _ => ended.silent⟩, fun _ => ended.closed⟩

theorem Coherent.ended_of_closed {s : UvlTcp} (coherent : Coherent s) (closed : s.closed = true) :
    Ended s :=
  ⟨⟨by rw [coherent.pcb, closed]; rfl, closed⟩, coherent.silent closed⟩

theorem Coherent.open_of_not_closed {s : UvlTcp} (coherent : Coherent s) (notClosed : ¬ s.closed = true) :
    Open s := by
  have closed : s.closed = false := by simpa using notClosed
  exact ⟨by rw [coherent.pcb, closed]; rfl, closed⟩

/-! ## Closing -/

/-- A call on an open connection is fine and changes nothing. -/
theorem call_keeps {Inv : UvlTcp → Prop} (opened : ∀ s, Inv s → Open s) (fn : LwipFn) :
    Proc.Keeps Inv PcbEvent.Fine (call fn) := by
  intro s holds
  refine ⟨holds, ?_⟩
  unfold call
  rw [Proc.emits_read_bind, Proc.emits_emit]
  exact ⟨⟨(opened s holds).pcb, (opened s holds).closed⟩, nofun⟩

theorem call_open (fn : LwipFn) : Proc.Keeps Open PcbEvent.Fine (call fn) :=
  call_keeps (fun _ holds => holds) fn

theorem removeCallbacks_open : Proc.Keeps Open PcbEvent.Fine removeCallbacks :=
  (call_open .tcpErr).bind fun _ => (call_open .tcpRecv).bind fun _ => call_open .tcpSent

/-- A condition on connections that are `closed`, which closing and stopping to
read does not end. -/
structure Steady (Inv : UvlTcp → Prop) : Prop where
  closed : ∀ s, Inv s → s.closed = true
  queues : ∀ s queue, Inv s → Inv { s with queue := queue }
  stops : ∀ s, Inv s → Inv { s with readCb := false }
  flags : ∀ s closing, Inv s → Inv { s with closing := closing }
  streams : ∀ s reactions, Inv s → Inv { s with reactions := reactions }

theorem steady_shut : Steady Shut where
  closed := fun _ holds => holds.closed
  queues := fun _ _ holds => ⟨holds.pcb, holds.closed⟩
  stops := fun _ holds => ⟨holds.pcb, holds.closed⟩
  flags := fun _ _ holds => ⟨holds.pcb, holds.closed⟩
  streams := fun _ _ holds => ⟨holds.pcb, holds.closed⟩

theorem steady_ended : Steady Ended where
  closed := fun _ holds => holds.closed
  queues := fun _ _ holds => ⟨⟨holds.pcb, holds.closed⟩, holds.silent⟩
  stops := fun _ holds => ⟨⟨holds.pcb, holds.closed⟩, rfl⟩
  flags := fun _ _ holds => ⟨⟨holds.pcb, holds.closed⟩, holds.silent⟩
  streams := fun _ _ holds => ⟨⟨holds.pcb, holds.closed⟩, holds.silent⟩

namespace Steady

variable {Inv : UvlTcp → Prop} (steady : Steady Inv)

include steady

theorem cancelReqs {owner : Client Unit} (keeps : Proc.Keeps Inv PcbEvent.Fine owner) :
    Proc.Keeps Inv PcbEvent.Fine (uvlCancelReqs owner) := by
  have loop (reqs : List Nat) : Proc.Keeps Inv PcbEvent.Fine (cancelLoop owner reqs) := by
    induction reqs with
    | nil => exact Proc.keeps_pure ()
    | cons req rest ih => exact keeps.bind fun _ => ih
  refine Proc.keeps_read_bind fun client _ => (loop _).bind fun _ => ?_
  refine Proc.Keeps.bind (Proc.keeps_update fun s holds => steady.queues s _ holds) fun _ => ?_
  refine Proc.keeps_read_bind fun client _ => Proc.keeps_ite (fun _ => ?_) fun _ => Proc.keeps_pure ()
  exact keeps.bind fun _ => Proc.keeps_update steady.stops

/-- On a connection that is `closed`, closing makes no call. -/
theorem tcpClose : Proc.Keeps Inv PcbEvent.Fine uvlTcpClose := by
  refine Proc.keeps_read_bind fun client _ => Proc.keeps_ite (fun _ => Proc.keeps_pure ()) fun _ => ?_
  refine Proc.Keeps.bind (Proc.keeps_update fun s holds => steady.flags s true holds) fun _ => ?_
  have nothing : Proc.Keeps Inv PcbEvent.Fine (closeIfOpen (pure ())) := by
    refine Proc.keeps_read_bind fun client holds => Proc.keeps_ite (fun _ => Proc.keeps_pure ()) ?_
    exact fun notClosed => absurd (steady.closed client holds) notClosed
  exact nothing.bind fun _ => steady.cancelReqs (Proc.keeps_pure ())

theorem keeps_owner : Proc.Keeps Inv PcbEvent.Fine owner := by
  have stop : Proc.Keeps Inv PcbEvent.Fine uvlReadStop := Proc.keeps_update steady.stops
  refine Proc.keeps_read_bind fun client _ => ?_
  refine Proc.Keeps.bind (Proc.keeps_update fun s holds => steady.streams s _ holds) fun _ => ?_
  cases client.reactions 0 with
  | nothing => exact Proc.keeps_pure ()
  | stop => exact stop
  | close => exact stop.bind fun _ => steady.tcpClose

end Steady

/-- The state satisfies `P`, and every call so far was fine. -/
abbrev Clean (P : UvlTcp → Prop) : UvlTcp → List PcbEvent → Prop := Proc.Clean P PcbEvent.Fine

/-- `uvl_client_freed` ends the connection, whatever the read callback does. -/
theorem triple_uvlClientFreed {owner : Client Unit} (keeps : Proc.Keeps Shut PcbEvent.Fine owner) :
    Proc.Triple (Clean fun _ => True) (uvlClientFreed owner) fun _ => Clean Ended := by
  refine Proc.Triple.bind (fun _ => Clean Shut) (Proc.triple_update ?_) fun _ => ?_
  · exact fun s past pre => ⟨⟨rfl, rfl⟩, pre.2⟩
  refine Proc.triple_read_bind fun client => Proc.triple_ite (fun _ => ?_) fun unread => ?_
  · refine Proc.Triple.bind (fun _ => Clean Shut) ?_ fun _ => Proc.triple_update ?_
    · exact (Proc.keeps_iff_triple.mp keeps).strengthen fun s past pre => pre.2
    · exact fun s past pre => ⟨⟨⟨pre.1.pcb, pre.1.closed⟩, rfl⟩, pre.2⟩
  · refine Proc.triple_pure ?_
    rintro s past ⟨rfl, shut, clean⟩
    exact ⟨⟨shut, by simpa using unread⟩, clean⟩

/-- `uvl_client_close_func` ends an open connection, whatever `tcp_close` answers. -/
theorem triple_uvlClientCloseFunc {owner : Client Unit} (keeps : Proc.Keeps Shut PcbEvent.Fine owner) :
    Proc.Triple (Clean Open) (uvlClientCloseFunc owner) fun _ => Clean Ended := by
  have freed : Proc.Triple (Clean Open) (uvlClientFreed owner) fun _ => Clean Ended :=
    (triple_uvlClientFreed keeps).strengthen fun s past pre => ⟨trivial, pre.2⟩
  have calls (fn : LwipFn) := Proc.keeps_iff_triple.mp (call_open fn)
  have removes := Proc.keeps_iff_triple.mp removeCallbacks_open
  have returns (value : Int) : Proc.Triple (Clean Ended) (pure value : Client Int) fun _ => Clean Ended :=
    Proc.triple_pure fun s past pre => pre
  refine removes.bind _ fun _ => (calls .tcpClose).bind _ fun _ => ?_
  refine Proc.triple_read_bind_of_forall fun client => ?_
  refine Proc.Triple.bind (fun _ => Clean Open) (Proc.triple_update ?_) fun _ => ?_
  · exact fun s past pre => ⟨⟨pre.1.pcb, pre.1.closed⟩, pre.2⟩
  refine Proc.triple_ite (fun _ => ?_) fun _ => freed.bind _ fun _ => returns errOk
  exact removes.bind _ fun _ => (calls .tcpAbort).bind _ fun _ => freed.bind _ fun _ => returns errAbrt

/-! ## Between callbacks -/

theorem closeIfOpen_ends :
    Proc.Triple (Clean Coherent) (closeIfOpen (pure ())) fun _ => Clean Ended := by
  refine Proc.triple_read_bind fun client => Proc.triple_ite (fun closed => ?_) fun notClosed => ?_
  · refine Proc.triple_pure ?_
    rintro s past ⟨rfl, coherent, clean⟩
    exact ⟨coherent.ended_of_closed closed, clean⟩
  · have opened : ∀ s past, s = client ∧ Clean Coherent s past → Clean Open s past := by
      rintro s past ⟨rfl, coherent, clean⟩
      exact ⟨coherent.open_of_not_closed notClosed, clean⟩
    have nothing : Proc.Keeps Shut PcbEvent.Fine (pure () : Client Unit) := Proc.keeps_pure ()
    have closes := (triple_uvlClientCloseFunc nothing).strengthen opened
    exact closes.bind _ fun _ => Proc.triple_pure fun s past pre => pre

theorem uvlTcpClose_tidy : Proc.Keeps Tidy PcbEvent.Fine uvlTcpClose := by
  rw [Proc.keeps_iff_triple]
  refine Proc.triple_read_bind_of_forall fun client => Proc.triple_ite (fun _ => ?_) fun _ => ?_
  · exact Proc.triple_pure fun s past pre => pre
  refine Proc.Triple.bind (fun _ => Clean Coherent) (Proc.triple_update ?_) fun _ => ?_
  · exact fun s past pre => ⟨⟨pre.1.pcb, pre.1.silent⟩, pre.2⟩
  refine closeIfOpen_ends.bind _ fun _ => ?_
  have cancels := Proc.keeps_iff_triple.mp (steady_ended.cancelReqs (Proc.keeps_pure ()))
  exact cancels.weaken fun _ s past post => ⟨post.1.tidy, post.2⟩

theorem owner_tidy : Proc.Keeps Tidy PcbEvent.Fine owner := by
  have stop : Proc.Keeps Tidy PcbEvent.Fine uvlReadStop :=
    Proc.keeps_update fun s holds => ⟨⟨holds.pcb, fun _ => rfl⟩, holds.ended⟩
  refine Proc.keeps_read_bind fun client _ => ?_
  refine Proc.Keeps.bind (Proc.keeps_update fun s holds => ?_) fun _ => ?_
  · exact ⟨⟨holds.pcb, holds.silent⟩, holds.ended⟩
  cases client.reactions 0 with
  | nothing => exact Proc.keeps_pure ()
  | stop => exact stop
  | close => exact stop.bind fun _ => uvlTcpClose_tidy

/-- Changes of the queue do not matter. -/
theorem onQueue_tidy (f : UvlQueue → UvlQueue) : Proc.Keeps Tidy PcbEvent.Fine (onQueue f) :=
  Proc.keeps_update fun _ holds => ⟨⟨holds.pcb, holds.silent⟩, holds.ended⟩

theorem completeRequests_tidy (reqs : List Nat) :
    Proc.Keeps Tidy PcbEvent.Fine (completeRequests reqs) := by
  induction reqs with
  | nil => exact Proc.keeps_pure ()
  | cons req rest ih =>
      refine Proc.keeps_read_bind fun client _ => Proc.keeps_ite (fun _ => ?_) fun _ => Proc.keeps_pure ()
      exact (onQueue_tidy _).bind fun _ => owner_tidy.bind fun _ => ih

theorem halt_tidy : Proc.Keeps Tidy PcbEvent.Fine halt :=
  Proc.keeps_update fun _ holds => ⟨⟨holds.pcb, holds.silent⟩, holds.ended⟩

theorem consume_tidy (reqs : List Nat) (len : Nat) : Proc.Keeps Tidy PcbEvent.Fine (consume reqs len) := by
  induction reqs generalizing len with
  | nil => exact Proc.keeps_ite (fun _ => Proc.keeps_pure ()) fun _ => halt_tidy
  | cons req rest ih =>
      refine Proc.keeps_ite (fun _ => Proc.keeps_pure ()) fun _ => Proc.keeps_read_bind fun client _ => ?_
      exact (onQueue_tidy _).bind fun _ => ih _

/-- A read callback is in place only on an open connection. -/
theorem uvlAsyncTcpReadCb_tidy (alloc : Option Nat) :
    Proc.Keeps Tidy PcbEvent.Fine (uvlAsyncTcpReadCb alloc) := by
  rw [Proc.keeps_iff_triple]
  have reacts := Proc.keeps_iff_triple.mp owner_tidy
  refine Proc.triple_read_bind fun client => Proc.triple_ite (fun reads => ?_) fun _ => ?_
  · refine Proc.triple_ite (fun _ => reacts.strengthen fun s past pre => pre.2) fun _ => ?_
    have opened : ∀ s past, s = client ∧ Clean Tidy s past → Clean Writable s past := by
      rintro s past ⟨rfl, tidy, clean⟩
      refine ⟨⟨tidy, ?_⟩, clean⟩
      by_contra closed
      have silent := tidy.silent (by simpa using closed)
      rw [silent] at reads
      cases reads.1
    have calls := Proc.keeps_iff_triple.mp (call_keeps (fun s holds => Writable.open holds) .tcpRecved)
    refine (calls.strengthen opened).bind _ fun _ => ?_
    refine Proc.Triple.bind (fun _ => Clean Tidy) (Proc.triple_update ?_) fun _ => reacts
    exact fun s past pre => ⟨⟨⟨pre.1.pcb, pre.1.silent⟩, pre.1.ended⟩, pre.2⟩
  · exact Proc.triple_pure fun s past pre => pre.2

/-- lwIP calls back on an open connection. -/
theorem whileOpen_tidy {callback : Client Unit}
    (triple : Proc.Triple (Clean Writable) callback fun _ => Clean Tidy) :
    Proc.Keeps Tidy PcbEvent.Fine (whileOpen callback) := by
  rw [Proc.keeps_iff_triple]
  refine Proc.triple_read_bind fun client => Proc.triple_ite (fun _ => ?_) fun notClosed => ?_
  · exact Proc.triple_pure fun s past pre => pre.2
  · refine triple.strengthen ?_
    rintro s past ⟨rfl, tidy, clean⟩
    exact ⟨⟨tidy, by simpa using notClosed⟩, clean⟩

theorem closes_tidy :
    Proc.Triple (Clean Writable) (uvlClientCloseFunc owner) fun _ => Clean Tidy := by
  have closes := (triple_uvlClientCloseFunc steady_shut.keeps_owner).strengthen
    fun s past (pre : Clean Writable s past) => ⟨pre.1.open, pre.2⟩
  exact closes.weaken fun _ s past post => ⟨post.1.tidy, post.2⟩

theorem uvlClientRecvFunc_tidy (buffer : Option Bytes) :
    Proc.Triple (Clean Writable) (uvlClientRecvFunc buffer) fun _ => Clean Tidy := by
  cases buffer with
  | none => exact closes_tidy.bind _ fun _ => Proc.triple_pure fun s past pre => pre
  | some bytes =>
      refine Proc.triple_read_bind_of_forall fun client => Proc.triple_ite (fun _ => ?_) fun _ => ?_
      · exact Proc.triple_pure fun s past pre => ⟨pre.1.toTidy, pre.2⟩
      · exact Proc.triple_update fun s past pre =>
          ⟨⟨⟨pre.1.pcb, pre.1.silent⟩, pre.1.ended⟩, pre.2⟩

/-! ## Writing -/

/-- In a write step: nothing went wrong, or a write failed and the pcb is gone. -/
def Ready (s : UvlTcp) (past : List PcbEvent) : Prop :=
  Clean Writable s past ∨ .writeFailed ∈ past ∧ s.pcb = false

/-- A write failed, and some call was not on an open pcb. -/
def Broken (past : List PcbEvent) : Prop :=
  .writeFailed ∈ past ∧ ∃ event ∈ past, ¬ event.OnOpenPcb

/-- Between two callbacks. -/
def Going (s : UvlTcp) (past : List PcbEvent) : Prop := Clean Tidy s past ∨ Broken past

theorem writable_call (fn : LwipFn) : Proc.Keeps Writable PcbEvent.Fine (call fn) :=
  call_keeps (fun _ holds => holds.open) fn

theorem writable_onQueue (f : UvlQueue → UvlQueue) : Proc.Keeps Writable PcbEvent.Fine (onQueue f) :=
  Proc.keeps_update fun _ holds => ⟨⟨⟨holds.pcb, holds.silent⟩, holds.ended⟩, holds.opened⟩

/-- What is known when `tcp_write` has answered. -/
def Answered (answer : Option TcpErr) (s : UvlTcp) (past : List PcbEvent) : Prop :=
  match answer with
  | none => Writable s ∧ .writeFailed ∈ past
  | some _ => Clean Writable s past

/-- `tcp_write` on an open connection. -/
theorem triple_tcpWrite (bytes : Bytes) :
    Proc.Triple (Clean Writable) (tcpWrite bytes) Answered := by
  have queues (f : UvlQueue → UvlQueue) := Proc.keeps_iff_triple.mp (writable_onQueue f)
  refine (Proc.keeps_iff_triple.mp (writable_call .tcpWrite)).bind _ fun _ => ?_
  refine Proc.triple_read_bind_of_forall fun client => ?_
  refine Proc.Triple.bind (fun _ => Clean Writable) (Proc.triple_update ?_) fun _ => ?_
  · exact fun s past pre => ⟨⟨⟨⟨pre.1.pcb, pre.1.silent⟩, pre.1.ended⟩, pre.1.opened⟩, pre.2⟩
  refine Proc.triple_ite (fun _ => ?_) fun _ => (queues _).bind _ fun _ => ?_
  · refine Proc.Triple.bind (fun _ => Answered none) (Proc.triple_emit ?_)
      fun _ => Proc.triple_pure fun s past pre => pre
    exact fun s past pre => ⟨pre.1, List.mem_append_right _ List.mem_cons_self⟩
  · cases client.queue.results 0 with
    | mem => exact Proc.triple_pure fun s past pre => pre
    | ok => exact (queues _).bind _ fun _ => Proc.triple_pure fun s past pre => pre

/-- After a failed write the connection is closed, and the pcb is NULL. -/
theorem closes_after_failure :
    Proc.Triple (Answered none) (uvlClientCloseFunc owner) fun _ => Ready := by
  rintro s past ⟨writable, failed⟩
  have closes := triple_uvlClientCloseFunc steady_shut.keeps_owner s [] ⟨writable.open, nofun⟩
  exact Or.inr ⟨List.mem_append_left _ failed, closes.1.pcb⟩

/-- What is known when the loop of `uvl_imp_write_buf_to_tcp` is left. -/
def Looped (ret : Option Int) (s : UvlTcp) (past : List PcbEvent) : Prop :=
  match ret with
  | none => Clean Writable s past
  | some _ => Ready s past

theorem triple_writeLoop (req : Nat) (buf : Bytes) (sndbuf sent : Nat) :
    Proc.Triple (Clean Writable) (writeLoop req buf sndbuf sent) Looped := by
  induction sndbuf using Nat.strong_induction_on generalizing sent with
  | _ sndbuf ih =>
      rw [writeLoop]
      refine (Proc.keeps_iff_triple.mp (writable_call .tcpSndbuf)).bind _ fun _ => ?_
      split
      · exact Proc.triple_pure fun s past pre => pre
      · rename_i room
        refine (triple_tcpWrite _).bind _ fun answer => ?_
        cases answer with
        | none => exact closes_after_failure.bind _ fun err => Proc.triple_pure fun s past pre => pre
        | some answer =>
            cases answer with
            | mem => exact Proc.triple_pure fun s past pre => Or.inl pre
            | ok =>
                refine (Proc.keeps_iff_triple.mp (writable_onQueue _)).bind _ fun _ => ?_
                refine Proc.triple_ite (fun _ => ih _ (by omega) _) fun _ => ?_
                exact Proc.triple_pure fun s past pre => pre

theorem mayNext_writable (req : Nat) : Proc.Keeps Writable PcbEvent.Fine (mayNext req) := by
  refine (writable_call .tcpSndbuf).bind fun _ => Proc.keeps_read_bind fun client _ => ?_
  refine Proc.keeps_ite (fun _ => Proc.keeps_pure 0) fun _ => ?_
  exact (writable_onQueue _).bind fun _ => Proc.keeps_pure 1

/-- Once the pcb is NULL, the write step does not bring it back. -/
theorem sndbufHalts_ready : Proc.Triple Ready sndbufHalts fun _ => Ready := by
  have halts : Proc.Keeps Writable PcbEvent.Fine halt :=
    Proc.keeps_update fun s holds => ⟨⟨⟨holds.pcb, holds.silent⟩, holds.ended⟩, holds.opened⟩
  have keeps := Proc.keeps_iff_triple.mp ((writable_call .tcpSndbuf).bind fun _ => halts)
  rintro s past (clean | ⟨failed, pcb⟩)
  · exact Or.inl (keeps s past clean)
  · exact Or.inr ⟨List.mem_append_left _ failed, pcb⟩

theorem triple_uvlImpWriteBufToTcp (req : Nat) (buf : Bytes) :
    Proc.Triple Ready (uvlImpWriteBufToTcp req buf) fun _ => Ready := by
  refine Proc.triple_read_bind fun client => Proc.triple_ite (fun pcb => ?_) fun _ => ?_
  · have opened : ∀ s past, s = client ∧ Ready s past → Clean Writable s past := by
      rintro s past ⟨rfl, clean | ⟨_, gone⟩⟩
      · exact clean
      · rw [gone] at pcb
        cases pcb
    refine ((triple_writeLoop _ _ _ _).strengthen opened).bind _ fun ret => ?_
    cases ret with
    | some ret => exact Proc.triple_pure fun s past pre => pre
    | none => exact (Proc.keeps_iff_triple.mp (mayNext_writable req)).weaken fun _ _ _ => Or.inl
  · have halts := sndbufHalts_ready.strengthen fun s past (pre : s = client ∧ Ready s past) => pre.2
    exact halts.bind _ fun _ => Proc.triple_pure fun s past pre => pre

theorem triple_writeRequest (req : Nat) (bufs : List Bytes) :
    Proc.Triple Ready (writeRequest req bufs) fun _ => Ready := by
  induction bufs with
  | nil => exact sndbufHalts_ready.bind _ fun _ => Proc.triple_pure fun s past pre => pre
  | cons buf bufs ih =>
      refine (triple_uvlImpWriteBufToTcp req buf).bind _ fun ret => ?_
      refine Proc.triple_ite (fun _ => Proc.triple_pure fun s past pre => pre) fun _ => ?_
      refine Proc.triple_read_bind_of_forall fun client => Proc.triple_ite (fun _ => ?_) fun _ => ih
      exact Proc.triple_pure fun s past pre => pre

theorem triple_writeRequests (reqs : List Nat) :
    Proc.Triple Ready (writeRequests reqs) fun _ => Ready := by
  induction reqs with
  | nil => exact Proc.triple_pure fun s past pre => pre
  | cons req rest ih =>
      refine Proc.triple_read_bind_of_forall fun client => ?_
      refine (triple_writeRequest req _).bind _ fun goesOn => Proc.triple_ite (fun _ => ih) fun _ => ?_
      exact Proc.triple_pure fun s past pre => pre

theorem tcpOutput_writable : Proc.Triple (Clean Writable) tcpOutput fun _ => Clean Tidy := by
  refine (Proc.keeps_iff_triple.mp (writable_call .tcpOutput)).bind _ fun _ => ?_
  refine Proc.triple_read_bind fun client => Proc.triple_ite (fun _ => ?_) fun noPcb => ?_
  · refine Proc.Triple.bind (fun _ => Clean Writable) (Proc.triple_update ?_) fun _ => ?_
    · exact fun s past pre =>
        ⟨⟨⟨⟨pre.2.1.pcb, pre.2.1.silent⟩, pre.2.1.ended⟩, pre.2.1.opened⟩, pre.2.2⟩
    · refine Proc.triple_ite (fun _ => ?_) fun _ => ?_
      · exact closes_tidy.bind _ fun _ => Proc.triple_pure fun s past pre => pre
      · exact Proc.triple_pure fun s past pre => ⟨pre.1.toTidy, pre.2⟩
  · rintro s past ⟨rfl, writable, _⟩
    exact absurd writable.open.pcb noPcb

/-- The last call of a write step: after a failed write it passes NULL. -/
theorem triple_tcpOutput : Proc.Triple Ready tcpOutput fun _ => Going := by
  rintro s past (clean | ⟨failed, pcb⟩)
  · exact Or.inl (tcpOutput_writable s past clean)
  · have called : .lwip .tcpOutput s.pcb s.closed ∈ (tcpOutput s).events := List.mem_cons_self
    refine Or.inr ⟨List.mem_append_left _ failed, _, List.mem_append_right _ called, fun opened => ?_⟩
    have passed : s.pcb = true := opened.1
    rw [pcb] at passed
    cases passed

theorem triple_uvlImpWriteToTcp :
    Proc.Triple (Clean Writable) uvlImpWriteToTcp fun _ => Going := by
  refine Proc.triple_read_bind_of_forall fun client => ?_
  have writes := (triple_writeRequests (client.queue.queue.dropWhile fun req =>
    !decide ((client.queue.reqs req).sentBufs < (client.queue.reqs req).sendNbufs))).strengthen
      fun s past (clean : Clean Writable s past) => Or.inl clean
  exact writes.bind _ fun _ => triple_tcpOutput

theorem triple_uvlAsyncTcpWriteCb :
    Proc.Triple (Clean Tidy) uvlAsyncTcpWriteCb fun _ => Going := by
  refine Proc.triple_read_bind_of_forall fun client => ?_
  refine (Proc.keeps_iff_triple.mp (completeRequests_tidy client.queue.queue)).bind _ fun _ => ?_
  refine (Proc.keeps_iff_triple.mp (onQueue_tidy _)).bind _ fun _ => ?_
  refine Proc.triple_read_bind fun client => Proc.triple_ite (fun closed => ?_) fun notClosed => ?_
  · have ended : ∀ s past, s = client ∧ Clean Tidy s past → Clean Ended s past := by
      rintro s past ⟨rfl, tidy, clean⟩
      exact ⟨tidy.ended_of_closed closed, clean⟩
    have cancels := Proc.keeps_iff_triple.mp (steady_ended.cancelReqs steady_ended.keeps_owner)
    exact (cancels.strengthen ended).weaken fun _ s past post => Or.inl ⟨post.1.tidy, post.2⟩
  · refine Proc.triple_ite (fun _ => Proc.triple_pure fun s past pre => Or.inl pre.2) fun _ => ?_
    refine triple_uvlImpWriteToTcp.strengthen ?_
    rintro s past ⟨rfl, tidy, clean⟩
    exact ⟨⟨tidy, by simpa using notClosed⟩, clean⟩

/-! ## Runs -/

/-- The handles are closed only when the owner has closed the connection. -/
theorem handleClosed_tidy : Proc.Keeps Tidy PcbEvent.Fine (liveStep .handleClosed) := by
  rw [Proc.keeps_iff_triple]
  refine Proc.triple_read_bind fun client => Proc.triple_ite (fun closing => ?_) fun _ => ?_
  · have keeps : Proc.Keeps Ended PcbEvent.Fine (do
        Proc.update fun client : UvlTcp => { client with openHandles := client.openHandles - 1 }
        uvlTcpCloseHandleCb) := by
      refine Proc.Keeps.bind (Proc.keeps_update fun s holds => ?_) fun _ => ?_
      · exact ⟨⟨holds.pcb, holds.closed⟩, holds.silent⟩
      refine Proc.Keeps.bind (Proc.keeps_update fun s holds => ?_) fun _ => ?_
      · exact ⟨⟨holds.pcb, holds.closed⟩, holds.silent⟩
      refine Proc.keeps_read_bind fun client _ => Proc.keeps_ite (fun _ => ?_) fun _ => Proc.keeps_pure ()
      exact Proc.keeps_update fun s holds => ⟨⟨rfl, holds.closed⟩, rfl⟩
    have ended : ∀ s past, s = client ∧ Clean Tidy s past → Clean Ended s past := by
      rintro s past ⟨rfl, tidy, clean⟩
      exact ⟨tidy.ended_of_closed (tidy.ended closing.1), clean⟩
    have triple := (Proc.keeps_iff_triple.mp keeps).strengthen ended
    exact triple.weaken fun _ s past post => ⟨post.1.tidy, post.2⟩
  · exact Proc.triple_pure fun s past pre => pre.2

theorem uvlReadStart_tidy : Proc.Keeps Tidy PcbEvent.Fine uvlReadStart := by
  rw [Proc.keeps_iff_triple]
  refine Proc.triple_read_bind fun client => Proc.triple_ite (fun _ => ?_) fun _ => ?_
  · exact Proc.triple_pure fun s past pre => pre.2
  refine Proc.triple_ite (fun _ => ?_) fun notClosed => Proc.triple_update ?_
  · exact (Proc.keeps_iff_triple.mp owner_tidy).strengthen fun s past pre => pre.2
  · rintro s past ⟨rfl, tidy, clean⟩
    exact ⟨⟨⟨tidy.pcb, fun closed => absurd closed notClosed⟩, tidy.ended⟩, clean⟩

theorem sent_tidy (len : UInt16) : Proc.Keeps Tidy PcbEvent.Fine (liveStep (.sent len)) := by
  refine Proc.keeps_read_bind fun client _ => Proc.keeps_ite (fun _ => Proc.keeps_pure ()) fun _ => ?_
  refine Proc.keeps_read_bind fun client _ => Proc.keeps_ite (fun _ => ?_) fun _ => Proc.keeps_pure ()
  refine (onQueue_tidy _).bind fun _ => Proc.keeps_read_bind fun client _ => ?_
  exact (consume_tidy _ _).bind fun _ => onQueue_tidy _

theorem asyncRead_tidy (alloc : Option Nat) :
    Proc.Keeps Tidy PcbEvent.Fine (liveStep (.asyncRead alloc)) := by
  refine Proc.keeps_read_bind fun client _ => Proc.keeps_ite (fun _ => ?_) fun _ => Proc.keeps_pure ()
  refine Proc.Keeps.bind (Proc.keeps_update fun s holds => ?_) fun _ => uvlAsyncTcpReadCb_tidy alloc
  exact ⟨⟨holds.pcb, holds.silent⟩, holds.ended⟩

theorem err_tidy : Proc.Keeps Tidy PcbEvent.Fine (liveStep .err) := by
  have freed := (triple_uvlClientFreed steady_shut.keeps_owner).strengthen
    fun s past (pre : Clean Writable s past) => ⟨trivial, pre.2⟩
  exact whileOpen_tidy (freed.weaken fun _ s past post => ⟨post.1.tidy, post.2⟩)

theorem going_of_tidy {m : Client Unit} (keeps : Proc.Keeps Tidy PcbEvent.Fine m) :
    Proc.Triple (Clean Tidy) m fun _ => Going :=
  (Proc.keeps_iff_triple.mp keeps).weaken fun _ _ _ => Or.inl

/-- Every input, from a state in which nothing went wrong. -/
theorem liveStep_going (input : PcbInput) :
    Proc.Triple (Clean Tidy) (liveStep input) fun _ => Going := by
  cases input with
  | write bufs nbufs within wide => exact going_of_tidy (onQueue_tidy _)
  | asyncWrite =>
      refine Proc.triple_read_bind_of_forall fun client => Proc.triple_ite (fun _ => ?_) fun _ => ?_
      · exact (Proc.keeps_iff_triple.mp (onQueue_tidy _)).bind _ fun _ => triple_uvlAsyncTcpWriteCb
      · exact Proc.triple_pure fun s past pre => Or.inl pre
  | asyncRead alloc => exact going_of_tidy (asyncRead_tidy alloc)
  | sent len => exact going_of_tidy (sent_tidy len)
  | err => exact going_of_tidy err_tidy
  | recv buffer => exact going_of_tidy (whileOpen_tidy (uvlClientRecvFunc_tidy buffer))
  | sndbuf room => exact going_of_tidy (onQueue_tidy _)
  | readStart => exact going_of_tidy uvlReadStart_tidy
  | readStop =>
      refine going_of_tidy (Proc.keeps_update fun s holds => ?_)
      exact ⟨⟨holds.pcb, fun _ => rfl⟩, holds.ended⟩
  | close => exact going_of_tidy uvlTcpClose_tidy
  | handleClosed => exact going_of_tidy handleClosed_tidy

/-- What went wrong stays in the trace. -/
theorem pcbStep_going (input : PcbInput) : Proc.Triple Going (pcbStep input) fun _ => Going := by
  have step : Proc.Triple (Clean Tidy) (pcbStep input) fun _ => Going := by
    refine Proc.triple_read_bind_of_forall fun client => Proc.triple_ite (fun _ => ?_) fun _ => ?_
    · exact Proc.triple_pure fun s past pre => Or.inl pre
    · exact liveStep_going input
  rintro s past (clean | ⟨failed, event, member, wrong⟩)
  · exact step s past clean
  · exact Or.inr ⟨List.mem_append_left _ failed, event, List.mem_append_left _ member, wrong⟩

/-- In every run of one connection, whatever lwIP answers and however the owner
reacts: all calls pass a pcb that is not NULL on a connection that is not `closed`
exactly when no `tcp_write` fails with an error other than `ERR_MEM`. -/
theorem calls_on_open_pcb_iff (sndbuf : UInt16) (results : Nat → TcpErr)
    (writeFails outputFails closeFails : Nat → Bool) (reactions : Nat → Reaction)
    (inputs : List PcbInput) :
    (∀ event ∈ (Proc.runAll pcbStep inputs
        (.start sndbuf results writeFails outputFails closeFails reactions)).events, event.OnOpenPcb) ↔
      .writeFailed ∉ (Proc.runAll pcbStep inputs
        (.start sndbuf results writeFails outputFails closeFails reactions)).events := by
  have start : Tidy (.start sndbuf results writeFails outputFails closeFails reactions) :=
    ⟨⟨rfl, nofun⟩, nofun⟩
  have going := Proc.runAll_induction pcbStep _ (fun _ => Going) inputs (Or.inl ⟨start, nofun⟩)
    fun _ input state events _ holds => pcbStep_going input state events holds
  rcases going with ⟨_, clean⟩ | ⟨failed, event, member, wrong⟩
  · exact iff_of_true (fun event member => (clean event member).1) fun failed => (clean _ failed).2 rfl
  · exact iff_of_false (fun all => wrong (all event member)) (not_not.mpr failed)

theorem one_lt_uint32 : 1 < 2 ^ 32 := by decide

/-- One byte is submitted and written. -/
def writeOneByte : List PcbInput := [.write [[7]] 1 (Nat.le_refl 1) one_lt_uint32, .asyncWrite]

/-- `tcp_output` fails, and then `tcp_close`: the pcb that is aborted is open. -/
theorem calls_on_open_pcb_aborted :
    .lwip .tcpAbort true false ∈ (Proc.runAll pcbStep writeOneByte
        (.start 100 (fun _ => .ok) (fun _ => false) (fun _ => true) (fun _ => true)
          fun _ => .nothing)).events ∧
      ∀ event ∈ (Proc.runAll pcbStep writeOneByte
        (.start 100 (fun _ => .ok) (fun _ => false) (fun _ => true) (fun _ => true)
          fun _ => .nothing)).events, event.OnOpenPcb :=
  ⟨by decide +kernel,
    (calls_on_open_pcb_iff 100 (fun _ => .ok) (fun _ => false) (fun _ => true) (fun _ => true)
      (fun _ => .nothing) writeOneByte).mpr (by decide +kernel)⟩

/-- `tcp_write` fails: `tcp_output` is called with NULL, or, when `tcp_close` fails
as well, `tcp_sndbuf` of NULL is read first. -/
theorem null_pcb_after_failed_write :
    .lwip .tcpOutput false true ∈ (Proc.runAll pcbStep writeOneByte
        (.start 100 (fun _ => .ok) (fun _ => true) (fun _ => false) (fun _ => false)
          fun _ => .nothing)).events ∧
      .lwip .tcpSndbuf false true ∈ (Proc.runAll pcbStep writeOneByte
        (.start 100 (fun _ => .ok) (fun _ => true) (fun _ => false) (fun _ => true)
          fun _ => .nothing)).events ∧
      ¬ PcbEvent.OnOpenPcb (.lwip .tcpOutput false true) ∧
      ¬ PcbEvent.OnOpenPcb (.lwip .tcpSndbuf false true) :=
  ⟨by decide +kernel, by decide +kernel, nofun, nofun⟩

end SwitchLanPlay.UvLwip.Pcb
