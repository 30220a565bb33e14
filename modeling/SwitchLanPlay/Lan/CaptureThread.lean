import Mathlib.Logic.Relation
import Mathlib.Tactic.ByContra

/-!
# The capture thread

`pcaploop.cpp` without polling.  A thread of its own runs `pcap_loop`; for each packet
`libpcap_handler` stores two pointers, wakes the event loop through `get_packet_async` and
waits on `get_packet_sem` until `get_packet_async_cb` has called back.  The pointers are
those of libpcap, which are valid until the handler returns.

A step is one statement of one thread.  `uv_async_send` makes the callback run once, later;
`pcap_breakloop` sets a flag that `pcap_loop` looks at before each packet and each read of
the device, and not in between.  The devices have no timeout: a read may last for ever.
-/

namespace SwitchLanPlay.CaptureThread

variable {Header Data : Type}

/-! ## Model -/

/-- Where the thread of `libpcap_thread_func` is; the packet is the one for its handler. -/
inductive Capturing (Header Data : Type) where
  /-- In `pcap_loop`, before the flag is looked at. -/
  | looping
  /-- The flag was not set, and there was no packet: the device is read. -/
  | reading
  /-- The flag was not set, and there was a packet. -/
  | taken (header : Header) (data : Data)
  | entered (header : Header) (data : Data)
  | headerStored (header : Header) (data : Data)
  | dataStored (header : Header) (data : Data)
  /-- In `uv_sem_wait`. -/
  | signalled (header : Header) (data : Data)
  /-- `pcap_loop` has returned. -/
  | left
  | ended

/-- Where the thread of the event loop is. -/
inductive Looping where
  | polling
  /-- In `get_packet_async_cb`, before and after the callback. -/
  | calling
  | called
  /-- In `uv_thread_join`. -/
  | joining
  | closed
  deriving DecidableEq

/-- `uv_pcap_interf_s` with its two threads.  `captured` and `delivered` are the packets for
the handler and those the callback was called with. -/
structure Interf (Header Data : Type) where
  capturing : Capturing Header Data
  looping : Looping
  pkthdr : Option Header
  packet : Option Data
  asyncPending : Bool
  sem : Nat
  broken : Bool
  captured : List (Header × Data)
  delivered : List (Option Header × Option Data)

/-- After `uv_pcap_interf_init`. -/
def Interf.start : Interf Header Data := ⟨.looping, .polling, none, none, false, 0, false, [], []⟩

inductive Step : Interf Header Data → Interf Header Data → Prop where
  -- pcap_loop
  | read {s} : s.capturing = .looping → s.broken = false → Step s { s with capturing := .reading }
  | readReturns {s} : s.capturing = .reading → Step s { s with capturing := .looping }
  | readFails {s} : s.capturing = .reading → Step s { s with capturing := .left }
  | take {s} (header data) : s.capturing = .looping → s.broken = false →
      Step s { s with capturing := .taken header data, captured := s.captured ++ [(header, data)] }
  | leave {s} : s.capturing = .looping → s.broken → Step s { s with capturing := .left }
  -- libpcap_handler
  | enter {s} {header data} : s.capturing = .taken header data → Step s { s with capturing := .entered header data }
  | storeHeader {s} {header data} : s.capturing = .entered header data →
      Step s { s with capturing := .headerStored header data, pkthdr := some header }
  | storeData {s} {header data} : s.capturing = .headerStored header data →
      Step s { s with capturing := .dataStored header data, packet := some data }
  | send {s} {header data} : s.capturing = .dataStored header data →
      Step s { s with capturing := .signalled header data, asyncPending := true }
  | wait {s} {header data} {count} : s.capturing = .signalled header data → s.sem = count + 1 →
      Step s { s with capturing := .looping, sem := count }
  -- libpcap_thread_func
  | closeDevice {s} : s.capturing = .left → Step s { s with capturing := .ended }
  -- get_packet_async_cb
  | wake {s} : s.looping = .polling → s.asyncPending → Step s { s with looping := .calling, asyncPending := false }
  | call {s} : s.looping = .calling →
      Step s { s with looping := .called, delivered := s.delivered ++ [(s.pkthdr, s.packet)] }
  | post {s} : s.looping = .called → Step s { s with looping := .polling, sem := s.sem + 1 }
  -- uv_pcap_interf_close
  | breakLoop {s} : s.looping = .polling → Step s { s with looping := .joining, broken := true }
  | join {s} : s.looping = .joining → s.capturing = .ended → Step s { s with looping := .closed }

abbrev Steps (s s' : Interf Header Data) : Prop := Relation.ReflTransGen Step s s'

def Reachable (s : Interf Header Data) : Prop := Steps .start s

/-! ## The hand-over -/

/-- The packet that was captured and not delivered yet. -/
def Interf.undelivered (s : Interf Header Data) : List (Header × Data) :=
  match s.capturing with
  | .taken header data | .entered header data | .headerStored header data | .dataStored header data => [(header, data)]
  | .signalled header data => if s.asyncPending ∨ s.looping = .calling then [(header, data)] else []
  | _ => []

/-- The two pointers as `get_packet_async_cb` passes them on. -/
@[simp]
def stored (packet : Header × Data) : Option Header × Option Data := (some packet.1, some packet.2)

/-- The event loop is neither in the callback nor on its way to the semaphore. -/
def Interf.Quiet (s : Interf Header Data) : Prop :=
  s.asyncPending = false ∧ s.sem = 0 ∧ s.looping ≠ .calling ∧ s.looping ≠ .called

/-- What the two threads may rely on, for every place of the capture thread. -/
def Interf.Agrees (s : Interf Header Data) : Prop :=
  match s.capturing with
  | .looping | .reading | .taken _ _ | .entered _ _ | .left | .ended => s.Quiet
  | .headerStored header _ => s.Quiet ∧ s.pkthdr = some header
  | .dataStored header data => s.Quiet ∧ s.pkthdr = some header ∧ s.packet = some data
  | .signalled header data =>
      s.pkthdr = some header ∧ s.packet = some data ∧
      -- the wake-up is on its way, or taken, or answered
      ((s.asyncPending ∧ s.sem = 0 ∧ s.looping ≠ .calling ∧ s.looping ≠ .called) ∨
        (s.asyncPending = false ∧ s.sem = 0 ∧ (s.looping = .calling ∨ s.looping = .called)) ∨
        (s.asyncPending = false ∧ s.sem = 1 ∧ s.looping ≠ .calling ∧ s.looping ≠ .called))

theorem agrees_start : (Interf.start : Interf Header Data).Agrees := by
  simp [Interf.Agrees, Interf.Quiet, Interf.start]

section Threads

variable {s s' : Interf Header Data}

/-- The event loop acts only while the capture thread waits. -/
theorem Interf.Agrees.waits (agrees : s.Agrees)
    (acts : s.asyncPending ∨ s.looping = .calling ∨ s.looping = .called ∨ s.sem ≠ 0) :
    ∃ header data, s.capturing = .signalled header data := by
  unfold Interf.Agrees at agrees
  split at agrees
  case h_9 header data place => exact ⟨header, data, place⟩
  all_goals
    simp only [Interf.Quiet] at agrees
    rcases acts with pending | calling | called | counted <;> simp_all

theorem Interf.Agrees.pointers (agrees : s.Agrees) {header : Header} {data : Data}
    (place : s.capturing = .signalled header data) : s.pkthdr = some header ∧ s.packet = some data := by
  simp only [Interf.Agrees, place] at agrees
  exact ⟨agrees.1, agrees.2.1⟩

theorem Interf.Agrees.sem_of_pending (agrees : s.Agrees) (pending : s.asyncPending) : s.sem = 0 := by
  obtain ⟨header, data, place⟩ := agrees.waits (.inl pending)
  simp only [Interf.Agrees, place] at agrees
  rcases agrees.2.2 with ⟨_, none, _⟩ | ⟨taken, _⟩ | ⟨taken, _⟩
  · exact none
  · simp [pending] at taken
  · simp [pending] at taken

theorem Interf.Agrees.taken (agrees : s.Agrees) (calling : s.looping = .calling ∨ s.looping = .called) :
    s.asyncPending = false ∧ s.sem = 0 := by
  obtain ⟨header, data, place⟩ := agrees.waits (.inr (calling.imp_right .inl))
  simp only [Interf.Agrees, place] at agrees
  rcases agrees.2.2 with ⟨_, _, calls, called⟩ | ⟨taken, none, _⟩ | ⟨_, _, calls, called⟩
  · exact absurd calling (by simp [calls, called])
  · exact ⟨taken, none⟩
  · exact absurd calling (by simp [calls, called])

theorem Interf.Agrees.answered (agrees : s.Agrees) {count : Nat} (counted : s.sem = count + 1) :
    count = 0 ∧ s.asyncPending = false ∧ s.looping ≠ .calling ∧ s.looping ≠ .called := by
  obtain ⟨header, data, place⟩ := agrees.waits (.inr (.inr (.inr (by simp [counted]))))
  simp only [Interf.Agrees, place] at agrees
  rcases agrees.2.2 with ⟨_, none, _⟩ | ⟨_, none, _⟩ | ⟨taken, one, calls⟩
  · simp [counted] at none
  · simp [counted] at none
  · exact ⟨by omega, taken, calls⟩

theorem Interf.Agrees.next (agrees : s.Agrees) (step : Step s s') : s'.Agrees := by
  cases step with
  | read | readReturns | readFails | take | leave | enter | storeHeader | storeData | send | closeDevice | join =>
      simp_all [Interf.Agrees, Interf.Quiet]
  | wait place counted =>
      obtain ⟨rfl, taken, calls⟩ := agrees.answered counted
      exact ⟨taken, rfl, calls⟩
  | wake polling pending =>
      obtain ⟨header, data, place⟩ := agrees.waits (.inl pending)
      obtain ⟨pkthdr, packet⟩ := agrees.pointers place
      simpa [Interf.Agrees, place] using ⟨pkthdr, packet, agrees.sem_of_pending pending⟩
  | call calling =>
      obtain ⟨header, data, place⟩ := agrees.waits (.inr (.inl calling))
      obtain ⟨pkthdr, packet⟩ := agrees.pointers place
      simpa [Interf.Agrees, place] using ⟨pkthdr, packet, agrees.taken (.inl calling)⟩
  | post called =>
      obtain ⟨header, data, place⟩ := agrees.waits (.inr (.inr (.inl called)))
      obtain ⟨pkthdr, packet⟩ := agrees.pointers place
      simpa [Interf.Agrees, place] using ⟨pkthdr, packet, agrees.taken (.inr called)⟩
  | breakLoop polling =>
      cases place : s.capturing <;> simp_all [Interf.Agrees, Interf.Quiet]

/-- A packet is captured, delivered, and in between not lost. -/
def Interf.Conserves (s : Interf Header Data) : Prop :=
  s.delivered ++ s.undelivered.map stored = s.captured.map stored

theorem Interf.Conserves.next (conserves : s.Conserves) (agrees : s.Agrees) (step : Step s s') : s'.Conserves := by
  unfold Interf.Conserves at conserves ⊢
  cases step with
  | take header data place =>
      simp only [Interf.undelivered, place, List.map_nil, List.append_nil] at conserves ⊢
      rw [conserves, List.map_append, List.map_singleton]
  | read place | readReturns place | readFails place | leave place | enter place | storeHeader place | storeData place
  | send place | closeDevice place | join _ place =>
      simpa [Interf.undelivered, place] using conserves
  | wait place counted =>
      obtain ⟨-, taken, calls, -⟩ := agrees.answered counted
      simpa [Interf.undelivered, place, taken, calls] using conserves
  | wake polling pending =>
      obtain ⟨header, data, place⟩ := agrees.waits (.inl pending)
      simpa [Interf.undelivered, place, pending] using conserves
  | call calling =>
      obtain ⟨header, data, place⟩ := agrees.waits (.inr (.inl calling))
      obtain ⟨pkthdr, packet⟩ := agrees.pointers place
      have last : s.delivered ++ [(some header, some data)] = s.captured.map stored := by
        simpa [Interf.undelivered, place, calling] using conserves
      simpa [Interf.undelivered, place, (agrees.taken (.inl calling)).1, pkthdr, packet] using last
  | post called =>
      obtain ⟨header, data, place⟩ := agrees.waits (.inr (.inr (.inl called)))
      simpa [Interf.undelivered, place, called] using conserves
  | breakLoop polling =>
      cases place : s.capturing <;> simpa [Interf.undelivered, place, polling] using conserves

theorem reachable_invariant (reached : Reachable s) : s.Agrees ∧ s.Conserves := by
  induction reached with
  | refl => exact ⟨agrees_start, rfl⟩
  | tail _ step ih => exact ⟨ih.1.next step, ih.2.next ih.1 step⟩

theorem Interf.Agrees.sem_le (agrees : s.Agrees) : s.sem ≤ 1 := by
  cases place : s.capturing <;> simp only [Interf.Agrees, Interf.Quiet, place] at agrees <;> omega

/-- Whatever the order of the two threads, the callback gets the captured packets, each once and
in order, header and data of the same packet, while its handler waits; at most the last one is
still on its way. -/
theorem handover_exact (reached : Reachable s) :
    s.delivered ++ s.undelivered.map stored = s.captured.map stored ∧ s.undelivered.length ≤ 1 ∧ s.sem ≤ 1 ∧
      (s.looping = .calling →
        ∃ header data, s.capturing = .signalled header data ∧ s.pkthdr = some header ∧ s.packet = some data) := by
  obtain ⟨agrees, conserves⟩ := reachable_invariant reached
  refine ⟨conserves, ?_, agrees.sem_le, ?_⟩
  · cases place : s.capturing with
    | signalled header data =>
        simp only [Interf.undelivered, place]
        split <;> simp
    | _ => simp [Interf.undelivered, place]
  · intro calling
    obtain ⟨header, data, place⟩ := agrees.waits (.inr (.inl calling))
    exact ⟨header, data, place, agrees.pointers place⟩

/-- The callback is about to be called with the first packet. -/
theorem handover_exact_calling :
    let s : Interf Nat Nat := ⟨.signalled 0 7, .calling, some 0, some 7, false, 0, false, [(0, 7)], []⟩
    s.delivered ++ s.undelivered.map stored = s.captured.map stored := by
  intro s
  have stored : Steps (.start : Interf Nat Nat) ⟨.dataStored 0 7, .polling, some 0, some 7, false, 0, false, [(0, 7)], []⟩ :=
    .tail (.tail (.tail (.tail .refl (.take 0 7 rfl rfl)) (.enter rfl)) (.storeHeader rfl)) (.storeData rfl)
  have reached : Reachable s := .tail (.tail stored (.send rfl)) (.wake rfl rfl)
  exact (handover_exact reached).1

/-! ## Closing -/

/-- The event loop waits for the capture thread, which waits for the event loop. -/
def Interf.Stuck (s : Interf Header Data) : Prop := s.looping = .joining ∧ s.undelivered ≠ []

theorem Interf.Stuck.next (stuck : s.Stuck) (agrees : s.Agrees) (step : Step s s') : s'.Stuck := by
  obtain ⟨joining, pending⟩ := stuck
  cases step with
  | read place | readReturns place | readFails place | take _ _ place | leave place | closeDevice place | join _ place =>
      simp [Interf.undelivered, place] at pending
  | enter | storeHeader | storeData | send => exact ⟨joining, by simp [Interf.undelivered]⟩
  | wait place counted =>
      obtain ⟨-, taken, calls, -⟩ := agrees.answered counted
      simp [Interf.undelivered, place, taken, calls] at pending
  | wake other | call other | post other | breakLoop other => cases joining.symm.trans other

/-- `uv_thread_join` returns, whatever is done next and however long the device is read: there
is no run that goes on for ever, and none that ends before. -/
inductive Interf.Returns : Interf Header Data → Prop where
  | closed {last : Interf Header Data} : last.looping = .closed → last.Returns
  | later {now : Interf Header Data} : now.capturing ≠ .reading → (∃ next, Step now next) →
      (∀ next, Step now next → next.Returns) → now.Returns

/-- Where one step is possible, and no other. -/
theorem Interf.Returns.before (running : s.capturing ≠ .reading) (step : Step s s') (returns : s'.Returns)
    (only : ∀ other, Step s other → other = s') : s.Returns :=
  .later running ⟨s', step⟩ fun other step => only other step ▸ returns

section Joining

variable (joining : s.looping = .joining)

include joining

end Joining

end Threads

end SwitchLanPlay.CaptureThread
