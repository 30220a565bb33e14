import Mathlib.Tactic.FinCases
import SwitchLanPlay.Lan.Pcap
import SwitchLanPlay.Lan.Sending

/-!
# Several interfaces

A frame that an interface receives maps its destination address to the
interface, and makes the address of the interface the client's own one.  A frame
that the client sends carries its own address as the source, and is put out on
the interface that this address is mapped to.  Where the receiver is does not
enter into it.
-/

namespace SwitchLanPlay

open Library

/-! ## The frames of `send_ether` -/

theorem copyParts_state {σ : Type} (bufferLen : Nat) (chain : List Payload) (s : σ) (offset : Nat) :
    (copyParts bufferLen offset chain s).state = s := by
  induction chain generalizing offset with
  | nil => rfl
  | cons part rest ih =>
      unfold copyParts
      split
      · rfl
      · exact ih _

theorem sentFrames_copyParts {σ : Type} (bufferLen : Nat) (chain : List Payload) (s : σ) (offset : Nat) :
    sentFrames (copyParts bufferLen offset chain s).events = [] := by
  induction chain generalizing offset with
  | nil => rfl
  | cons part rest ih =>
      unfold copyParts
      split
      · rfl
      · have later := ih (offset + part.len)
        simpa [sentFrames, loadBytes] using later

/-- What is copied stays below the size of the buffer. -/
theorem copyParts_length {σ : Type} {bufferLen : Nat} {chain : List Payload} {s : σ} {offset : Nat}
    {frame : Bytes} (within : offset < bufferLen)
    (copied : (copyParts bufferLen offset chain s).value = some frame) :
    offset + frame.length < bufferLen := by
  induction chain generalizing offset frame with
  | nil =>
      cases copied
      exact within
  | cons part rest ih =>
      unfold copyParts at copied
      split at copied
      · cases copied
      · obtain ⟨others, there, rfl⟩ := Option.map_eq_some_iff.mp copied
        have later := ih (by omega) there
        simp only [List.length_append, loadBytes, Proc.bind_value, Proc.pure_value, length_slice]
        omega

/-- The one frame of a chain that fits, or none. -/
theorem sentFrames_sendPayloads (chain : List Payload) (s : LanPlay)
    (sized : s.packetCtx.bufferLen = bufferSize) :
    sentFrames (sendPayloads chain s).events =
      (copyParts bufferSize 0 chain s).value.toList := by
  rw [sendPayloads_events, sentFrames, List.filterMap_append, ← sentFrames, sentFrames_copyParts,
    List.nil_append, sized]
  cases copied : (copyParts bufferSize 0 chain s).value with
  | none => rfl
  | some frame =>
      have short := copyParts_length (by decide) copied
      have whole : frame.length % 2 ^ 16 = frame.length :=
        Nat.mod_eq_of_lt (by simp only [bufferSize] at short; omega)
      dsimp only
      rw [whole, List.take_length]
      rfl

/-- A frame carries the address of the client as its source. -/
theorem sendEther_source {dst : Mac} {type : Nat} {chain : List Payload} {s : LanPlay} {frame : Bytes}
    (sized : s.packetCtx.bufferLen = bufferSize)
    (sent : frame ∈ sentFrames (sendEther dst type chain s).events) :
    octetsAt 6 frame etherOffSrc = s.packetCtx.mac := by
  have events : (sendEther dst type chain s).events =
      (sendPayloads (.ofBytes (List.ofFn dst ++ List.ofFn s.packetCtx.mac ++ net16 type) :: chain) s).events :=
    rfl
  rw [events, sentFrames_sendPayloads _ _ sized, Option.mem_toList] at sent
  unfold copyParts at sent
  split at sent
  · cases sent
  · obtain ⟨others, -, rfl⟩ := Option.map_eq_some_iff.mp sent
    have header : (loadBytes (Payload.ofBytes (List.ofFn dst ++ List.ofFn s.packetCtx.mac ++ net16 type)).ptr
        (Payload.ofBytes (List.ofFn dst ++ List.ofFn s.packetCtx.mac ++ net16 type)).len s :
          Outcome LanPlay Event Bytes).value = List.ofFn dst ++ List.ofFn s.packetCtx.mac ++ net16 type :=
      slice_full _
    rw [header]
    funext index
    fin_cases index <;> rfl

/-- Sending leaves the address and the buffer of the client alone. -/
theorem sendEther_ctx (dst : Mac) (type : Nat) (chain : List Payload) (s : LanPlay) :
    (sendEther dst type chain s).state.packetCtx.mac = s.packetCtx.mac ∧
      (sendEther dst type chain s).state.packetCtx.bufferLen = s.packetCtx.bufferLen := by
  have state : (sendEther dst type chain s).state =
      (sendPayloads (.ofBytes (List.ofFn dst ++ List.ofFn s.packetCtx.mac ++ net16 type) :: chain) s).state :=
    rfl
  rw [state]
  unfold sendPayloads
  rw [Proc.read_bind, Proc.bind_state, copyParts_state]
  generalize (copyParts _ _ _ s).value = copied
  cases copied <;> exact ⟨rfl, rfl⟩

/-! ## The client on its interfaces -/

/-- The client and its open interfaces. -/
structure Attached (n : Nat) where
  pcap : UvPcap n
  lanPlay : LanPlay

/-- What happens at the interfaces.  What `get_packet` sends while it handles a
frame is sent after it came in, with the same address and map. -/
inductive LinkInput (n : Nat) where
  | captured (h : Fin n) (packet : Bytes)
  | sent (dst : Mac) (type : Nat) (payload : List Payload)

namespace LinkInput

variable {n : Nat}

/-- The interface a frame came in on. -/
def interf? : LinkInput n → Option (Fin n)
  | .captured h _ => some h
  | .sent _ _ _ => none

/-- The interface a frame for the address came in on. -/
def receivedFor (mac : Mac) : LinkInput n → Option (Fin n)
  | .captured h packet => if octetsAt 6 packet etherOffDst = mac then some h else none
  | .sent _ _ _ => none

end LinkInput

/-- `uv_pcap_callback` with `lan_play_pcap_handler`, and `send_ether` with
`lan_play_send_packet`. -/
def linkStep {n : Nat} : LinkInput n → Proc (Attached n) (PcapOutput n) Unit
  | .captured h packet => Proc.update fun s =>
      { s with
        pcap := s.pcap.learn h packet
        lanPlay.packetCtx.mac := (s.pcap.interfaces h).mac }
  | .sent dst type payload => fun s =>
      let done := sendEther dst type payload s.lanPlay
      ⟨(), { s with lanPlay := done.state }, (sentFrames done.events).flatMap s.pcap.sendpacket⟩

theorem captured_pcap {n : Nat} (h : Fin n) (packet : Bytes) (s : Attached n) :
    (linkStep (.captured h packet) s).state.pcap = s.pcap.learn h packet := rfl

/-! ## Runs -/

section Runs

variable {n : Nat} (interfaces : Fin n → UvPcapInterf)

/-- The interface that the latest frame for an address came in on. -/
def lastReceivedFor (mac : Mac) (inputs : List (LinkInput n)) : Option (Fin n) :=
  inputs.reverse.findSome? (LinkInput.receivedFor mac)

/-- The address of the interface that the latest frame came in on. -/
def lastMac (inputs : List (LinkInput n)) : Mac :=
  ((inputs.reverse.findSome? LinkInput.interf?).map fun h => (interfaces h).mac).getD broadcastMac

theorem lastReceivedFor_snoc (mac : Mac) (first : List (LinkInput n)) (last : LinkInput n) :
    lastReceivedFor mac (first ++ [last]) =
      (last.receivedFor mac).or (lastReceivedFor mac first) := by
  rw [lastReceivedFor, List.reverse_concat, List.findSome?_cons]
  cases last.receivedFor mac <;> rfl

/-- What the client has learned from the frames so far. -/
structure Learned (inputs : List (LinkInput n)) (s : Attached n) : Prop where
  attached : s.pcap.interfaces = interfaces
  map : ∀ mac, s.pcap.map (mac2int mac) = lastReceivedFor mac inputs
  mac : s.lanPlay.packetCtx.mac = lastMac interfaces inputs
  sized : s.lanPlay.packetCtx.bufferLen = bufferSize

theorem Learned.step {inputs : List (LinkInput n)} {s : Attached n}
    (learned : Learned interfaces inputs s) (input : LinkInput n) :
    Learned interfaces (inputs ++ [input]) (linkStep input s).state := by
  cases input with
  | captured h packet =>
      refine ⟨learned.attached, fun mac => ?_, ?_, learned.sized⟩
      · rw [captured_pcap, UvPcap.learn_map, lastReceivedFor_snoc, LinkInput.receivedFor, learned.map]
        split <;> rfl
      · rw [lastMac, List.reverse_concat, List.findSome?_cons, ← learned.attached]
        rfl
  | sent dst type payload =>
      obtain ⟨mac, sized⟩ := sendEther_ctx dst type payload s.lanPlay
      refine ⟨learned.attached, fun address => ?_, ?_, sized.trans learned.sized⟩
      · rw [lastReceivedFor_snoc]
        exact learned.map address
      · rw [lastMac, List.reverse_concat, List.findSome?_cons]
        exact mac.trans learned.mac

/-- The client that `lan_play_init` sets up on its interfaces. -/
def Attached.start (lanPlay : LanPlay) : Attached n := ⟨.start interfaces, lanPlay⟩

theorem run_learned (pmtu : Int) (username : Option Bytes) (key : Octets 20) (sendResults : Nat → Int)
    (inputs : List (LinkInput n)) :
    Learned interfaces inputs (Proc.runAll linkStep inputs
      (.start interfaces (lanPlayStart pmtu username key sendResults))).state := by
  refine Proc.runAll_induction linkStep _ (fun done s _ => Learned interfaces done s) inputs
    ⟨rfl, fun _ => rfl, rfl, rfl⟩ ?_
  intro done input s _ _ learned
  exact learned.step interfaces input

/-- Some frame with the source address came in, and all of them on the interface. -/
def HeardOnlyOn (inputs : List (LinkInput n)) (station : Mac) (h : Fin n) : Prop :=
  (∃ packet, .captured h packet ∈ inputs ∧ octetsAt 6 packet etherOffSrc = station) ∧
    ∀ other packet, .captured other packet ∈ inputs → octetsAt 6 packet etherOffSrc = station → other = h

/-- In every run: a frame for a station that was heard on one interface only goes
out on that interface exactly when the latest frame for the client's own address,
which is that of the interface the latest frame came in on, came in there, or
there was none. -/
theorem frame_reaches_station_iff (pmtu : Int) (username : Option Bytes) (key : Octets 20)
    (sendResults : Nat → Int) (inputs : List (LinkInput n)) (station : Mac) (type : Nat)
    (payload : List Payload) :
    let s := (Proc.runAll linkStep inputs
      (.start interfaces (lanPlayStart pmtu username key sendResults))).state
    sentFrames (sendEther station type payload s.lanPlay).events ≠ [] →
      ∀ h, HeardOnlyOn inputs station h →
        ((∃ output ∈ (linkStep (.sent station type payload) s).events, output.interf = h) ↔
          lastReceivedFor (lastMac interfaces inputs) inputs = none ∨
            lastReceivedFor (lastMac interfaces inputs) inputs = some h) := by
  intro s sends h _
  have learned : Learned interfaces inputs s := run_learned interfaces pmtu username key sendResults inputs
  have events : (linkStep (.sent station type payload) s).events =
      (sentFrames (sendEther station type payload s.lanPlay).events).flatMap s.pcap.sendpacket := rfl
  have routed : ∀ frame ∈ sentFrames (sendEther station type payload s.lanPlay).events,
      ((∃ output ∈ s.pcap.sendpacket frame, output.interf = h) ↔
        lastReceivedFor (lastMac interfaces inputs) inputs = none ∨
          lastReceivedFor (lastMac interfaces inputs) inputs = some h) := by
    intro frame sent
    rw [UvPcap.sendpacket_on_iff, sendEther_source learned.sized sent, learned.mac, learned.map]
  obtain ⟨frame, sent⟩ := List.exists_mem_of_ne_nil _ sends
  rw [events, ← routed frame sent]
  constructor
  · rintro ⟨output, member, there⟩
    obtain ⟨other, otherSent, put⟩ := List.mem_flatMap.mp member
    exact (routed frame sent).mpr ((routed other otherSent).mp ⟨output, put, there⟩)
  · rintro ⟨output, put, there⟩
    exact ⟨output, List.mem_flatMap.mpr ⟨frame, sent, put⟩, there⟩

end Runs

/-! Two interfaces, a station on each of them. -/

def macOf (last : UInt8) : Mac := octetsAt 6 [2, 0, 0, 0, 0, last] 0

/-- Interfaces with the addresses 1 and 2. -/
def twoInterfaces (h : Fin 2) : UvPcapInterf := if h = 0 then ⟨"eth0", macOf 1⟩ else ⟨"eth1", macOf 2⟩

/-- A frame without a payload. -/
def bareFrame (dst src : Mac) : Bytes := List.ofFn dst ++ List.ofFn src ++ net16 etherTypeIpv4

/-- Station 10 sends to the first interface. -/
def firstHeard : List (LinkInput 2) := [.captured 0 (bareFrame (macOf 1) (macOf 10))]

/-- After it, station 11 sends to the second interface. -/
def bothHeard : List (LinkInput 2) := firstHeard ++ [.captured 1 (bareFrame (macOf 2) (macOf 11))]

theorem heardOnlyOn_first {inputs : List (LinkInput 2)} (known : inputs = firstHeard ∨ inputs = bothHeard) :
    HeardOnlyOn inputs (macOf 10) 0 := by
  have source : octetsAt 6 (bareFrame (macOf 1) (macOf 10)) etherOffSrc = macOf 10 := by decide
  have other : octetsAt 6 (bareFrame (macOf 2) (macOf 11)) etherOffSrc ≠ macOf 10 := by decide
  rcases known with rfl | rfl
  · refine ⟨⟨_, List.mem_singleton_self _, source⟩, fun h packet member _ => ?_⟩
    cases List.mem_singleton.mp member
    rfl
  · refine ⟨⟨_, List.mem_cons_self, source⟩, fun h packet member from10 => ?_⟩
    rcases List.mem_cons.mp member with here | there
    · cases here
      rfl
    · cases List.mem_singleton.mp there
      exact absurd from10 other

theorem frame_reaches_station_first :
    let s := (Proc.runAll linkStep firstHeard
      (.start twoInterfaces (lanPlayStart 0 none (fun _ => 0) fun _ => 0))).state
    ∃ output ∈ (linkStep (.sent (macOf 10) etherTypeIpv4 []) s).events, output.interf = 0 :=
  (frame_reaches_station_iff twoInterfaces 0 none (fun _ => 0) (fun _ => 0) firstHeard (macOf 10)
    etherTypeIpv4 [] (by decide +kernel) 0 (heardOnlyOn_first (Or.inl rfl))).mpr (by decide +kernel)

/-- Once the second interface has received a frame for its own address, the
answer to station 10 goes out on the second interface only. -/
theorem frame_misses_station :
    HeardOnlyOn bothHeard (macOf 10) 0 ∧
      let s := (Proc.runAll linkStep bothHeard
        (.start twoInterfaces (lanPlayStart 0 none (fun _ => 0) fun _ => 0))).state
      (linkStep (.sent (macOf 10) etherTypeIpv4 []) s).events.map PcapOutput.interf = [1] :=
  ⟨heardOnlyOn_first (Or.inr rfl), by decide +kernel⟩

end SwitchLanPlay
