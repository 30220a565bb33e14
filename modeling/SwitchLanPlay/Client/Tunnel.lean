import SwitchLanPlay.Client.Broadcast
import SwitchLanPlay.Client.FragmentBounds
import SwitchLanPlay.Client.Sender
import SwitchLanPlay.Lan.Echo

/-!
# The tunnel between two networks

Two clients, each in its own network, and a relay between them that may lose and
reorder datagrams but does not repeat them.  What the one captures for addresses
from elsewhere, the other puts out to its stations: the same packet, once, behind
a header of its own.  Both run their whole event loop meanwhile.
-/

namespace SwitchLanPlay

open Library SlotTable

/-! ## The frames of a packet from the relay -/

/-- The packet is addressed to one station. -/
def PacketCtx.unicast (ctx : PacketCtx) (packet : Bytes) : Bool :=
  !isBroadcast (octetsAt 4 packet ipv4OffDst) ctx.subnetNet ctx.subnetMask

section Forwarding

variable {s : LanPlay} (sized : s.packetCtx.bufferLen = bufferSize) (now : Int) (part : Payload)

include sized

/-- The entry of a station, as long as it is live. -/
def PacketCtx.station (ctx : PacketCtx) (now : Int) (ip : Ip) : Option Mac :=
  (ctx.arpFind now ip).map fun slot => (ctx.arpList slot).mac

end Forwarding

/-! ## A datagram from the relay -/

/-- Neither a frame nor a packet from the relay. -/
def Event.Aside : Event → Prop
  | .sendPacket _ | .process _ _ => False
  | _ => True

theorem sentFrames_of_aside {events : List Event} (aside : ∀ event ∈ events, event.Aside) : sentFrames events = [] := by
  refine List.filterMap_eq_nil_iff.mpr fun event member => ?_
  cases event with
  | sendPacket frame => cases aside _ member
  | _ => rfl

theorem deliveries_of_aside {events : List Event} (aside : ∀ event ∈ events, event.Aside) : deliveries events = [] := by
  refine List.filterMap_eq_nil_iff.mpr fun event member => ?_
  cases event with
  | process packet len => cases aside _ member
  | _ => rfl

/-- What a datagram can do on the local network: nothing, or what
`lan_client_process` does with one packet. -/
def Forwards (now : Int) (ctx : PacketCtx) (events : List Event) : Prop :=
  (∀ event ∈ events, event.Aside) ∨
    ∃ (part : Payload) (t : LanPlay), t.packetCtx = ctx ∧ deliveries events = [(part.bytes, part.len)] ∧
      sentFrames events = sentFrames (lanClientForward now part.ptr part.len t).events

section Forwards

variable (now : Int) {ctx : PacketCtx}

theorem Forwards.after {α β : Type} {first : Proc LanPlay Event α} {next : α → Proc LanPlay Event β} {s : LanPlay}
    (value : α) (state : LanPlay) (returns : (first s).value = value) (reaches : (first s).state = state)
    (aside : first.Emits Event.Aside s) (forwards : Forwards now ctx (next value state).events) :
    Forwards now ctx ((first >>= next) s).events := by
  subst returns reaches
  rcases forwards with later | ⟨part, t, same, delivered, frames⟩
  · exact .inl (List.forall_mem_append.mpr ⟨aside, later⟩)
  · refine .inr ⟨part, t, same, ?_, ?_⟩
    · rw [Proc.bind_events, deliveries_append, deliveries_of_aside aside, List.nil_append, delivered]
    · rw [Proc.bind_events, sentFrames_append, sentFrames_of_aside aside, List.nil_append, frames]

theorem Forwards.then_pure {α : Type} {m : Proc LanPlay Event α} {s : LanPlay} (forwards : Forwards now ctx (m s).events) :
    Forwards now ctx ((m >>= fun _ => pure ()) s).events := by
  rw [Proc.bind_events, Proc.pure_events, List.append_nil]
  exact forwards

end Forwards

/-- The datagram has a part of a packet in it. -/
def isPart (datagram : Bytes) : Bool := byteAt datagram 0 = lanClientTypeIpv4Frag

def partsIn (received : List Bytes) : List Bytes := received.filter isPart

/-- The packets that came whole. -/
def wholesIn (received : List Bytes) : List Bytes := (received.filter fun datagram => !isPart datagram).map (List.drop 1)

theorem isPart_fragment (t : Transmission) (k : Nat) : isPart (t.fragment k) = true := rfl

theorem partsIn_append (first second : List Bytes) : partsIn (first ++ second) = partsIn first ++ partsIn second :=
  List.filter_append _ _

theorem wholesIn_append (first second : List Bytes) : wholesIn (first ++ second) = wholesIn first ++ wholesIn second := by
  rw [wholesIn, List.filter_append, List.map_append]
  rfl

/-- The datagrams with packets in them that reach the client. -/
def LoopInput.arrival : LoopInput → Option Bytes
  | .datagram _ message =>
      if message.type = lanClientTypeIpv4 ∨ message.type = lanClientTypeIpv4Frag then some message.bytes else none
  | _ => none

def arrived (inputs : List LoopInput) : List Bytes := inputs.filterMap LoopInput.arrival

/-- A packet as `lan_client_process` gets it. -/
def measured (packet : Bytes) : Bytes × Nat := (packet, packet.length)

/-- The packets that are there once `received` has arrived: those that came whole,
and those of `sent` whose parts are all there. -/
def completed (sent : List Transmission) (received : List Bytes) : List Bytes :=
  wholesIn received ++ (sent.filter fun t => t.Fragmented ∧ t.Complete received).map Transmission.packet

/-- The table holds the parts received, and the packets delivered are those that are complete. -/
structure Carried (split : List Transmission) (received : List Bytes) (state : LanPlay) (events : List Event) : Prop where
  tracks : state.reassembly.Tracks split (partsIn received)
  delivered : (deliveries events).Perm ((wholesIn received).map measured ++
    (split.filter fun t => t.Complete (partsIn received)).map fun t => measured t.packet)

namespace Carried

variable {split : List Transmission} {received : List Bytes} {state : LanPlay} {events : List Event}

/-- An input that neither delivers nor touches the table. -/
theorem idle (carried : Carried split received state events) {after : LanPlay} {more : List Event}
    (same : after.reassembly = state.reassembly) (silent : deliveries more = []) :
    Carried split received after (events ++ more) := by
  refine ⟨same ▸ carried.tracks, ?_⟩
  rw [deliveries_append, silent, List.append_nil]
  exact carried.delivered

theorem whole (carried : Carried split received state events) (env : Env) {packet : Bytes}
    (short : packet.length < 65535) :
    Carried split (received ++ [lanClientTypeIpv4 :: packet]) (receive env (lanClientTypeIpv4 :: packet) state).state
      (events ++ (receive env (lanClientTypeIpv4 :: packet) state).events) := by
  obtain ⟨table, delivered⟩ := receive_plain env packet short state
  have parts : partsIn (received ++ [lanClientTypeIpv4 :: packet]) = partsIn received := by
    rw [partsIn_append]
    exact List.append_nil _
  have wholes : wholesIn (received ++ [lanClientTypeIpv4 :: packet]) = wholesIn received ++ [packet] := wholesIn_append _ _
  refine ⟨by rw [table, parts]; exact carried.tracks, ?_⟩
  rw [deliveries_append, delivered, parts, wholes, List.map_append, List.append_assoc]
  refine (carried.delivered.append_right _).trans ?_
  rw [List.append_assoc]
  exact List.Perm.append_left _ List.perm_append_comm

/-- One more part, which has not come before and of a packet that is on its way. -/
theorem part (load : Workload split) (carried : Carried split received state events) (env : Env) {datagram : Bytes}
    (sent : datagram ∈ split.flatMap Transmission.datagrams) (new : datagram ∉ received)
    (bounded : (split.filter fun t => t.Partial (partsIn (received ++ [datagram]))).length ≤ lcFragCount) :
    Carried split (received ++ [datagram]) (receive env datagram state).state
      (events ++ (receive env datagram state).events) := by
  obtain ⟨t, member, carries⟩ := List.mem_flatMap.mp sent
  obtain ⟨k, -, is⟩ := (load.split t member).mem_datagrams.mp carries
  have isIt : isPart datagram = true := is ▸ isPart_fragment t k
  have parts : partsIn (received ++ [datagram]) = partsIn received ++ [datagram] := by
    rw [partsIn_append, partsIn, partsIn, List.filter_cons_of_pos isIt, List.filter_nil]
  have wholes : wholesIn (received ++ [datagram]) = wholesIn received := by
    rw [wholesIn_append, wholesIn, wholesIn, List.filter_cons_of_neg (by simp [isIt]), List.filter_nil]
    exact List.append_nil _
  have history : ((partsIn received).map (Prod.mk env)).map Prod.snd = partsIn received := by
    simp [Function.comp_def]
  -- the packets completed so far, as a trace of their own
  have trace : ∀ list : List Transmission, deliveries (list.map fun t => .process t.packet t.packet.length) =
      list.map fun t => measured t.packet := by
    intro list
    simp [deliveries, List.filterMap_map, Event.process?, measured, Function.comp_def]
  have caught : Caught split ((partsIn received).map (Prod.mk env)) state
      ((split.filter fun t => t.Complete (partsIn received)).map fun t => .process t.packet t.packet.length) := by
    refine ⟨by rw [history]; exact carried.tracks, ?_⟩
    rw [trace, history]
    exact List.Perm.refl _
  have fresh : datagram ∉ ((partsIn received).map (Prod.mk env)).map Prod.snd := by
    rw [history]
    exact fun again => new (List.mem_of_mem_filter again)
  have few : (split.filter fun t =>
      t.Partial (((partsIn received).map (Prod.mk env)).map Prod.snd ++ [datagram])).length ≤ lcFragCount := by
    rw [history, ← parts]
    exact bounded
  obtain ⟨tracks, delivered⟩ := @caught_step split load _ (env, datagram) _ _ sent fresh few caught
  rw [List.map_append, history] at tracks delivered
  refine ⟨by rw [parts]; exact tracks, ?_⟩
  rw [deliveries_append, trace] at delivered
  rw [deliveries_append, parts, wholes]
  refine (carried.delivered.append_right _).trans ?_
  rw [List.append_assoc]
  exact delivered.append_left _

end Carried

/-- When a datagram comes, the client has the address `own`, and the stations that
the packets are for are in the cache. -/
def Serves (packets : List Bytes) (station : Ip → Mac) (own : Mac) (s : LanPlay) : LoopInput → Prop
  | .datagram env _ => s.packetCtx.mac = own ∧ ∀ packet ∈ packets, s.packetCtx.unicast packet = true →
      s.packetCtx.station env.now (octetsAt 4 packet ipv4OffDst) = some (station (octetsAt 4 packet ipv4OffDst))
  | _ => True

section Between

variable {sent : List Transmission} {received : List Bytes}

end Between

end SwitchLanPlay
