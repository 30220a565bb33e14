import SwitchLanPlay.Lan.Echo

/-!
# Two contexts answer each other

An echo reply that reaches another context is answered there with an echo reply, and
so on: once the two know each other, no number of deliveries brings the exchange to
an end.
-/

namespace SwitchLanPlay

open Library SlotTable

/-! ## What a delivery leaves alone -/

theorem sendIpv4Ex_core (now : Int) (src dst : Ip) (protocol : Nat) {part : Payload}
    (region : part.ptr.region = .icmp) (s : LanPlay) :
    (sendIpv4Ex now src dst protocol [part] s).state.core = s.core := by
  have sends := sends_anything .icmp
  have asked := (arpGetMacByIp_framed sends now dst s.counted).1
  rw [sendIpv4Ex_writes, Proc.bind_state, Proc.bind_state, calcChecksum_state, Proc.bind_state, Proc.update_state]
  cases (arpGetMacByIp now dst s.counted).value with
  | none => exact asked
  | some dstMac =>
      refine Eq.trans ?_ asked
      refine (sendEther_framed sends dstMac etherTypeIpv4 ?_ _).1
      exact List.forall_mem_cons.mpr ⟨.inr rfl, List.forall_mem_singleton.mpr (.inl region)⟩

theorem processIcmp_core (now : Int) (ipv4 : Ipv4) (s : LanPlay) :
    (processIcmp now ipv4 s).state.core = s.core := by
  unfold processIcmp
  rw [Proc.bind_state, Proc.bind_state, Proc.bind_state, Proc.bind_state, calcChecksum_state, Proc.bind_state,
    Proc.pure_state, Proc.emit_state, Proc.emit_state, Proc.emit_state]
  unfold sendIpv4
  rw [Proc.read_bind, sendIpv4Ex_core _ _ _ _ (by rfl)]

/-! ## Contexts that can answer -/

/-- The context has an entry for the address, and entries live for some time. -/
structure CanAnswer (s : LanPlay) (peer : Ip) : Prop where
  sized : s.packetCtx.bufferLen = bufferSize
  lives : 0 < s.packetCtx.arpTtl
  entry : ∃ slot, (s.packetCtx.arpList slot).ip = peer

/-- The sender of a frame is entered again, so that it can be answered. -/
theorem CanAnswer.learned {s : LanPlay} {peer : Ip} (can : CanAnswer s peer) (now : Int) (mac : Mac) :
    CanAnswer (s.learned now mac peer) peer ∧ (s.learned now mac peer).Knows now peer := by
  obtain ⟨old, entry⟩ := can.entry
  obtain ⟨slot, chosen⟩ : ∃ slot, s.packetCtx.arpSlot now peer = some slot := by
    apply Option.ne_none_iff_exists'.mp
    intro missing
    have passes := firstIndex_eq_none_iff.mp missing old
    simp [entry] at passes
  have written : (s.learned now mac peer).packetCtx.arpList slot = ⟨peer, mac, now + s.packetCtx.arpTtl⟩ := by
    simp [LanPlay.learned, PacketCtx.arpSet, chosen]
  refine ⟨⟨can.sized, can.lives, slot, by rw [written]⟩, ?_⟩
  rw [LanPlay.Knows, Option.isSome_iff_ne_none]
  intro missing
  have passes := firstIndex_eq_none_iff.mp missing slot
  have lives := can.lives
  simp [written] at passes
  omega

theorem CanAnswer.of_core {s s' : LanPlay} {peer : Ip} (can : CanAnswer s peer) (same : s'.core = s.core) :
    CanAnswer s' peer := by
  have lives : s'.packetCtx.arpTtl = s.packetCtx.arpTtl := congrArg (·.packetCtx.arpTtl) same
  refine ⟨(LanPlay.core_bufferLen same).trans can.sized, lives ▸ can.lives, ?_⟩
  rw [LanPlay.core_arpList same]
  exact can.entry

/-! ## Rounds -/

/-- A frame on its way between two contexts. -/
structure Round where
  receiver : LanPlay
  sender : LanPlay
  frame : Bytes

/-- The frame is delivered, and the one packet that it makes the receiver send goes back. -/
def Round.next (env : Env) (round : Round) : Option Round :=
  let done := processEther env ⟨.frame, round.frame, 0⟩ round.frame.length round.receiver
  match sentPackets done.events with
  | [reply] => some ⟨round.sender, done.state, reply⟩
  | _ => none

/-- One delivery after the other, each at its own time. -/
def Round.run : List Env → Round → Option Round
  | [], round => some round
  | env :: rest, round => (round.next env).bind (Round.run rest)

/-- What a context makes of such a frame: another one, back to the sender. -/
theorem PingFrame.answered {frame : Bytes} {mac : Mac} {peer : Ip} {s : LanPlay}
    (ping : PingFrame frame mac peer s.packetCtx.ip) (can : CanAnswer s peer)
    (foreign : ¬ cmpMac mac s.packetCtx.mac = true) (env : Env) :
    (processEther env ⟨.frame, frame, 0⟩ frame.length s).state.core = (s.heard env frame).core ∧
      ∃ reply, sentPackets (processEther env ⟨.frame, frame, 0⟩ frame.length s).events = [reply] ∧
        PingFrame reply s.packetCtx.mac s.packetCtx.ip peer := by
  obtain ⟨rfl, type, protocol, rfl, dst, complete, totalLen, fits⟩ := ping
  have sent := sentFrames_processEther_icmp env frame foreign type dst protocol
  have state := processEther_icmp_state env frame foreign type dst protocol
  obtain ⟨canHeard, knows⟩ := can.learned env.now (octetsAt 6 frame etherOffSrc)
  obtain ⟨slot, known⟩ := Option.isSome_iff_exists.mp knows
  obtain ⟨sum, answered⟩ := processIcmp_known_fits canHeard.sized complete totalLen known fits
  have size : (icmpPart (packetIn frame) sum).bytes.length = (packetIn frame).messageLen := Payload.length_bytes _
  refine ⟨(congrArg LanPlay.core state).trans (processIcmp_core _ _ _), _, ?_,
    icmpFrame_pingFrame (s.heard env frame) ((s.heard env frame).packetCtx.arpList slot).mac _ (by rwa [size])⟩
  rw [sentPackets, sent, LanPlay.heard, answered, List.filter_singleton, icmpFrame_type]
  rfl

/-- The frame is a message from the sender to the receiver, and each of the two can
answer the other. -/
structure Round.Bounces (round : Round) : Prop where
  receiver : CanAnswer round.receiver round.sender.packetCtx.ip
  sender : CanAnswer round.sender round.receiver.packetCtx.ip
  foreign : ¬ cmpMac round.sender.packetCtx.mac round.receiver.packetCtx.mac = true
  frame : PingFrame round.frame round.sender.packetCtx.mac round.sender.packetCtx.ip round.receiver.packetCtx.ip

theorem Round.Bounces.next {round : Round} (bounces : round.Bounces) (env : Env) :
    ∃ after, round.next env = some after ∧ after.Bounces := by
  obtain ⟨core, reply, sent, back⟩ := bounces.frame.answered bounces.receiver bounces.foreign env
  refine ⟨_, by rw [Round.next, sent], ?_⟩
  have sameIp : (processEther env ⟨.frame, round.frame, 0⟩ round.frame.length round.receiver).state.packetCtx.ip =
      round.receiver.packetCtx.ip := congrArg (·.packetCtx.ip) core
  have sameMac : (processEther env ⟨.frame, round.frame, 0⟩ round.frame.length round.receiver).state.packetCtx.mac =
      round.receiver.packetCtx.mac := congrArg (·.packetCtx.mac) core
  have heard : CanAnswer (round.receiver.heard env round.frame) round.sender.packetCtx.ip := by
    rw [LanPlay.heard, bounces.frame.src]
    exact (bounces.receiver.learned env.now _).1
  constructor
  case receiver =>
    rw [sameIp]
    exact bounces.sender
  case sender => exact heard.of_core core
  case foreign =>
    rw [sameMac]
    intro agree
    exact bounces.foreign (cmpMac_eq_true.mpr fun index below => (cmpMac_eq_true.mp agree index below).symm)
  case frame =>
    rw [sameMac, sameIp]
    exact back

/-- However often the frame is delivered, there is always one more packet on its way. -/
theorem exchange_never_ends {round : Round} (bounces : round.Bounces) (times : List Env) :
    ∃ last, round.run times = some last ∧ last.Bounces := by
  induction times generalizing round with
  | nil => exact ⟨round, rfl, bounces⟩
  | cons env rest ih =>
      obtain ⟨after, delivered, again⟩ := bounces.next env
      rw [Round.run, delivered]
      exact ih again

end SwitchLanPlay
