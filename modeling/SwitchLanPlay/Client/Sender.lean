import SwitchLanPlay.Client.Relaying

/-!
# The sending side of the tunnel

For a whole run of the event loop, whatever wakes it: the datagrams with packets
in them are those of the packets that captured frames make the client hand over,
one packet after the other.
-/

namespace SwitchLanPlay

open Library SlotTable

/-! ## One input of the event loop -/

/-- The state in which `process_ether` gets a frame. -/
def LanPlay.catches (s : LanPlay) (len : Nat) (mac : Mac) : LanPlay :=
  LanPlay.captured { s with packetCtx.mac := mac } len

/-- The state in which a frame is handled once its sender is known. -/
def LanPlay.listens (s : LanPlay) (now : Int) (memory : Bytes) (len : Nat) (mac : Mac) : LanPlay :=
  (s.catches len mac).hears now (etherAt ⟨.frame, memory, 0⟩ len)

/-- The packet that an input makes the client hand to the relay. -/
def LoopInput.relayed (s : LanPlay) : LoopInput → Option Payload
  | .frame env memory len mac =>
      let ether := etherAt ⟨.frame, memory, 0⟩ len
      if len ≥ 65536 then none else (s.listens env.now memory len mac).relays env.now ether
  | _ => none

/-- The datagram has a packet or a part of one in it. -/
def carriesPacket (datagram : Bytes) : Bool :=
  byteAt datagram 0 = lanClientTypeIpv4 ∨ byteAt datagram 0 = lanClientTypeIpv4Frag

def tunnelled (events : List Event) : List Bytes := (datagrams events).filter carriesPacket

theorem tunnelled_append (first second : List Event) :
    tunnelled (first ++ second) = tunnelled first ++ tunnelled second := by
  rw [tunnelled, datagrams_append, List.filter_append]
  rfl

/-- The fragment id after the packet. -/
def Transmission.nextId (t : Transmission) : Nat := if t.Fragmented then (t.fragId + 1) % 2 ^ 32 else t.fragId

/-- What an input that hands over `packet` does to the uplink. -/
structure UplinkStep (packet : Option Bytes) (before after : Uplink) (events : List Event) : Prop where
  pmtu : after.pmtu = before.pmtu
  fragId : after.fragId = packet.elim before.fragId fun packet => (before.transmission packet).nextId
  succeeding : (∀ call, before.sendResults call = 0) → ∀ call, after.sendResults call = 0
  sent : (∀ call, before.sendResults call = 0) →
    tunnelled events = packet.elim [] fun packet => (before.transmission packet).datagrams

theorem UplinkStep.idle {before after : Uplink} {events : List Event} (same : after = before)
    (silent : datagrams events = []) : UplinkStep none before after events := by
  subst same
  exact ⟨rfl, rfl, id, fun _ => by rw [tunnelled, silent]; rfl⟩

theorem uplink_of_core {s s' : LanPlay} (same : s.core = s'.core) : s.uplink = s'.uplink := by
  have fields := congrArg LanPlay.uplink same
  exact fields

theorem UplinkStep.of_local {α : Type} {m : Proc LanPlay Event α} (stays : StaysLocal m) (s : LanPlay) :
    UplinkStep none s.uplink (m s).state.uplink (m s).events :=
  .idle (uplink_of_core (stays s).1) (datagrams_eq_nil (stays s).2)

/-- Other datagrams have no packets in them. -/
theorem UplinkStep.of_other (type : UInt8) (packet : Ptr) (len : Nat) (uplink : Uplink)
    (other : type ≠ lanClientTypeIpv4 ∧ type ≠ lanClientTypeIpv4Frag) :
    UplinkStep none uplink (lanClientSend type packet len uplink).state (lanClientSend type packet len uplink).events := by
  have nonempty : (([.ofBytes [type], ⟨packet, len⟩] : List Payload).map Payload.len).sum ≠ 0 := by simp
  have whole : lanClientSend type packet len uplink = lanClientSendRaw [.ofBytes [type], ⟨packet, len⟩] uplink := by
    rw [lanClientSend, Proc.read_bind, dif_neg fun taken => other.1 taken.1]
  rw [whole]
  obtain ⟨pmtu, fragId⟩ := lanClientSendRaw_keeps [.ofBytes [type], ⟨packet, len⟩] uplink
  refine ⟨pmtu, fragId, lanClientSendRaw_succeeding _ uplink, fun succeeding => ?_⟩
  rw [tunnelled, lanClientSendRaw_datagrams _ uplink nonempty, if_pos (succeeding 0)]
  simp [carriesPacket, other.1, other.2]

theorem datagrams_sendWhole (uplink : Uplink) (packet : Bytes) (whole : ¬ (uplink.transmission packet).Fragmented)
    (succeeding : ∀ call, uplink.sendResults call = 0) :
    datagrams (lanClientSendIpv4 ⟨.frame, packet, 0⟩ packet.length uplink).events = [lanClientTypeIpv4 :: packet] := by
  have outcome : lanClientSendIpv4 ⟨.frame, packet, 0⟩ packet.length uplink = _ :=
    hands_whole ⟨⟨.frame, packet, 0⟩, packet.length⟩ uplink whole
  rw [outcome, lanClientSendRaw_datagrams _ uplink (by simp), if_pos (succeeding 0)]
  exact congrArg (fun bytes => [lanClientTypeIpv4 :: bytes]) (by simp [Payload.bytes, slice_full])

theorem Transmission.datagrams_of_whole {t : Transmission} (whole : ¬ t.Fragmented) :
    t.datagrams = [lanClientTypeIpv4 :: t.packet] :=
  datagrams_sendWhole t.uplink t.packet whole fun _ => rfl

/-- The datagrams of a packet that is handed over while every call of `uv_udp_send` succeeds. -/
theorem datagrams_hands (uplink : Uplink) (packet : Bytes) (succeeding : ∀ call, uplink.sendResults call = 0) :
    datagrams (lanClientSendIpv4 ⟨.frame, packet, 0⟩ packet.length uplink).events =
      (uplink.transmission packet).datagrams := by
  by_cases fragmented : (uplink.transmission packet).Fragmented
  · obtain ⟨count, emitted, all⟩ := lanClientSendIpv4_fragmented uplink packet fragmented
    rw [emitted, Transmission.datagrams_of_fragmented fragmented,
      List.take_of_length_le (by simpa using all succeeding)]
  · rw [datagrams_sendWhole uplink packet fragmented succeeding, Transmission.datagrams_of_whole fragmented]
    rfl

theorem Transmission.carriesPacket_of_mem {t : Transmission} {datagram : Bytes} (member : datagram ∈ t.datagrams) :
    carriesPacket datagram = true := by
  rcases carries_of_mem member with ⟨-, k, -, rfl⟩ | ⟨-, rfl⟩ <;> simp [carriesPacket, fragment]

/-- A packet shorter than its header is never split. -/
def Uplink.Proper (uplink : Uplink) : Prop := uplink.pmtu ≤ 0 ∨ (minFragPayloadLen : Int) ≤ uplink.pmtu

theorem UplinkStep.of_hands {uplink : Uplink} (proper : uplink.Proper) (packet : Option Payload) :
    UplinkStep (packet.map Payload.bytes) uplink (uplink.hands packet).state (uplink.hands packet).events := by
  cases packet with
  | none => exact .idle rfl rfl
  | some part =>
      have headed : (uplink.transmission part.bytes).Fragmented → ipv4OffEnd ≤ part.len := by
        rintro ⟨positive, many⟩
        have bound : uplink.pmtu ≤ 0 ∨ (500 : Int) ≤ uplink.pmtu := proper
        have fragmenting : 0 < uplink.pmtu := positive
        have second := (lt_totalPart_iff (by omega) 1).mp many
        rw [Uplink.transmission, part.length_bytes] at second
        change 20 ≤ part.len
        dsimp only at second
        omega
      obtain ⟨state, sent⟩ := hands_alone part uplink headed
      obtain ⟨pmtu, fragId⟩ := lanClientSendIpv4_keeps uplink part.bytes
      rw [state]
      refine ⟨pmtu, fragId, lanClientSendIpv4_succeeding uplink part.bytes, fun succeeding => ?_⟩
      rw [tunnelled, sent]
      refine (congrArg (List.filter _) (datagrams_hands uplink part.bytes succeeding)).trans ?_
      exact List.filter_eq_self.mpr fun _ => Transmission.carriesPacket_of_mem

/-- No datagram leaves. -/
def Event.Inward (event : Event) : Prop := event.datagram? = none

theorem datagrams_of_inward {α : Type} {m : Proc LanPlay Event α} {s : LanPlay} (inward : m.Emits Event.Inward s) :
    datagrams (m s).events = [] :=
  List.filterMap_eq_nil_iff.mpr inward

section Receiving

variable (now : Int) (packet : Ptr) (len : Nat)

theorem lanClientProcess_inward : (lanClientProcess now packet len).Framed LanPlay.uplink Event.Inward := by
  have sends : Sends Event.Inward packet.region := by constructor <;> intros <;> rfl
  refine (Proc.framed_emit (by exact rfl)).bind fun _ => ?_
  exact (lanClientForward_framed now sends len).coarsen fun _ _ => uplink_of_core

theorem lanClientProcessFrag_inward : (lanClientProcessFrag now packet len).Framed LanPlay.uplink Event.Inward := by
  have reads : (readHeader packet).Framed LanPlay.uplink Event.Inward :=
    fun s => ⟨rfl, by simp [readHeader, Event.Inward, Event.datagram?]⟩
  refine reads.bind fun header => Proc.framed_read.bind fun lanPlay => ?_
  split
  case h_1 => exact (Proc.framed_emit (by exact rfl)).bind fun _ => Proc.framed_pure _
  case h_2 i table found =>
    refine Proc.Framed.bind (fun s => ⟨rfl, by simp [Event.Inward, Event.datagram?]⟩) fun payload => ?_
    refine (Proc.framed_emit (by exact rfl)).bind fun _ => ?_
    unfold finishFragment
    refine Proc.framed_ite ?_ ?_
    · exact (Proc.framed_update (by exact fun _ => rfl)).bind fun _ => lanClientProcess_inward now _ _
    · exact (Proc.framed_update (by exact fun _ => rfl)).bind fun _ => Proc.framed_pure _

theorem UplinkStep.of_inward {α : Type} {m : Proc LanPlay Event α} (framed : m.Framed LanPlay.uplink Event.Inward)
    (s : LanPlay) : UplinkStep none s.uplink (m s).state.uplink (m s).events :=
  .idle (framed s).1 (datagrams_of_inward (framed s).2)

/-- What comes before leaves the state alone and sends nothing. -/
theorem UplinkStep.after {α β : Type} {first : Proc LanPlay Event α} {next : α → Proc LanPlay Event β} {s : LanPlay}
    (value : α) (returns : (first s).value = value) (kept : (first s).state = s) (inward : first.Emits Event.Inward s)
    (step : UplinkStep none s.uplink (next value s).state.uplink (next value s).events) :
    UplinkStep none s.uplink ((first >>= next) s).state.uplink ((first >>= next) s).events := by
  rw [Proc.bind_state, Proc.bind_events, returns, kept]
  refine ⟨step.pmtu, step.fragId, step.succeeding, fun succeeding => ?_⟩
  rw [tunnelled_append, tunnelled, datagrams_of_inward inward]
  exact step.sent succeeding

theorem UplinkStep.then_pure {α : Type} {m : Proc LanPlay Event α} {s : LanPlay} {packet : Option Bytes} {before : Uplink}
    (step : UplinkStep packet before (m s).state.uplink (m s).events) :
    UplinkStep packet before ((m >>= fun _ => pure ()) s).state.uplink ((m >>= fun _ => pure ()) s).events := by
  rw [Proc.bind_events, Proc.pure_events, List.append_nil]
  exact step

theorem lanClientProcessAuthMe_uplink (sha1 : Bytes → Bytes) (s : LanPlay) :
    UplinkStep none s.uplink (lanClientProcessAuthMe sha1 packet len s).state.uplink
      (lanClientProcessAuthMe sha1 packet len s).events := by
  rw [lanClientProcessAuthMe, Proc.read_bind]
  cases s.username with
  | none => exact .idle rfl rfl
  | some username =>
      refine UplinkStep.after _ rfl rfl (by simp [Event.Inward, Event.datagram?]) ?_
      split
      · refine UplinkStep.after _ rfl rfl (by simp [Event.Inward, Event.datagram?]) ?_
        exact UplinkStep.then_pure (.of_other lanClientTypeAuthMe _ _ s.uplink (by decide))
      · exact .idle rfl rfl

theorem receive_uplink (env : Env) (datagram : Bytes) (s : LanPlay) :
    UplinkStep none s.uplink (receive env datagram s).state.uplink (receive env datagram s).events := by
  cases datagram with
  | nil => exact .idle rfl rfl
  | cons first rest =>
      have handled : ∀ type pointer size, UplinkStep none s.uplink
          (lanClientDispatch env type pointer size (s.arrival (first :: rest))).state.uplink
          (lanClientDispatch env type pointer size (s.arrival (first :: rest))).events := by
        intro type pointer size
        unfold lanClientDispatch
        split
        · exact (UplinkStep.of_inward (lanClientProcess_inward _ _ _) (s.arrival (first :: rest))).then_pure
        split
        · exact (UplinkStep.of_inward (lanClientProcessFrag_inward _ _ _) (s.arrival (first :: rest))).then_pure
        split
        · exact lanClientProcessAuthMe_uplink _ _ _ (s.arrival (first :: rest))
        split
        · exact .idle rfl rfl
        · exact .idle rfl rfl
      have step := handled (UInt8.ofNat (first.toNat % 0x80)) (s.arrivalPtr (first :: rest))
        ((rest.length + 1) % 2 ^ 16 - 1)
      rw [receive_outcome]
      exact ⟨step.pmtu, step.fragId, step.succeeding, step.sent⟩

end Receiving

theorem lanPlayPcapHandler_leaves (env : Env) (memory : Bytes) {len : Nat} (small : len < 65536) (mac : Mac)
    (s : LanPlay) :
    let heard := s.listens env.now memory len mac
    let packet := heard.relays env.now (etherAt ⟨.frame, memory, 0⟩ len)
    Leaves (lanPlayPcapHandler env memory len mac s) (heard.handed packet)
      (datagrams (heard.uplink.hands packet).events) := by
  intro heard packet
  refine Leaves.after_local () _ rfl rfl (Proc.emits_update _) ?_
  rw [getPacket, if_neg (Nat.not_le.mpr small)]
  refine Leaves.after_local () (s.catches len mac) rfl rfl (Proc.emits_update _) ?_
  exact (processEther_leaves env (s.catches len mac) ⟨.frame, memory, 0⟩ len).then_local fun _ => Proc.framed_pure _

theorem LanPlay.hears_uplink (s : LanPlay) (now : Int) (ether : EtherFrame) : (s.hears now ether).uplink = s.uplink := by
  unfold hears
  split <;> rfl

theorem loopStep_uplink (input : LoopInput) {s : LanPlay} (proper : s.uplink.Proper) :
    UplinkStep ((input.relayed s).map Payload.bytes) s.uplink (loopStep input s).state.uplink
      (loopStep input s).events := by
  cases input with
  | datagram env datagram => exact receive_uplink env datagram.bytes s
  | frame env memory len mac =>
      by_cases small : len < 65536
      · have leaves := lanPlayPcapHandler_leaves env memory small mac s
        have same : (s.listens env.now memory len mac).uplink = s.uplink := LanPlay.hears_uplink _ _ _
        have relayed : LoopInput.relayed s (.frame env memory len mac) =
            (s.listens env.now memory len mac).relays env.now (etherAt ⟨.frame, memory, 0⟩ len) :=
          if_neg (Nat.not_le.mpr small)
        have step := UplinkStep.of_hands proper (LoopInput.relayed s (.frame env memory len mac))
        rw [← same, relayed] at step ⊢
        have uplink := uplink_of_core leaves.core
        refine ⟨uplink ▸ step.pmtu, uplink ▸ step.fragId, fun zero => uplink ▸ step.succeeding zero, fun zero => ?_⟩
        rw [← step.sent zero, tunnelled, tunnelled]
        exact congrArg (List.filter _) leaves.sent
      · have skipped : LoopInput.relayed s (.frame env memory len mac) = none := if_pos (Nat.le_of_not_lt small)
        rw [skipped, loopStep, lanPlayPcapHandler, getPacket, if_pos (Nat.le_of_not_lt small)]
        exact .idle rfl rfl
  | keepaliveTimer => exact UplinkStep.then_pure (.of_other lanClientTypeKeepalive _ _ s.uplink (by decide))
  | realBroadcastTimer => exact .idle rfl rfl
  | proxyData now src srcport fromIp fromPort data =>
      exact (UplinkStep.of_local (staysLocal_directProxyOnData now src srcport fromIp fromPort data) s).then_pure
  | stackOutput now packet => exact (UplinkStep.of_local (staysLocal_gatewaySendPacket now packet) s).then_pure

/-! ## A run of the event loop -/

/-- The packets that the inputs make the client hand to the relay, in order. -/
def relayedPackets (s : LanPlay) (inputs : List LoopInput) : List Bytes :=
  Proc.noting loopStep (fun state input packets => packets ++ ((input.relayed state).map Payload.bytes).toList) s []
    inputs

theorem relayedPackets_snoc (s : LanPlay) (first : List LoopInput) (last : LoopInput) :
    relayedPackets s (first ++ [last]) =
      relayedPackets s first ++ ((last.relayed (Proc.runAll loopStep first s).state).map Payload.bytes).toList :=
  Proc.noting_snoc loopStep _ first last s []

/-- The packets as one sender sends them, the first one under `fragId`. -/
def transmissions (pmtu : Int) : Nat → List Bytes → List Transmission
  | _, [] => []
  | fragId, packet :: rest => ⟨pmtu, fragId, packet⟩ :: transmissions pmtu (Transmission.nextId ⟨pmtu, fragId, packet⟩) rest

def idAfter (pmtu : Int) : Nat → List Bytes → Nat
  | fragId, [] => fragId
  | fragId, packet :: rest => idAfter pmtu (Transmission.nextId ⟨pmtu, fragId, packet⟩) rest

section Transmissions

variable (pmtu : Int)

theorem transmissions_append (first second : List Bytes) :
    ∀ fragId, transmissions pmtu fragId (first ++ second) =
      transmissions pmtu fragId first ++ transmissions pmtu (idAfter pmtu fragId first) second := by
  induction first with
  | nil => exact fun _ => rfl
  | cons packet rest ih => exact fun fragId => congrArg (_ :: ·) (ih _)

theorem idAfter_append (first second : List Bytes) :
    ∀ fragId, idAfter pmtu fragId (first ++ second) = idAfter pmtu (idAfter pmtu fragId first) second := by
  induction first with
  | nil => exact fun _ => rfl
  | cons packet rest ih => exact fun fragId => ih _

end Transmissions

/-- The uplink of a client that has handed over `packets`, and what it has sent. -/
structure Sending (start : Uplink) (packets : List Bytes) (uplink : Uplink) (events : List Event) : Prop where
  pmtu : uplink.pmtu = start.pmtu
  fragId : uplink.fragId = idAfter start.pmtu start.fragId packets
  succeeding : ∀ call, uplink.sendResults call = 0
  sent : tunnelled events = (transmissions start.pmtu start.fragId packets).flatMap Transmission.datagrams

theorem Sending.next {start before after : Uplink} {packets : List Bytes} {past events : List Event}
    {packet : Option Bytes} (sending : Sending start packets before past)
    (step : UplinkStep packet before after events) : Sending start (packets ++ packet.toList) after (past ++ events) := by
  have now := step.sent sending.succeeding
  refine ⟨step.pmtu.trans sending.pmtu, ?_, step.succeeding sending.succeeding, ?_⟩
  · rw [step.fragId, idAfter_append]
    cases packet with
    | none => exact sending.fragId
    | some packet =>
        rw [← sending.fragId, ← sending.pmtu]
        rfl
  · rw [tunnelled_append, sending.sent, now, transmissions_append, List.flatMap_append]
    cases packet with
    | none => rfl
    | some packet =>
        rw [← sending.fragId, ← sending.pmtu]
        simp [transmissions, Uplink.transmission]

/-- Whatever the loop wakes the client for, what it sends of packets are the
datagrams of those it hands over, packet by packet. -/
theorem sending_run (inputs : List LoopInput) {s : LanPlay} (proper : s.uplink.Proper)
    (succeeding : ∀ call, s.uplink.sendResults call = 0) :
    Sending s.uplink (relayedPackets s inputs) (Proc.runAll loopStep inputs s).state.uplink
      (Proc.runAll loopStep inputs s).events := by
  induction inputs using List.reverseRecOn with
  | nil => exact ⟨rfl, rfl, succeeding, rfl⟩
  | append_singleton first last ih =>
      rw [relayedPackets_snoc, Proc.runAll_snoc_state, Proc.runAll_snoc_events]
      refine ih.next (loopStep_uplink last ?_)
      rw [Uplink.Proper, ih.pmtu]
      exact proper

/-! ## What a run leaves of the packet context -/

/-- The packet context without its counters. -/
def LanPlay.site (s : LanPlay) : PacketCtx :=
  { s.core.packetCtx with downloadByte := 0, downloadPacket := 0 }

theorem site_of_core {s s' : LanPlay} (same : s.core = s'.core) : s.site = s'.site := by
  rw [LanPlay.site, LanPlay.site, same]

def PacketCtx.hears (ctx : PacketCtx) (now : Int) (ether : EtherFrame) : PacketCtx :=
  match ether.sender ctx.mac with
  | none => ctx
  | some (mac, ip) => ctx.arpSet now mac ip

/-- Only captured frames change the context, by the interface they come from and by their sender. -/
def LoopInput.settles (ctx : PacketCtx) : LoopInput → PacketCtx
  | .frame env memory len mac =>
      if len ≥ 65536 then { ctx with mac := mac }
      else PacketCtx.hears { ctx with mac := mac } env.now (etherAt ⟨.frame, memory, 0⟩ len)
  | _ => ctx

abbrev KeepsSite {α : Type} (m : Proc LanPlay Event α) : Prop := m.Framed LanPlay.site fun _ => True

theorem keepsSite_process (now : Int) (packet : Ptr) (len : Nat) : KeepsSite (lanClientProcess now packet len) := by
  refine (Proc.framed_emit trivial).bind fun _ => ?_
  exact (lanClientForward_framed now (sends_anything packet.region) len).coarsen fun _ _ => site_of_core

theorem keepsSite_processFrag (now : Int) (packet : Ptr) (len : Nat) :
    KeepsSite (lanClientProcessFrag now packet len) := by
  refine Proc.Framed.bind (Proc.framed_of_kept fun _ => rfl) fun header => Proc.framed_read.bind fun lanPlay => ?_
  split
  case h_1 => exact Proc.framed_of_kept fun _ => rfl
  case h_2 i table found =>
    refine Proc.Framed.bind (Proc.framed_of_kept fun _ => rfl) fun payload => (Proc.framed_emit trivial).bind fun _ => ?_
    unfold finishFragment
    refine Proc.framed_ite ?_ (Proc.framed_of_kept fun _ => rfl)
    exact (Proc.framed_of_kept fun _ => rfl).bind fun _ => keepsSite_process now _ _

theorem keepsSite_authMe (sha1 : Bytes → Bytes) (packet : Ptr) (len : Nat) :
    KeepsSite (lanClientProcessAuthMe sha1 packet len) := by
  refine Proc.framed_read.bind fun lanPlay => ?_
  cases lanPlay.username with
  | none => exact Proc.framed_pure _
  | some username =>
      refine Proc.Framed.bind (Proc.framed_of_kept fun _ => rfl) fun authType => Proc.framed_ite ?_ (Proc.framed_pure _)
      exact Proc.Framed.bind (Proc.framed_of_kept fun _ => rfl) fun _ => Proc.framed_of_kept fun _ => rfl

theorem receive_site (env : Env) (datagram : Bytes) (s : LanPlay) : (receive env datagram s).state.site = s.site := by
  cases datagram with
  | nil => rfl
  | cons first rest =>
      have dispatch : ∀ type packet len, KeepsSite (lanClientDispatch env type packet len) := by
        intro type packet len
        refine Proc.framed_ite ((keepsSite_process _ _ _).bind fun _ => Proc.framed_pure _) (Proc.framed_ite
          ((keepsSite_processFrag _ _ _).bind fun _ => Proc.framed_pure _) (Proc.framed_ite (keepsSite_authMe _ _ _) ?_))
        exact Proc.framed_ite (Proc.framed_of_kept fun _ => rfl) (Proc.framed_pure _)
      rw [receive_outcome]
      exact (dispatch _ _ _ (s.arrival (first :: rest))).1

theorem LanPlay.site_hears (s : LanPlay) (now : Int) (ether : EtherFrame) :
    (s.hears now ether).site = s.site.hears now ether := by
  have same : s.site.mac = s.packetCtx.mac := rfl
  unfold hears PacketCtx.hears
  rw [same]
  cases ether.sender s.packetCtx.mac <;> rfl

theorem loopStep_site (input : LoopInput) (s : LanPlay) : (loopStep input s).state.site = input.settles s.site := by
  cases input with
  | datagram env datagram => exact receive_site env datagram.bytes s
  | frame env memory len mac =>
      by_cases small : len < 65536
      · have leaves := lanPlayPcapHandler_leaves env memory small mac s
        have heard : (s.listens env.now memory len mac).site = _ := LanPlay.site_hears _ _ _
        rw [LoopInput.settles, if_neg (Nat.not_le.mpr small)]
        exact (site_of_core leaves.core).trans heard
      · rw [loopStep, lanPlayPcapHandler, getPacket, LoopInput.settles, if_pos (Nat.le_of_not_lt small),
          if_pos (Nat.le_of_not_lt small)]
        rfl
  | keepaliveTimer => rfl
  | realBroadcastTimer => rfl
  | proxyData now src srcport fromIp fromPort data =>
      exact site_of_core (staysLocal_directProxyOnData now src srcport fromIp fromPort data s).1
  | stackOutput now packet => exact site_of_core (staysLocal_gatewaySendPacket now packet s).1

theorem site_run (inputs : List LoopInput) (s : LanPlay) :
    (Proc.runAll loopStep inputs s).state.site = inputs.foldl LoopInput.settles s.site := by
  induction inputs generalizing s with
  | nil => rfl
  | cons input rest ih => rw [Proc.runAll_cons_state, ih, loopStep_site, List.foldl_cons]

/-! ## Addresses of the other networks -/

/-- The address that an input makes known. -/
def LoopInput.speaker : LoopInput → Option Ip
  | .frame _ memory len mac =>
      if len ≥ 65536 then none else ((etherAt ⟨.frame, memory, 0⟩ len).sender mac).map Prod.snd
  | _ => none

/-- The packet of a frame from the local network to an address that is not on it. -/
def LoopInput.outbound (near : Ip → Bool) (ctx : PacketCtx) : LoopInput → Option Bytes
  | .frame _ memory len mac =>
      let ether := etherAt ⟨.frame, memory, 0⟩ len
      let dst := (ipv4At ether).dst
      if len < 65536 ∧ cmpMac ether.src mac = false ∧ ether.type = etherTypeIpv4 ∧ dst ≠ ctx.ip ∧
          isSubnet dst ctx.subnetNet ctx.subnetMask = true ∧
            (isBroadcast dst ctx.subnetNet ctx.subnetMask = true ∨ near dst = false ∧ dst ≠ noneIp) then
        some (slice memory etherOffEnd (ipv4At ether).totalLen)
      else none
  | _ => none

/-- The cache has addresses of the local network only. -/
def PacketCtx.HasOnly (ctx : PacketCtx) (near : Ip → Bool) : Prop :=
  ∀ i, (ctx.arpList i).ip = noneIp ∨ near (ctx.arpList i).ip = true

namespace PacketCtx.HasOnly

variable {ctx : PacketCtx} {near : Ip → Bool}

theorem arpSet (only : ctx.HasOnly near) (now : Int) (mac : Mac) {ip : Ip} (spoken : near ip = true) :
    (ctx.arpSet now mac ip).HasOnly near := by
  intro i
  unfold PacketCtx.arpSet
  cases ctx.arpSlot now ip with
  | none => exact only i
  | some slot =>
      by_cases here : i = slot
      · subst here
        simp [spoken]
      · simpa [here] using only i

theorem settles (only : ctx.HasOnly near) (input : LoopInput) (spoken : ∀ ip ∈ input.speaker, near ip = true) :
    (input.settles ctx).HasOnly near := by
  cases input with
  | frame env memory len mac =>
      rw [LoopInput.settles]
      by_cases large : len ≥ 65536
      · rw [if_pos large]
        exact only
      · rw [if_neg large, PacketCtx.hears]
        cases heard : (etherAt ⟨.frame, memory, 0⟩ len).sender mac with
        | none => exact only
        | some sender =>
            refine HasOnly.arpSet only _ _ (spoken sender.2 ?_)
            rw [LoopInput.speaker, if_neg large, heard]
            rfl
  | _ => exact only

/-- An address from elsewhere is not found. -/
theorem arpFind_eq_none (only : ctx.HasOnly near) (now : Int) {ip : Ip} (remote : near ip = false) (some' : ip ≠ noneIp) :
    ctx.arpFind now ip = none := by
  unfold arpFind
  refine firstIndex_eq_none_iff.mpr fun i => ?_
  have other : (ctx.arpList i).ip ≠ ip := by
    intro same
    rcases only i with nobody | known
    · exact some' (same.symm.trans nobody)
    · rw [same, remote] at known
      exact Bool.noConfusion known
  simp [other]

end PacketCtx.HasOnly

theorem settles_kept (input : LoopInput) (ctx : PacketCtx) :
    (input.settles ctx).ip = ctx.ip ∧ (input.settles ctx).subnetNet = ctx.subnetNet ∧
      (input.settles ctx).subnetMask = ctx.subnetMask ∧ (input.settles ctx).bufferLen = ctx.bufferLen := by
  cases input with
  | frame env memory len mac =>
      rw [LoopInput.settles]
      split
      · exact ⟨rfl, rfl, rfl, rfl⟩
      · rw [PacketCtx.hears]
        split <;> exact ⟨rfl, rfl, rfl, rfl⟩
  | _ => exact ⟨rfl, rfl, rfl, rfl⟩

/-- A packet to an address from elsewhere is handed over in every state whose cache
has local addresses only. -/
theorem relayed_of_outbound {near : Ip → Bool} {s : LanPlay} {input : LoopInput} {packet : Bytes}
    (only : (input.settles s.site).HasOnly near) (outbound : input.outbound near s.site = some packet) :
    (input.relayed s).map Payload.bytes = some packet := by
  cases input with
  | frame env memory len mac =>
      obtain ⟨⟨small, foreign, type, other, inside, far⟩, rfl⟩ := Option.ite_some_none_eq_some.mp outbound
      have heard : (s.listens env.now memory len mac).site = (LoopInput.frame env memory len mac).settles s.site := by
        rw [LoopInput.settles, if_neg (Nat.not_le.mpr small)]
        exact LanPlay.site_hears _ _ _
      obtain ⟨ip, net, mask, -⟩ := settles_kept (.frame env memory len mac) s.site
      rw [← heard] at ip net mask only
      have own : (s.listens env.now memory len mac).packetCtx.mac = mac := LanPlay.hears_mac _ _ _
      have unknown : isBroadcast (ipv4At (etherAt ⟨.frame, memory, 0⟩ len)).dst s.site.subnetNet s.site.subnetMask = true ∨
          (s.listens env.now memory len mac).packetCtx.arpFind env.now
            (ipv4At (etherAt ⟨.frame, memory, 0⟩ len)).dst = none :=
        far.imp_right fun remote => only.arpFind_eq_none env.now remote.1 remote.2
      have relayed : LoopInput.relayed s (.frame env memory len mac) =
          some ⟨(etherAt ⟨.frame, memory, 0⟩ len).payload, (ipv4At (etherAt ⟨.frame, memory, 0⟩ len)).totalLen⟩ := by
        refine (if_neg (Nat.not_le.mpr small)).trans (if_pos ?_)
        rw [← net, ← mask] at inside unknown
        rw [← ip] at other
        exact ⟨by rw [own]; exact foreign, type, other, inside, unknown⟩
      rw [relayed]
      rfl
  | _ => cases outbound

theorem hasOnly_run {near : Ip → Bool} {inputs : List LoopInput}
    (spoken : ∀ input ∈ inputs, ∀ ip ∈ input.speaker, near ip = true) {ctx : PacketCtx} (only : ctx.HasOnly near) :
    (inputs.foldl LoopInput.settles ctx).HasOnly near := by
  induction inputs generalizing ctx with
  | nil => exact only
  | cons input rest ih =>
      obtain ⟨now, later⟩ := List.forall_mem_cons.mp spoken
      exact ih later (only.settles input now)

theorem settles_run_kept (inputs : List LoopInput) (ctx : PacketCtx) :
    let after := inputs.foldl LoopInput.settles ctx
    after.ip = ctx.ip ∧ after.subnetNet = ctx.subnetNet ∧ after.subnetMask = ctx.subnetMask ∧
      after.bufferLen = ctx.bufferLen := by
  induction inputs generalizing ctx with
  | nil => exact ⟨rfl, rfl, rfl, rfl⟩
  | cons input rest ih =>
      obtain ⟨ip, net, mask, len⟩ := settles_kept input ctx
      obtain ⟨ip', net', mask', len'⟩ := ih (input.settles ctx)
      exact ⟨ip'.trans ip, net'.trans net, mask'.trans mask, len'.trans len⟩

theorem outbound_congr (near : Ip → Bool) {ctx ctx' : PacketCtx} (ip : ctx.ip = ctx'.ip)
    (net : ctx.subnetNet = ctx'.subnetNet) (mask : ctx.subnetMask = ctx'.subnetMask) (input : LoopInput) :
    input.outbound near ctx = input.outbound near ctx' := by
  cases input with
  | frame env memory len mac => rw [LoopInput.outbound, LoopInput.outbound, ip, net, mask]
  | _ => rfl

/-- In every run in which the frames heard come from addresses of the local network:
the packets to addresses from elsewhere, and the broadcasts, are handed to the relay in
order, and while no send is refused, what the client sends of packets are the datagrams of
those handed over. -/
theorem relay_carries_remote (near : Ip → Bool) (s : LanPlay) (only : s.packetCtx.HasOnly near) (inputs : List LoopInput)
    (spoken : ∀ input ∈ inputs, ∀ ip ∈ input.speaker, near ip = true) :
    (inputs.filterMap (LoopInput.outbound near s.packetCtx)).Sublist (relayedPackets s inputs) ∧
      (s.uplink.Proper → (∀ call, s.uplink.sendResults call = 0) →
        tunnelled (Proc.runAll loopStep inputs s).events =
          (transmissions s.uplink.pmtu s.uplink.fragId (relayedPackets s inputs)).flatMap Transmission.datagrams) := by
  refine ⟨?_, fun proper succeeding => (sending_run inputs proper succeeding).sent⟩
  induction inputs using List.reverseRecOn with
  | nil => exact List.Sublist.refl _
  | append_singleton first last ih =>
      rw [List.filterMap_append, relayedPackets_snoc]
      refine (ih fun input member => spoken input (List.mem_append_left _ member)).append ?_
      have site := site_run first s
      have start : s.site.HasOnly near := only
      have onlyAfter : (last.settles (Proc.runAll loopStep first s).state.site).HasOnly near := by
        rw [site]
        refine (hasOnly_run (fun input member => spoken input (List.mem_append_left _ member)) start).settles last ?_
        exact spoken last (List.mem_append_right _ (List.mem_singleton_self _))
      obtain ⟨ip, net, mask, -⟩ := settles_run_kept first s.site
      rw [← site] at ip net mask
      have same := outbound_congr near ip net mask last
      cases outbound : last.outbound near s.packetCtx with
      | none => simp [outbound]
      | some packet =>
          rw [relayed_of_outbound onlyAfter (same.trans outbound)]
          simp [outbound]

/-- A frame that 10.13.0.1 sends to 10.13.0.2: an IPv4 header alone. -/
def frameToRemote : Bytes :=
  [2, 0, 0, 0, 0, 9, 2, 0, 0, 0, 0, 1, 8, 0,
    0x45, 0, 0, 20, 0, 0, 0, 0, 64, 17, 0, 0, 10, 13, 0, 1, 10, 13, 0, 2]

/-- It is handed over, and sent in one datagram. -/
theorem relay_carries_remote_frame :
    let s := lanPlayStart 500 none (fun _ => 0) fun _ => 0
    let inputs : List LoopInput := [.frame ⟨0, id, fun _ => []⟩ frameToRemote 34 fun _ => 9]
    [slice frameToRemote 14 20].Sublist (relayedPackets s inputs) ∧
      tunnelled (Proc.runAll loopStep inputs s).events = [lanClientTypeIpv4 :: slice frameToRemote 14 20] := by
  intro s inputs
  have only : s.packetCtx.HasOnly fun ip => ip = octetsAt 4 [10, 13, 0, 1] 0 := fun _ => .inl rfl
  have speaker : inputs.map LoopInput.speaker = [some (octetsAt 4 [10, 13, 0, 1] 0)] := by decide +kernel
  have spoken : ∀ input ∈ inputs, ∀ ip ∈ input.speaker, decide (ip = octetsAt 4 [10, 13, 0, 1] 0) = true := by
    intro input member ip heard
    have same := speaker ▸ List.mem_map_of_mem (f := LoopInput.speaker) member
    rw [heard, List.mem_singleton, Option.some_inj] at same
    exact decide_eq_true same
  have remote : inputs.filterMap (LoopInput.outbound (fun ip => ip = octetsAt 4 [10, 13, 0, 1] 0) s.packetCtx) =
      [slice frameToRemote 14 20] := by
    decide +kernel
  obtain ⟨handed, sent⟩ := relay_carries_remote _ s only inputs spoken
  rw [remote] at handed
  -- one input hands over one packet
  have one : relayedPackets s inputs = [slice frameToRemote 14 20] := by
    refine (handed.eq_of_length_le ?_).symm
    exact Option.length_toList_le
  refine ⟨handed, (sent (.inr (by decide)) fun _ => rfl).trans ?_⟩
  rw [one]
  decide +kernel

end SwitchLanPlay
