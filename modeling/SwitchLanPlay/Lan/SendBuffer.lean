import SwitchLanPlay.Client.Reassembly
import SwitchLanPlay.Lan.Footprint

/-!
# The send buffer and what arrives from outside

Relay datagrams, datagrams of the proxy and captured frames all end up in one
buffer of `BUFFER_SIZE` bytes.  `send_payloads` ends the program when a chain
does not fit; `Arrival.Fits` is the condition under which this does not happen.
-/

namespace SwitchLanPlay

open Library SlotTable

/-- Every event but the branch of `send_payloads` that ends in `assert(0)`. -/
def NotTooLarge : Event → Prop
  | .tooLarge _ => False
  | _ => True

/-- A datagram of the relay with the type of an IPv4 packet. -/
structure Ipv4Datagram where
  type : UInt8
  packet : Bytes
  ipv4 : UInt8.ofNat (type.toNat % 0x80) = lanClientTypeIpv4
  length : packet.length + 1 ≤ clientRecvBufLen

/-- What reaches the send buffer from outside. -/
inductive Arrival where
  | relay (datagram : Ipv4Datagram)
  /-- A datagram for the flow of `src` and `srcport`. -/
  | proxy (src : Ip) (srcport : Nat) (fromIp : Ip) (fromPort : Nat) (data : Bytes)
      (short : data.length ≤ 65507)
  | captured (frame : Bytes) (short : frame.length < 65536)

def Arrival.handle (env : Env) : Arrival → Proc LanPlay Event Unit
  | .relay datagram => receive env (datagram.type :: datagram.packet)
  | .proxy src srcport fromIp fromPort data _ => do
      let _ ← directProxyOnData env.now src srcport fromIp fromPort data
      pure ()
  | .captured frame _ => getPacket env frame frame.length

/-! ## The condition -/

/-- An IPv4 packet of a captured frame, in the state that knows its sender:
what is echoed, passed on, or put out by the TCP stack in answer to it fits. -/
def Ipv4Fits (env : Env) (s : LanPlay) (ipv4 : Ipv4) : Prop :=
  let ctx := s.packetCtx
  let raw := ipv4.ether.raw
  let rawLen := ipv4.ether.rawLen
  if ipv4.dst = ctx.ip then
    ipv4.protocol = ipv4ProtocolIcmp → (ctx.arpFind env.now ipv4.src).isSome = true →
      etherHeaderLen + ipv4HeaderLen + (((ipv4.totalLen : Int) - ipv4.headerLen) % 2 ^ 16).toNat <
        bufferSize
  else if isSubnet ipv4.dst ctx.subnetNet ctx.subnetMask = true then
    isBroadcast ipv4.dst ctx.subnetNet ctx.subnetMask = true ∨
        (ctx.arpFind env.now ipv4.dst).isSome = true →
      etherHeaderLen + ipv4.totalLen < bufferSize
  else
    cmpMac ctx.mac ipv4.ether.dst = true →
      isUdp (raw.plus etherOffEnd) (rawLen - etherOffEnd) = false →
        ∀ output ∈ env.lwipInput (lwipTaken raw rawLen),
          (ctx.arpFind env.now (octetsAt 4 output ipv4OffDst)).isSome = true →
            etherHeaderLen + output.length % 2 ^ 16 < bufferSize

def FrameFits (env : Env) (s : LanPlay) (frame : Bytes) : Prop :=
  let ether := etherAt ⟨.frame, frame, 0⟩ frame.length
  cmpMac ether.src s.packetCtx.mac = false → ether.type = etherTypeIpv4 →
    Ipv4Fits env (s.learned env.now ether.src (ipv4At ether).src) (ipv4At ether)

/-- The frame that is built for an arrival, if any, is shorter than the send buffer. -/
def Arrival.Fits (env : Env) (s : LanPlay) : Arrival → Prop
  | .relay datagram =>
      s.Forwards env.now (octetsAt 4 datagram.packet ipv4OffDst) →
        etherHeaderLen + datagram.packet.length < bufferSize
  | .proxy src _ _ _ data _ =>
      (s.packetCtx.arpFind env.now src).isSome = true →
        etherHeaderLen + ipv4HeaderLen + udpOffEnd + data.length < bufferSize
  | .captured frame _ => FrameFits env s frame

/-! ## One arrival -/

theorem transmits_notTooLarge : Transmits NotTooLarge := by
  constructor <;> intros <;> trivial

theorem fitsOk_notTooLarge (before len : Nat) :
    FitsOk NotTooLarge before len ↔ before + len < bufferSize :=
  not_le

theorem partOk_notTooLarge (before : Nat) (part : Payload) :
    PartOk NotTooLarge before part ↔ before + part.len < bufferSize :=
  (partOk_readable before trivial).trans (fitsOk_notTooLarge before part.len)

theorem relayOk_notTooLarge (uplink : Uplink) (packet : Ptr) (len : Nat) :
    RelayOk NotTooLarge uplink packet len := by
  unfold RelayOk
  split
  · exact ⟨trivial, trivial, fun _ _ _ => trivial⟩
  · trivial

theorem processUdp_notTooLarge (data : Ptr) (dataLen : Int) (s : LanPlay) :
    (processUdp data dataLen).Emits NotTooLarge s := by
  have version : (ipVersion data dataLen).Emits NotTooLarge s := by
    unfold ipVersion
    split
    · exact (Proc.emits_bind _ _).mpr ⟨(emits_readNet8 _ _ _).mpr trivial, Proc.emits_pure _⟩
    · exact Proc.emits_pure _
  unfold processUdp
  rw [Proc.emits_bind]
  refine ⟨version, ?_⟩
  split
  · rw [Proc.emits_bind, emits_readNet8]
    refine ⟨trivial, ?_⟩
    split
    · exact Proc.emits_pure _
    · simp [NotTooLarge]
  · exact Proc.emits_pure _

theorem ipv4Ok_notTooLarge (env : Env) (s : LanPlay) (ipv4 : Ipv4) :
    Ipv4Ok NotTooLarge env s ipv4 ↔ Ipv4Fits env s ipv4 := by
  unfold Ipv4Ok Ipv4Fits
  simp only [IcmpOk, GatewayOk, OutputOk, partOk_notTooLarge, fitsOk_notTooLarge,
    relayOk_notTooLarge, processUdp_notTooLarge, NotTooLarge, true_and]
  split
  · exact Iff.rfl
  · split
    · split
      case isTrue broadcast => simp [broadcast]
      case isFalse unicast => simp [unicast]
    · exact Iff.rfl

/-- The destination of a packet long enough to be refused lies inside it. -/
theorem octetsAt_arrivalPtr (s : LanPlay) (type : UInt8) {packet : Bytes}
    (long : ipv4HeaderLen ≤ packet.length) :
    octetsAt 4 (s.arrivalPtr (type :: packet)).memory
        ((s.arrivalPtr (type :: packet)).offset + ipv4OffDst) =
      octetsAt 4 packet ipv4OffDst := by
  funext index
  have inside : ipv4OffDst + index < packet.length := by
    have below := index.isLt
    simp only [ipv4HeaderLen, ipv4OffDst] at long ⊢
    omega
  have behind : (s.arrivalPtr (type :: packet)).offset + ipv4OffDst + index =
      ipv4OffDst + index + 1 := by
    change 1 + ipv4OffDst + index = _
    omega
  change byteAt (s.arrivalPtr (type :: packet)).memory _ = byteAt packet _
  rw [behind]
  exact byteAt_append_left packet _ _ inside

theorem emits_relay (env : Env) (datagram : Ipv4Datagram) {s : LanPlay}
    (sized : s.packetCtx.bufferLen = bufferSize) :
    ((Arrival.relay datagram).handle env).Emits NotTooLarge s ↔
      (Arrival.relay datagram).Fits env s := by
  obtain ⟨type, packet, ipv4, length⟩ := datagram
  have received : (packet.length + 1) % 2 ^ 16 - 1 = packet.length := by
    simp only [clientRecvBufLen] at length
    omega
  have outcome := receive_outcome env type packet s
  rw [ipv4, received, lanClientDispatch_ipv4] at outcome
  have handled : ((Arrival.relay ⟨type, packet, ipv4, length⟩).handle env).Emits NotTooLarge s ↔
      (lanClientForward env.now (s.arrivalPtr (type :: packet)) packet.length).Emits NotTooLarge
        (s.arrival (type :: packet)) := by
    change (∀ event ∈ (receive env (type :: packet) s).events, NotTooLarge event) ↔ _
    rw [outcome, List.forall_mem_cons]
    refine (and_iff_right trivial).trans ?_
    change (lanClientProcess env.now (s.arrivalPtr (type :: packet)) packet.length).Emits
      NotTooLarge _ ↔ _
    rw [lanClientProcess, Proc.emits_emit_bind]
    exact and_iff_right trivial
  rw [handled, emits_lanClientForward transmits_notTooLarge _ _ _ (by exact sized), partOk_notTooLarge]
  change (packet.length ≠ 0 → True ∧ (s.Forwards env.now _ → _)) ↔ (s.Forwards env.now _ → _)
  by_cases short : etherHeaderLen + packet.length < bufferSize
  · exact iff_of_true (fun _ => ⟨trivial, fun _ => short⟩) fun _ => short
  · simp only [etherHeaderLen, bufferSize] at short
    rw [octetsAt_arrivalPtr s type (by simp only [ipv4HeaderLen]; omega)]
    simp [show packet.length ≠ 0 by omega]

theorem emits_proxy (env : Env) (src : Ip) (srcport : Nat) (fromIp : Ip) (fromPort : Nat)
    (data : Bytes) (short : data.length ≤ 65507) {s : LanPlay}
    (sized : s.packetCtx.bufferLen = bufferSize) :
    ((Arrival.proxy src srcport fromIp fromPort data short).handle env).Emits NotTooLarge s ↔
      (Arrival.proxy src srcport fromIp fromPort data short).Fits env s := by
  have length : data.length % 2 ^ 16 = data.length := Nat.mod_eq_of_lt (by omega)
  unfold Arrival.handle Arrival.Fits directProxyOnData
  rw [Proc.emits_bind, and_iff_left (Proc.emits_pure _),
    emits_sendUdpEx transmits_notTooLarge sized _ _ _ _ _ _ fun _ _ => trivial, fitsOk_notTooLarge,
    length]

/-- The header parsers only read. -/
theorem parse_notTooLarge (packet : Ptr) (len : Nat) (s : LanPlay) :
    (parseEther packet len).Emits NotTooLarge s ∧
      ∀ ether, (parseArp ether).Emits NotTooLarge s ∧ (parseIpv4 ether).Emits NotTooLarge s := by
  simp [parseEther, parseArp, parseIpv4, NotTooLarge]

theorem emits_captured (env : Env) (frame : Bytes) (short : frame.length < 65536) {s : LanPlay}
    (sized : s.packetCtx.bufferLen = bufferSize) :
    ((Arrival.captured frame short).handle env).Emits NotTooLarge s ↔
      (Arrival.captured frame short).Fits env s := by
  unfold Arrival.handle Arrival.Fits FrameFits
  rw [emits_getPacket transmits_notTooLarge env frame sized, forall_prop_of_true short]
  have parsed := parse_notTooLarge ⟨.frame, frame, 0⟩ frame.length (s.captured frame.length)
  simp only [EtherOk, parsed, ipv4Ok_notTooLarge, true_and, implies_true]
  exact Iff.rfl

/-- Any arrival, in any state whose send buffer has its size. -/
theorem Arrival.emits_handle (env : Env) (arrival : Arrival) {s : LanPlay}
    (sized : s.packetCtx.bufferLen = bufferSize) :
    (arrival.handle env).Emits NotTooLarge s ↔ arrival.Fits env s := by
  cases arrival with
  | relay datagram => exact emits_relay env datagram sized
  | proxy src srcport fromIp fromPort data short =>
      exact emits_proxy env src srcport fromIp fromPort data short sized
  | captured frame short => exact emits_captured env frame short sized

/-! ## The buffer keeps its size -/

abbrev KeepsBuffer {α : Type} (m : Proc LanPlay Event α) : Prop :=
  m.Framed (fun s => s.packetCtx.bufferLen) fun _ => True

section Keeps

variable (now : Int)

theorem keepsBuffer_of_core {α : Type} {m : Proc LanPlay Event α}
    (framed : m.Framed LanPlay.core fun _ => True) : KeepsBuffer m :=
  framed.coarsen fun _ _ => LanPlay.core_bufferLen

/-- A computation that only reads. -/
theorem keepsBuffer_of_state {α : Type} {m : Proc LanPlay Event α} (kept : ∀ s, (m s).state = s) :
    KeepsBuffer m :=
  Proc.framed_of_kept fun s => by rw [kept]

theorem sendIpv4Ex_keepsBuffer (src dst : Ip) (protocol : Nat) (part : Payload) :
    ∀ headers : List Bytes,
      KeepsBuffer (sendIpv4Ex now src dst protocol (headers.map Payload.ofBytes ++ [part])) := by
  intro headers
  have sends := sends_anything part.ptr.region
  refine Proc.framed_read.bind fun lanPlay =>
    (Proc.framed_update (by exact fun _ => rfl)).bind fun _ =>
      (keepsBuffer_of_state (calcChecksum_state _ _)).bind fun checksum =>
        (keepsBuffer_of_core (arpGetMacByIp_framed sends now dst)).bind fun found => ?_
  cases found with
  | none => exact Proc.framed_pure _
  | some mac =>
      refine keepsBuffer_of_core (sendEther_framed sends _ _ ?_)
      refine List.forall_mem_cons.mpr ⟨Or.inr rfl, List.forall_mem_append.mpr ⟨?_, ?_⟩⟩
      · exact List.forall_mem_map.mpr fun _ _ => Or.inr rfl
      · exact List.forall_mem_singleton.mpr (Or.inl rfl)

theorem directProxyOnData_keepsBuffer (src : Ip) (srcport : Nat) (fromIp : Ip) (fromPort : Nat)
    (data : Bytes) : KeepsBuffer (directProxyOnData now src srcport fromIp fromPort data) := by
  refine (keepsBuffer_of_state fun s => ?_).bind fun checksum =>
    sendIpv4Ex_keepsBuffer now _ _ _ _ [_]
  simp [calcPayloadChecksum, payloadSum_state]

theorem processIcmp_keepsBuffer (ipv4 : Ipv4) : KeepsBuffer (processIcmp now ipv4) := by
  refine (Proc.framed_emit trivial).bind fun _ => (Proc.framed_emit trivial).bind fun _ =>
    (Proc.framed_emit trivial).bind fun _ => ?_
  refine (keepsBuffer_of_state (calcChecksum_state _ _)).bind fun sum => Proc.Framed.bind ?_
    fun _ => Proc.framed_pure _
  exact Proc.framed_read.bind fun _ => sendIpv4Ex_keepsBuffer now _ _ _ _ []

theorem uvlOutputs_keepsBuffer (outputs : List Bytes) : KeepsBuffer (uvlOutputs now outputs) := by
  induction outputs with
  | nil => exact Proc.framed_pure _
  | cons output rest ih =>
      refine Proc.Framed.bind (Proc.framed_of_kept fun s => ?_) fun _ => ih
      exact LanPlay.core_bufferLen (lanPlayGatewaySendPacket_core now output s)

theorem gatewayOnPacket_keepsBuffer (env : Env) (raw : Ptr) (rawLen : Nat) :
    KeepsBuffer (gatewayOnPacket env raw rawLen) := by
  refine (keepsBuffer_of_state (processUdp_state _ _)).bind fun taken =>
    Proc.framed_ite (Proc.framed_pure _) ?_
  exact (keepsBuffer_of_state fun _ => rfl).bind fun _ =>
    (Proc.framed_emit trivial).bind fun _ => uvlOutputs_keepsBuffer _ _

theorem arpSet_keepsBuffer (mac : Mac) (ip : Ip) : KeepsBuffer (arpSet now mac ip) :=
  Proc.framed_of_kept fun _ => rfl

theorem sendEther_keepsBuffer (dst : Mac) (type : Nat) (part : Payload) :
    KeepsBuffer (sendEther dst type [part]) :=
  Proc.framed_of_kept fun s => LanPlay.core_bufferLen (sendEther_core dst type part s)

theorem processIpv4_keepsBuffer (env : Env) (ether : EtherFrame) :
    KeepsBuffer (processIpv4 env ether) := by
  have relay : ∀ len, KeepsBuffer (onUplink (lanClientSendIpv4 ether.payload len)) := fun _ =>
    Proc.framed_of_kept fun _ => rfl
  refine (keepsBuffer_of_state (parseIpv4_state ether)).bind fun ipv4 =>
    (arpSet_keepsBuffer env.now _ _).bind fun _ => Proc.framed_read.bind fun lanPlay => ?_
  refine Proc.framed_ite (Proc.framed_ite (processIcmp_keepsBuffer _ _) (Proc.framed_pure _))
    (Proc.framed_ite (Proc.framed_ite ?_ ?_) (Proc.framed_ite ?_ (Proc.framed_pure _)))
  · exact (relay _).bind fun _ => sendEther_keepsBuffer _ _ _
  · refine (keepsBuffer_of_state fun _ => rfl).bind fun known => Proc.framed_ite ?_ (relay _)
    refine (keepsBuffer_of_core (arpGetMacByIp_framed (sends_anything .frame) _ _)).bind fun found => ?_
    cases found with
    | none => exact Proc.framed_pure _
    | some mac => exact sendEther_keepsBuffer _ _ _
  · exact (gatewayOnPacket_keepsBuffer env _ _).bind fun _ => Proc.framed_pure _

theorem processArp_keepsBuffer (ether : EtherFrame) : KeepsBuffer (processArp now ether) := by
  refine (keepsBuffer_of_state fun _ => rfl).bind fun arp =>
    Proc.framed_ite (Proc.framed_pure _) ((arpSet_keepsBuffer now _ _).bind fun _ =>
      Proc.framed_ite ?_ (Proc.framed_ite (Proc.framed_pure _) (Proc.framed_pure _)))
  refine Proc.framed_read.bind fun lanPlay => Proc.framed_ite (Proc.framed_ite (Proc.framed_pure _)
    (Proc.framed_ite (Proc.framed_pure _) ?_)) (Proc.framed_pure _)
  exact (keepsBuffer_of_state fun _ => rfl).bind fun known =>
    Proc.framed_ite (Proc.framed_pure _) (sendEther_keepsBuffer _ _ _)

theorem getPacket_keepsBuffer (env : Env) (frame : Bytes) :
    KeepsBuffer (getPacket env frame frame.length) := by
  refine Proc.framed_ite (Proc.framed_pure _) ((Proc.framed_of_kept fun _ => rfl).bind fun _ =>
    Proc.Framed.bind ?_ fun _ => Proc.framed_pure _)
  refine (keepsBuffer_of_state (parseEther_state _ _)).bind fun ether =>
    Proc.framed_read.bind fun lanPlay => ?_
  exact Proc.framed_ite (Proc.framed_pure _) (Proc.framed_ite (processArp_keepsBuffer _ _)
    (Proc.framed_ite (processIpv4_keepsBuffer _ _) (Proc.framed_pure _)))

theorem receive_keepsBuffer (env : Env) {type : UInt8}
    (ipv4 : UInt8.ofNat (type.toNat % 0x80) = lanClientTypeIpv4) (packet : Bytes) :
    KeepsBuffer (receive env (type :: packet)) := by
  refine Proc.framed_of_kept fun s => ?_
  rw [receive_outcome, ipv4, lanClientDispatch_ipv4]
  have forward := lanClientForward_framed env.now
    (sends_anything (s.arrivalPtr (type :: packet)).region) ((packet.length + 1) % 2 ^ 16 - 1)
  have kept := LanPlay.core_bufferLen (forward (s.arrival (type :: packet))).1
  exact kept

theorem Arrival.handle_keepsBuffer (env : Env) (arrival : Arrival) :
    KeepsBuffer (arrival.handle env) := by
  cases arrival with
  | relay datagram => exact receive_keepsBuffer env datagram.ipv4 datagram.packet
  | proxy src srcport fromIp fromPort data _ =>
      exact (directProxyOnData_keepsBuffer env.now _ _ _ _ data).bind fun _ => Proc.framed_pure _
  | captured frame _ => exact getPacket_keepsBuffer env frame

end Keeps

/-! ## Runs -/

/-- In every run of arrivals, the branch of `send_payloads` that ends the
program is not entered exactly when every arrival fits in the state it meets. -/
theorem sendPayloads_never_tooLarge_iff (arrivals : List (Env × Arrival)) (s : LanPlay)
    (sized : s.packetCtx.bufferLen = bufferSize) :
    (Proc.runAll (fun arrival => arrival.2.handle arrival.1) arrivals).Emits NotTooLarge s ↔
      Proc.Along (fun arrival => arrival.2.handle arrival.1)
        (fun state arrival => arrival.2.Fits arrival.1 state) s arrivals := by
  rw [Proc.emits_runAll]
  refine Proc.along_congr (fun state => state.packetCtx.bufferLen = bufferSize) ?_ ?_ arrivals s sized
  · intro state arrival holds
    exact arrival.2.emits_handle arrival.1 holds
  · intro state arrival holds _
    exact (arrival.2.handle_keepsBuffer arrival.1 state).1.trans holds

/-- The client after its start, which sends the first broadcast to all hosts. -/
def started : LanPlay := lanPlayStart 0 none (fun _ => 0) fun _ => 0

/-- A packet to the broadcast address of the subnet. -/
def broadcastPacket (padding : Nat) : Bytes :=
  [0, 0, 0, 0, 0, 0, 0, 0, 0, 0, 0, 0, 0, 0, 0, 0, 10, 13, 255, 255] ++ List.replicate padding 0

theorem length_broadcastPacket (padding : Nat) : (broadcastPacket padding).length = 20 + padding := by
  rw [broadcastPacket, List.length_append, List.length_replicate]
  rfl

theorem sendPayloads_never_tooLarge_broadcast :
    started.packetCtx.bufferLen = bufferSize ∧
      ∀ env : Env,
        (Proc.runAll (fun arrival : Env × Arrival => arrival.2.handle arrival.1)
          [(env, .relay ⟨0x01, broadcastPacket 0, rfl, by decide⟩)]).Emits NotTooLarge started := by
  refine ⟨rfl, fun env => (sendPayloads_never_tooLarge_iff _ started rfl).mpr ⟨fun _ => ?_, trivial⟩⟩
  rw [length_broadcastPacket]
  decide

theorem started_forwards (now : Int) (padding : Nat) :
    started.Forwards now (octetsAt 4 (broadcastPacket padding) ipv4OffDst) := by
  have dst : octetsAt 4 (broadcastPacket padding) ipv4OffDst = octetsAt 4 [10, 13, 255, 255] 0 := by
    funext index
    fin_cases index <;> rfl
  rw [dst, LanPlay.Forwards, if_pos (by decide)]
  exact Or.inl rfl

/-- The first datagram of the relay can end the program: 2035 bytes to the
broadcast address. -/
theorem relay_broadcast_tooLarge :
    ∃ datagram : Ipv4Datagram, datagram.packet.length + 1 = 2035 ∧
      started.packetCtx.bufferLen = bufferSize ∧
        ∀ env, ¬ ((Arrival.relay datagram).handle env).Emits NotTooLarge started := by
  have length := length_broadcastPacket 2014
  refine ⟨⟨0x01, broadcastPacket 2014, rfl, by rw [length]; decide⟩, by rw [length], rfl, ?_⟩
  intro env quiet
  have fits := (emits_relay env _ rfl).mp quiet (started_forwards env.now 2014)
  rw [length] at fits
  exact absurd fits (by decide)

end SwitchLanPlay
