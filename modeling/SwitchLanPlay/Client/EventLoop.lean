import SwitchLanPlay.Client.OwnBytes
import SwitchLanPlay.Lan.Capture
import SwitchLanPlay.Library.Hoare

/-!
# The event loop of the client

Everything the loop wakes the client for: datagrams of the relay, captured
frames, the two timers, data for a flow of the direct proxy, and packets of the
TCP stack.  Of what a run leaves in the `Account`, only two steps change
anything: a frame that is sent, and a datagram that is sent.
-/

namespace SwitchLanPlay

open Library

/-! ## Model -/

abbrev lanClientTypeKeepalive : UInt8 := 0x00

def lanClientSendKeepalive : Proc Uplink Event Int :=
  lanClientSend lanClientTypeKeepalive ⟨.header, [], 0⟩ 0

def lanClientKeepaliveTimer : Proc LanPlay Event Unit := do
  let _ ← onUplink lanClientSendKeepalive
  pure ()

def lanClientRealBroadcastTimer : Proc LanPlay Event Unit :=
  Proc.update fun lanPlay => { lanPlay with nextRealBroadcast := true }

def packetSetMac (mac : Mac) : Proc LanPlay Event Unit :=
  Proc.update fun lanPlay => { lanPlay with packetCtx.mac := mac }

/-- `lan_play_pcap_handler`, with the address of the interface that captured the frame. -/
def lanPlayPcapHandler (env : Env) (memory : Bytes) (len : Nat) (mac : Mac) : Proc LanPlay Event Unit := do
  packetSetMac mac
  getPacket env memory len

inductive LoopInput where
  | datagram (env : Env) (datagram : RelayDatagram)
  | frame (env : Env) (memory : Bytes) (len : Nat) (mac : Mac)
  | keepaliveTimer
  | realBroadcastTimer
  | proxyData (now : Int) (src : Ip) (srcport : Nat) (fromIp : Ip) (fromPort : Nat) (data : Bytes)
  | stackOutput (now : Int) (packet : Bytes)

def loopStep : LoopInput → Proc LanPlay Event Unit
  | .datagram env datagram => receive env datagram.bytes
  | .frame env memory len mac => lanPlayPcapHandler env memory len mac
  | .keepaliveTimer => lanClientKeepaliveTimer
  | .realBroadcastTimer => lanClientRealBroadcastTimer
  | .proxyData now src srcport fromIp fromPort data => do
      let _ ← directProxyOnData now src srcport fromIp fromPort data
      pure ()
  | .stackOutput now packet => do
      let _ ← lanPlayGatewaySendPacket now packet
      pure ()

/-! ## What runs account for -/

structure Tally where
  uploadByte : Nat
  uploadPacket : Nat
  downloadByte : Nat
  downloadPacket : Nat

/-- One more packet of the given size, on 64-bit counters. -/
def Tally.up (tally : Tally) (size : Nat) : Tally :=
  { tally with
    uploadByte := (tally.uploadByte + size) % 2 ^ 64
    uploadPacket := (tally.uploadPacket + 1) % 2 ^ 64 }

def Tally.down (tally : Tally) (size : Nat) : Tally :=
  { tally with
    downloadByte := (tally.downloadByte + size) % 2 ^ 64
    downloadPacket := (tally.downloadPacket + 1) % 2 ^ 64 }

/-- The part of the state that handlers change only by sending and receiving. -/
structure Account where
  username : Option Bytes
  key : Octets 20
  sendResults : Nat → Int
  client : Tally
  packet : Tally

def LanPlay.account (s : LanPlay) : Account where
  username := s.username
  key := s.key
  sendResults := s.uplink.sendResults
  client := ⟨s.uplink.uploadByte, s.uplink.uploadPacket, s.downloadByte, s.downloadPacket⟩
  packet := ⟨s.packetCtx.uploadByte, s.packetCtx.uploadPacket, s.packetCtx.downloadByte,
    s.packetCtx.downloadPacket⟩

def Account.sentFrame (account : Account) (size : Nat) : Account := { account with packet := account.packet.up size }

/-- A call of `lan_client_send_raw` is counted whether or not it succeeds. -/
def Account.sentDatagram (account : Account) (size : Nat) : Account :=
  { account with
    sendResults := fun call => account.sendResults (call + 1)
    client := account.client.up size }

/-- What the arrival of an input is counted as.  `get_packet` refuses frames of
65536 bytes and more. -/
def LoopInput.counted (input : LoopInput) (account : Account) : Account :=
  match input with
  | .datagram _ arrived => { account with client := account.client.down arrived.bytes.length }
  | .frame _ _ len _ => if len ≥ 65536 then account else { account with packet := account.packet.down len }
  | _ => account

/-- The packet of a login request, as the handler finds it behind the type byte. -/
def RelayDatagram.Asks (datagram : RelayDatagram) : Prop := datagram.type = lanClientTypeAuthMe

/-- Neither a frame nor a datagram. -/
def Event.Silent : Event → Prop
  | .sendPacket _ | .datagram _ => False
  | _ => True

/-- A relation between account and trace that survives the steps of every handler
that sends only datagrams of allowed types. -/
structure Upheld (allowed : UInt8 → Prop) (J : Account → List Event → Prop) : Prop where
  silent : ∀ account past event, event.Silent → J account past → J account (past ++ [event])
  frame : ∀ account past bytes, J account past →
    J (account.sentFrame bytes.length) (past ++ [.sendPacket bytes])
  datagram : ∀ account past type rest, allowed type → J account past →
    J (account.sentDatagram (rest.length + 1))
      (past ++ if account.sendResults 0 = 0 then [.datagram (type :: rest)] else [])

/-- The relation on the whole state. -/
def Within (J : Account → List Event → Prop) (s : LanPlay) (past : List Event) : Prop := J s.account past

/-! ## Handlers, one step at a time -/

section Lookups

variable {J : LanPlay → List Event → Prop}

theorem stable_arpHasIp (now : Int) (ip : Ip) : (arpHasIp now ip).Stable J :=
  Proc.stable_read.bind fun _ => Proc.stable_pure _

theorem stable_arpForEachFrom (now : Int) {cb : ArpItem → Proc LanPlay Event Int}
    (each : ∀ item, (cb item).Stable J) (slots : List (Fin arpCacheLen)) :
    (arpForEachFrom now cb slots).Stable J := by
  induction slots with
  | nil => exact Proc.stable_pure _
  | cons i rest ih =>
    unfold arpForEachFrom
    refine Proc.stable_read.bind fun lanPlay => Proc.stable_ite ?_ ih
    exact (each _).bind fun _ => Proc.stable_ite (Proc.stable_pure _) ih

end Lookups

section Steps

variable {allowed : UInt8 → Prop} {J : Account → List Event → Prop} (upheld : Upheld allowed J)

include upheld

theorem Upheld.silentAll {account : Account} {events : List Event} (silent : ∀ event ∈ events, event.Silent)
    {past : List Event} (holds : J account past) : J account (past ++ events) := by
  induction events generalizing past with
  | nil => rwa [List.append_nil]
  | cons event rest ih =>
    obtain ⟨first, others⟩ := List.forall_mem_cons.mp silent
    have later := ih others (upheld.silent account past event first holds)
    rwa [List.append_assoc] at later

/-- A computation that leaves the state alone and performs silent events only. -/
theorem Upheld.quiet {α : Type} {m : Proc LanPlay Event α} (kept : ∀ s, (m s).state.account = s.account)
    (silent : ∀ s, m.Emits Event.Silent s) : m.Stable (Within J) := by
  intro s past holds
  have account : J (m s).state.account past := (kept s).symm ▸ holds
  exact upheld.silentAll (silent s) account

theorem Upheld.load {α : Type} {m : Proc LanPlay Event α} (kept : ∀ s, (m s).state = s)
    (silent : ∀ s, m.Emits Event.Silent s) : m.Stable (Within J) :=
  upheld.quiet (fun s => congrArg LanPlay.account (kept s)) silent

theorem Upheld.update {f : LanPlay → LanPlay} (kept : ∀ s, (f s).account = s.account) :
    (Proc.update f).Stable (Within J) :=
  upheld.quiet kept fun _ => Proc.emits_update f

theorem Upheld.emit {event : Event} (silent : event.Silent) : (Proc.emit event).Stable (Within J) :=
  upheld.load (fun _ => rfl) fun _ => (Proc.emits_emit event).mpr silent

/-! ### Reading -/

theorem Upheld.loadBytes (pointer : Ptr) (size : Nat) : (loadBytes pointer size).Stable (Within J) :=
  upheld.load (fun _ => rfl) fun s => (emits_loadBytes pointer s size).mpr trivial

theorem Upheld.readNet8 (pointer : Ptr) (offset : Nat) : (readNet8 pointer offset).Stable (Within J) :=
  upheld.load (fun _ => rfl) fun s => (emits_readNet8 pointer offset s).mpr trivial

theorem Upheld.readNet16 (pointer : Ptr) (offset : Nat) : (readNet16 pointer offset).Stable (Within J) :=
  upheld.load (fun _ => rfl) fun s => (emits_readNet16 pointer offset s).mpr trivial

theorem Upheld.cpyIpv4 (pointer : Ptr) : (cpyIpv4 pointer).Stable (Within J) :=
  upheld.load (fun _ => rfl) fun s => (emits_cpyIpv4 pointer s).mpr trivial

theorem Upheld.calcChecksum (buffer : Ptr) (len : Int) : (calcChecksum buffer len).Stable (Within J) :=
  upheld.load (calcChecksum_state buffer len) fun s => emits_calcChecksum buffer len s fun _ _ => trivial

theorem Upheld.calcPayloadChecksum (chain : List Payload) : (calcPayloadChecksum chain).Stable (Within J) :=
  Proc.Stable.bind (upheld.load (fun s => payloadSum_state s chain 0) fun s =>
    emits_payloadSum s chain (fun _ _ _ _ => trivial) 0) fun _ => Proc.stable_pure _

/-! ### Frames -/

theorem Upheld.copyParts (bufferLen : Nat) (chain : List Payload) :
    ∀ offset, (copyParts bufferLen offset chain).Stable (Within J) := by
  induction chain with
  | nil => exact fun _ => Proc.stable_pure _
  | cons part rest ih =>
    intro offset
    unfold SwitchLanPlay.copyParts
    refine Proc.stable_ite ?_ ?_
    · exact (upheld.emit (by exact trivial)).bind fun _ => Proc.stable_pure _
    · exact (upheld.loadBytes _ _).bind fun _ => (ih _).bind fun _ => Proc.stable_pure _

theorem Upheld.sendPayloads (chain : List Payload) : (sendPayloads chain).Stable (Within J) := by
  unfold SwitchLanPlay.sendPayloads
  refine Proc.stable_read.bind fun lanPlay => (upheld.copyParts _ _ _).bind fun copied => ?_
  cases copied with
  | none => exact Proc.stable_pure _
  | some bytes =>
    -- the counters move and the frame leaves in one step of the relation
    intro s past holds
    have sent := upheld.frame s.account past (bytes.take (bytes.length % 2 ^ 16)) holds
    rw [List.length_take_of_le (Nat.mod_le _ _)] at sent
    exact sent

theorem Upheld.sendEther (dst : Mac) (type : Nat) (chain : List Payload) :
    (sendEther dst type chain).Stable (Within J) :=
  Proc.stable_read.bind fun _ => upheld.sendPayloads _

theorem Upheld.sendArpRequest (ip : Ip) : (sendArpRequest ip).Stable (Within J) :=
  Proc.stable_read.bind fun _ => upheld.sendEther _ _ _

theorem Upheld.arpGetMacByIp (now : Int) (ip : Ip) : (arpGetMacByIp now ip).Stable (Within J) := by
  unfold SwitchLanPlay.arpGetMacByIp
  refine Proc.stable_read.bind fun lanPlay => ?_
  cases lanPlay.packetCtx.arpFind now ip with
  | some i => exact Proc.stable_pure _
  | none => exact (upheld.sendArpRequest ip).bind fun _ => Proc.stable_pure _

theorem Upheld.arpSet (now : Int) (mac : Mac) (ip : Ip) : (arpSet now mac ip).Stable (Within J) :=
  Proc.stable_read.bind fun _ => (upheld.update (by exact fun _ => rfl)).bind fun _ => Proc.stable_pure _

/-- Look a host up and send to it if it is known. -/
theorem Upheld.toHost (now : Int) (ip : Ip) (type : Nat) (chain : List Payload) :
    ((SwitchLanPlay.arpGetMacByIp now ip >>= fun found =>
      match found with
      | none => pure 0
      | some mac => SwitchLanPlay.sendEther mac type chain : Proc LanPlay Event Int)).Stable (Within J) := by
  refine (upheld.arpGetMacByIp now ip).bind fun found => ?_
  cases found with
  | none => exact Proc.stable_pure _
  | some mac => exact upheld.sendEther mac type chain

theorem Upheld.sendIpv4Ex (now : Int) (src dst : Ip) (protocol : Nat) (chain : List Payload) :
    (sendIpv4Ex now src dst protocol chain).Stable (Within J) := by
  unfold SwitchLanPlay.sendIpv4Ex
  refine Proc.stable_read.bind fun lanPlay => (upheld.update (by exact fun _ => rfl)).bind fun _ => ?_
  exact (upheld.calcChecksum _ _).bind fun _ => upheld.toHost now dst _ _

theorem Upheld.sendUdpEx (now : Int) (src : Ip) (srcport : Nat) (dst : Ip) (dstport : Nat)
    (chain : List Payload) : (sendUdpEx now src srcport dst dstport chain).Stable (Within J) := by
  exact (upheld.calcPayloadChecksum _).bind fun _ => upheld.sendIpv4Ex _ _ _ _ _

/-! ### Datagrams -/

omit upheld in
theorem lanClientSendRaw_outcome {bufs : List Payload} (nonempty : (bufs.map Payload.len).sum ≠ 0) (uplink : Uplink) :
    lanClientSendRaw bufs uplink =
      ⟨uplink.sendResults 0,
        { uplink with
          sendResults := fun call => uplink.sendResults (call + 1)
          uploadPacket := (uplink.uploadPacket + 1) % 2 ^ 64
          uploadByte := (uplink.uploadByte + (bufs.map Payload.len).sum) % 2 ^ 64 },
        (bufs.map fun part => Event.load part.ptr.region part.ptr.offset part.len) ++
          if uplink.sendResults 0 = 0 then [.datagram (bufs.map Payload.bytes).flatten] else []⟩ := by
  apply Outcome.ext <;> simp [lanClientSendRaw, nonempty, uvUdpSend_outcome]

omit upheld in
theorem length_flatten_bytes (bufs : List Payload) :
    (bufs.map Payload.bytes).flatten.length = (bufs.map Payload.len).sum := by
  induction bufs with
  | nil => rfl
  | cons part rest ih =>
    rw [List.map_cons, List.flatten_cons, List.length_append, ih, List.map_cons, List.sum_cons, Payload.bytes,
      length_slice]

/-- The relation, seen from a sender that works on the uplink of `whole`. -/
def Around (J : Account → List Event → Prop) (whole : LanPlay) (uplink : Uplink) (past : List Event) : Prop :=
  Within J { whole with uplink := uplink } past

theorem Upheld.sendRaw (whole : LanPlay) {type : UInt8} (ok : allowed type) (bufs : List Payload) :
    (lanClientSendRaw (.ofBytes [type] :: bufs)).Stable (Around J whole) := by
  intro uplink past holds
  have total : ((Payload.ofBytes [type] :: bufs).map Payload.len).sum = (bufs.map Payload.bytes).flatten.length + 1 := by
    rw [length_flatten_bytes, List.map_cons, List.sum_cons, Nat.add_comm]
    rfl
  have bytes : ((Payload.ofBytes [type] :: bufs).map Payload.bytes).flatten =
      type :: (bufs.map Payload.bytes).flatten := by
    rw [List.map_cons, List.flatten_cons, Payload.bytes_ofBytes, List.singleton_append]
  have loads : ∀ event ∈ ((Payload.ofBytes [type] :: bufs).map fun part =>
      Event.load part.ptr.region part.ptr.offset part.len), event.Silent := by
    intro event member
    obtain ⟨part, -, rfl⟩ := List.mem_map.mp member
    trivial
  rw [lanClientSendRaw_outcome (by rw [total]; exact Nat.succ_ne_zero _), total, bytes]
  have sent := upheld.datagram _ _ type (bufs.map Payload.bytes).flatten ok (upheld.silentAll loads holds)
  rw [List.append_assoc] at sent
  exact sent

theorem Upheld.cpyIpv4_around (whole : LanPlay) (pointer : Ptr) :
    (SwitchLanPlay.cpyIpv4 pointer).Stable (Around J whole) := by
  intro uplink past holds
  exact upheld.silent _ past _ (by exact trivial) holds

theorem Upheld.sendParts (whole : LanPlay) (ok : allowed lanClientTypeIpv4Frag) (packet : Ptr) (len pmtu : Nat)
    (positive : 0 < pmtu) (header : LanClientFragmentHeader) (i pos : Nat) :
    (sendParts packet len pmtu positive header i pos).Stable (Around J whole) := by
  fun_induction SwitchLanPlay.sendParts packet len pmtu positive header i pos with
  | case1 i pos more partLen ih =>
    refine (upheld.sendRaw whole ok _).bind fun ret => Proc.stable_ite (Proc.stable_pure _) ih
  | case2 => exact Proc.stable_pure _

theorem Upheld.send (whole : LanPlay) {type : UInt8} (ok : allowed type)
    (parts : type = lanClientTypeIpv4 → allowed lanClientTypeIpv4Frag) (packet : Ptr) (len : Nat) :
    (lanClientSend type packet len).Stable (Around J whole) := by
  unfold lanClientSend
  refine Proc.stable_read.bind fun uplink => ?_
  split
  case isTrue fragmenting =>
    have counted : (Proc.update fun uplink : Uplink => { uplink with fragId := (uplink.fragId + 1) % 2 ^ 32 }).Stable
        (Around J whole) := by
      intro inner past holds
      rw [Proc.update_events, List.append_nil]
      exact holds
    refine counted.bind fun _ => (upheld.cpyIpv4_around whole _).bind fun src => ?_
    refine (upheld.cpyIpv4_around whole _).bind fun dst => ?_
    exact upheld.sendParts whole (parts fragmenting.1) _ _ _ _ _ _ _
  case isFalse => exact upheld.sendRaw whole ok _

theorem Upheld.onUplink {type : UInt8} (ok : allowed type)
    (parts : type = lanClientTypeIpv4 → allowed lanClientTypeIpv4Frag) (packet : Ptr) (len : Nat) :
    (onUplink (lanClientSend type packet len)).Stable (Within J) :=
  Proc.stable_zoom (fun _ => rfl) fun whole => upheld.send whole ok parts packet len

/-! ### Captured frames -/

theorem Upheld.processArp (now : Int) (ether : EtherFrame) : (processArp now ether).Stable (Within J) := by
  have parsed : (parseArp ether).Stable (Within J) := upheld.load (fun _ => rfl) fun s => by
    simp [parseArp, Event.Silent]
  unfold SwitchLanPlay.processArp
  refine parsed.bind fun arp => Proc.stable_ite (Proc.stable_pure _) ?_
  refine (upheld.arpSet _ _ _).bind fun _ => Proc.stable_ite ?_ (Proc.stable_ite (Proc.stable_pure _) (Proc.stable_pure _))
  unfold arpRequest
  refine Proc.stable_read.bind fun lanPlay => Proc.stable_ite (Proc.stable_ite (Proc.stable_pure _) ?_) (Proc.stable_pure _)
  refine Proc.stable_ite (Proc.stable_pure _) ((stable_arpHasIp _ _).bind fun known => ?_)
  exact Proc.stable_ite (Proc.stable_pure _) (upheld.sendEther _ _ _)

theorem Upheld.processIcmp (now : Int) (ipv4 : Ipv4) : (processIcmp now ipv4).Stable (Within J) := by
  unfold SwitchLanPlay.processIcmp
  refine (upheld.emit (by exact trivial)).bind fun _ => (upheld.emit (by exact trivial)).bind fun _ => ?_
  refine (upheld.emit (by exact trivial)).bind fun _ => (upheld.calcChecksum _ _).bind fun sum => ?_
  refine Proc.Stable.bind ?_ fun _ => Proc.stable_pure _
  exact Proc.stable_read.bind fun _ => upheld.sendIpv4Ex _ _ _ _ _

theorem Upheld.gatewaySendPacket (now : Int) (packet : Bytes) :
    (lanPlayGatewaySendPacket now packet).Stable (Within J) :=
  (upheld.cpyIpv4 _).bind fun dst => upheld.toHost now dst _ _

theorem Upheld.uvlOutputs (now : Int) (packets : List Bytes) : (uvlOutputs now packets).Stable (Within J) := by
  induction packets with
  | nil => exact Proc.stable_pure _
  | cons packet rest ih => exact (upheld.gatewaySendPacket now packet).bind fun _ => ih

theorem Upheld.processUdp (data : Ptr) (dataLen : Int) : (processUdp data dataLen).Stable (Within J) := by
  have version : (ipVersion data dataLen).Stable (Within J) :=
    Proc.stable_ite ((upheld.readNet8 _ _).bind fun _ => Proc.stable_pure _) (Proc.stable_pure _)
  unfold SwitchLanPlay.processUdp
  refine version.bind fun version => Proc.stable_ite ?_ (Proc.stable_pure _)
  refine (upheld.readNet8 _ _).bind fun protocol => Proc.stable_ite (Proc.stable_pure _) ?_
  refine (upheld.readNet8 _ _).bind fun verLen => (upheld.cpyIpv4 _).bind fun src => ?_
  refine (upheld.cpyIpv4 _).bind fun dst => (upheld.readNet16 _ _).bind fun srcport => ?_
  refine (upheld.readNet16 _ _).bind fun dstport => (upheld.emit (by exact trivial)).bind fun _ => ?_
  refine (upheld.loadBytes _ _).bind fun payload => (upheld.emit (by exact trivial)).bind fun _ => ?_
  exact Proc.stable_pure _

theorem Upheld.gatewayOnPacket (env : Env) (raw : Ptr) (rawLen : Nat) :
    (gatewayOnPacket env raw rawLen).Stable (Within J) := by
  unfold SwitchLanPlay.gatewayOnPacket
  refine (upheld.processUdp _ _).bind fun taken => Proc.stable_ite (Proc.stable_pure _) ?_
  refine (upheld.loadBytes _ _).bind fun packet => (upheld.emit (by exact trivial)).bind fun _ => ?_
  exact upheld.uvlOutputs _ _

variable (whole : allowed lanClientTypeIpv4) (part : allowed lanClientTypeIpv4Frag)

include whole part

theorem Upheld.processIpv4 (env : Env) (ether : EtherFrame) : (processIpv4 env ether).Stable (Within J) := by
  have parsed : (parseIpv4 ether).Stable (Within J) := upheld.load (fun _ => rfl) fun s => by
    simp [parseIpv4, Event.Silent]
  have relayed : ∀ packet len, (SwitchLanPlay.onUplink (lanClientSendIpv4 packet len)).Stable (Within J) :=
    upheld.onUplink whole fun _ => part
  unfold SwitchLanPlay.processIpv4
  refine parsed.bind fun ipv4 => (upheld.arpSet _ _ _).bind fun _ => Proc.stable_read.bind fun lanPlay => ?_
  refine Proc.stable_ite (Proc.stable_ite (upheld.processIcmp _ _) (Proc.stable_pure _)) ?_
  refine Proc.stable_ite (Proc.stable_ite ?_ ?_) ?_
  · exact (relayed _ _).bind fun _ => upheld.sendEther _ _ _
  · refine (stable_arpHasIp _ _).bind fun known => Proc.stable_ite ?_ (relayed _ _)
    refine (upheld.arpGetMacByIp _ _).bind fun found => ?_
    cases found with
    | none => exact Proc.stable_pure _
    | some mac => exact upheld.sendEther _ _ _
  · exact Proc.stable_ite ((upheld.gatewayOnPacket _ _ _).bind fun _ => Proc.stable_pure _) (Proc.stable_pure _)

theorem Upheld.processEther (env : Env) (packet : Ptr) (len : Nat) :
    (processEther env packet len).Stable (Within J) := by
  have parsed : (parseEther packet len).Stable (Within J) := upheld.load (fun _ => rfl) fun s => by
    simp [parseEther, Event.Silent]
  unfold SwitchLanPlay.processEther
  refine parsed.bind fun ether => Proc.stable_read.bind fun lanPlay => Proc.stable_ite (Proc.stable_pure _) ?_
  refine Proc.stable_ite (upheld.processArp _ _) (Proc.stable_ite ?_ (Proc.stable_pure _))
  exact upheld.processIpv4 whole part env ether

omit whole part

/-! ### Datagrams of the relay -/

theorem Upheld.forward (now : Int) (packet : Ptr) (len : Nat) : (lanClientForward now packet len).Stable (Within J) := by
  have each : ∀ item, (lanClientArpForEachCb packet len item).Stable (Within J) := fun item =>
    (upheld.sendEther item.mac _ _).bind fun _ => Proc.stable_pure _
  unfold lanClientForward
  refine Proc.stable_ite (Proc.stable_pure _) (Proc.stable_read.bind fun lanPlay => ?_)
  refine (upheld.cpyIpv4 _).bind fun dst => Proc.stable_ite ?_ (upheld.toHost now dst _ _)
  unfold lanClientOnBroadcast
  refine Proc.stable_read.bind fun lanPlay => Proc.stable_ite ?_ ?_
  · exact (upheld.update (by exact fun _ => rfl)).bind fun _ => upheld.sendEther _ _ _
  · exact (stable_arpForEachFrom now each _).bind fun _ => Proc.stable_pure _

theorem Upheld.process (now : Int) (packet : Ptr) (len : Nat) : (lanClientProcess now packet len).Stable (Within J) :=
  (upheld.emit (by exact trivial)).bind fun _ => upheld.forward now packet len

theorem Upheld.processFrag (now : Int) (packet : Ptr) (len : Nat) :
    (lanClientProcessFrag now packet len).Stable (Within J) := by
  have header : (readHeader packet).Stable (Within J) := upheld.load (fun _ => rfl) fun s => by
    simp [readHeader, Event.Silent]
  unfold lanClientProcessFrag
  refine header.bind fun header => Proc.stable_read.bind fun lanPlay => ?_
  split
  case h_1 => exact (upheld.emit (by exact trivial)).bind fun _ => Proc.stable_pure _
  case h_2 i table found =>
    refine (upheld.loadBytes _ _).bind fun payload => (upheld.emit (by exact trivial)).bind fun _ => ?_
    unfold finishFragment
    refine Proc.stable_ite ?_ ?_
    · exact (upheld.update (by exact fun _ => rfl)).bind fun _ => upheld.process _ _ _
    · exact (upheld.update (by exact fun _ => rfl)).bind fun _ => Proc.stable_pure _

/-- All handlers but the one that answers a login request. -/
theorem Upheld.dispatch (env : Env) (type : UInt8) (packet : Ptr) (len : Nat)
    (login : type = lanClientTypeAuthMe → (lanClientProcessAuthMe env.sha1 packet len).Stable (Within J)) :
    (lanClientDispatch env type packet len).Stable (Within J) := by
  unfold lanClientDispatch
  refine Proc.stable_ite ((upheld.process _ _ _).bind fun _ => Proc.stable_pure _) ?_
  refine Proc.stable_ite ((upheld.processFrag _ _ _).bind fun _ => Proc.stable_pure _) ?_
  by_cases asked : type = lanClientTypeAuthMe
  · rw [if_pos asked]
    exact login asked
  · rw [if_neg asked]
    refine Proc.stable_ite ?_ (Proc.stable_pure _)
    exact (upheld.loadBytes _ _).bind fun _ => upheld.emit (by exact trivial)

theorem Upheld.received (env : Env) (datagram : RelayDatagram) {s : LanPlay} {past : List Event}
    (login : datagram.Asks → (lanClientProcessAuthMe env.sha1 (s.arrivalPtr datagram.bytes)
      (datagram.bytes.length - 1)).Stable (Within J))
    (holds : J ((LoopInput.datagram env datagram).counted s.account) past) :
    J (receive env datagram.bytes s).state.account (past ++ (receive env datagram.bytes s).events) := by
  have arrived : J (s.arrival datagram.bytes).account past := by
    have counted : (s.arrival datagram.bytes).account =
        { s.account with client := s.account.client.down (datagram.bytes.length % 2 ^ 16) } := rfl
    rw [counted, Nat.mod_eq_of_lt (lt_of_le_of_lt datagram.fits (by decide))]
    exact holds
  -- the type is read, then the handler of the type runs
  have read := upheld.silent _ past (.load .clientBuf 0 1) trivial arrived
  have handled := upheld.dispatch env datagram.type _ _ login _ _ read
  change J (recvStep (env, datagram) s).state.account (past ++ (recvStep (env, datagram) s).events)
  rw [recvStep_outcome, List.append_cons]
  exact handled

variable (keepalive : allowed lanClientTypeKeepalive) (whole : allowed lanClientTypeIpv4)
  (part : allowed lanClientTypeIpv4Frag)

include whole part

theorem Upheld.captured (env : Env) (memory : Bytes) (len : Nat) (mac : Mac) {s : LanPlay} {past : List Event}
    (holds : J ((LoopInput.frame env memory len mac).counted s.account) past) :
    J (lanPlayPcapHandler env memory len mac s).state.account
      (past ++ (lanPlayPcapHandler env memory len mac s).events) := by
  unfold lanPlayPcapHandler getPacket
  unfold LoopInput.counted at holds
  by_cases large : len ≥ 65536
  · simp only [if_pos large] at holds ⊢
    exact upheld.update (by exact fun _ => rfl) s past holds
  · simp only [if_neg large] at holds ⊢
    have handled := upheld.processEther whole part env ⟨.frame, memory, 0⟩ len
    exact (handled.bind fun _ => Proc.stable_pure ()) (({ s with packetCtx.mac := mac } : LanPlay).captured len) past holds

include keepalive

/-- What holds once the arrival of an input is counted still holds when its handler is done. -/
theorem Upheld.step (input : LoopInput) {s : LanPlay} {past : List Event}
    (login : ∀ env datagram, input = .datagram env datagram → datagram.Asks →
      (lanClientProcessAuthMe env.sha1 (s.arrivalPtr datagram.bytes) (datagram.bytes.length - 1)).Stable (Within J))
    (holds : J (input.counted s.account) past) :
    J (loopStep input s).state.account (past ++ (loopStep input s).events) := by
  cases input with
  | datagram env datagram => exact upheld.received env datagram (login env datagram rfl) holds
  | frame env memory len mac => exact upheld.captured whole part env memory len mac holds
  | keepaliveTimer =>
    have sends := upheld.onUplink keepalive (fun same => absurd same (by decide)) ⟨.header, [], 0⟩ 0
    exact (sends.bind fun _ => Proc.stable_pure ()) s past holds
  | realBroadcastTimer => exact upheld.update (by exact fun _ => rfl) s past holds
  | proxyData now src srcport fromIp fromPort data =>
    exact ((upheld.sendUdpEx _ _ _ _ _ _).bind fun _ => Proc.stable_pure ()) s past holds
  | stackOutput now packet =>
    exact ((upheld.gatewaySendPacket now packet).bind fun _ => Proc.stable_pure ()) s past holds

end Steps

end SwitchLanPlay
