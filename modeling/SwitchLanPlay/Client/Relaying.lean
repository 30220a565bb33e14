import SwitchLanPlay.Client.EventLoop
import SwitchLanPlay.Client.ExactDelivery
import SwitchLanPlay.Lan.Checksum
import SwitchLanPlay.Lan.Footprint

/-!
# What a client hands to the relay

A captured frame can do two things that outlast its handler: its sender becomes
known, and its packet goes to the relay.  Everything else that `process_ether`
does stays on the local network.
-/

namespace SwitchLanPlay

open Library SlotTable

/-! ## Handlers that stay on the local network -/

/-- Neither a datagram for the relay nor a packet from it. -/
def Event.Local : Event → Prop
  | .datagram _ | .process _ _ => False
  | _ => True

theorem datagrams_eq_nil {events : List Event} (stays : ∀ event ∈ events, event.Local) : datagrams events = [] := by
  refine List.filterMap_eq_nil_iff.mpr fun event member => ?_
  cases event with
  | datagram bytes => cases stays _ member
  | _ => rfl

theorem deliveries_eq_nil_of_local {events : List Event} (stays : ∀ event ∈ events, event.Local) :
    deliveries events = [] := by
  refine List.filterMap_eq_nil_iff.mpr fun event member => ?_
  cases event with
  | process packet len => cases stays _ member
  | _ => rfl

theorem local_sends (region : Region) : Sends Event.Local region := by
  constructor <;> intros <;> trivial

abbrev StaysLocal {α : Type} (m : Proc LanPlay Event α) : Prop := m.Framed LanPlay.core Event.Local

section Local

variable (now : Int)

theorem staysLocal_of_reads {α : Type} {m : Proc LanPlay Event α} (kept : ∀ s, (m s).state = s)
    (reads : ∀ s, m.Emits Event.Local s) : StaysLocal m :=
  fun s => ⟨congrArg LanPlay.core (kept s), reads s⟩

theorem staysLocal_sendEther (dst : Mac) (type : Nat) (part : Payload) (headers : List Bytes) :
    StaysLocal (sendEther dst type (headers.map Payload.ofBytes ++ [part])) := by
  refine sendEther_framed (local_sends part.ptr.region) dst type (List.forall_mem_append.mpr ⟨?_, ?_⟩)
  · exact List.forall_mem_map.mpr fun _ _ => .inr rfl
  · exact List.forall_mem_singleton.mpr (.inl rfl)

theorem staysLocal_toHost (ip : Ip) (type : Nat) (part : Payload) (headers : List Bytes) :
    StaysLocal (arpGetMacByIp now ip >>= fun found =>
      match found with
      | none => pure 0
      | some mac => sendEther mac type (headers.map Payload.ofBytes ++ [part]) : Proc LanPlay Event Int) := by
  refine (arpGetMacByIp_framed (local_sends .header) now ip).bind fun found => ?_
  cases found with
  | none => exact Proc.framed_pure _
  | some mac => exact staysLocal_sendEther mac type part headers

theorem staysLocal_calcChecksum (buffer : Ptr) (len : Int) : StaysLocal (calcChecksum buffer len) :=
  staysLocal_of_reads (calcChecksum_state buffer len) fun s => emits_calcChecksum buffer len s fun _ _ => trivial

theorem staysLocal_sendIpv4Ex (src dst : Ip) (protocol : Nat) (part : Payload) (headers : List Bytes) :
    StaysLocal (sendIpv4Ex now src dst protocol (headers.map Payload.ofBytes ++ [part])) := by
  refine Proc.framed_read.bind fun lanPlay => (Proc.framed_update (by exact fun _ => rfl)).bind fun _ => ?_
  exact (staysLocal_calcChecksum _ _).bind fun _ => staysLocal_toHost now dst _ part (_ :: headers)

theorem staysLocal_directProxyOnData (src : Ip) (srcport : Nat) (fromIp : Ip) (fromPort : Nat) (data : Bytes) :
    StaysLocal (directProxyOnData now src srcport fromIp fromPort data) := by
  refine Proc.Framed.bind ?_ fun checksum => staysLocal_sendIpv4Ex now _ _ _ _ [_]
  refine Proc.Framed.bind (staysLocal_of_reads (fun s => payloadSum_state s _ 0) fun s => ?_) fun _ =>
    Proc.framed_pure _
  exact emits_payloadSum s _ (fun _ _ _ _ => trivial) 0

theorem staysLocal_processIcmp (ipv4 : Ipv4) : StaysLocal (processIcmp now ipv4) := by
  refine (Proc.framed_emit (by exact trivial)).bind fun _ => (Proc.framed_emit (by exact trivial)).bind fun _ => ?_
  refine (Proc.framed_emit (by exact trivial)).bind fun _ => (staysLocal_calcChecksum _ _).bind fun sum => ?_
  refine Proc.Framed.bind ?_ fun _ => Proc.framed_pure _
  exact Proc.framed_read.bind fun _ => staysLocal_sendIpv4Ex now _ _ _ _ []

theorem staysLocal_gatewaySendPacket (packet : Bytes) : StaysLocal (lanPlayGatewaySendPacket now packet) :=
  (cpyIpv4_framed (by exact trivial)).bind fun dst => staysLocal_toHost now dst _ _ []

theorem staysLocal_uvlOutputs (packets : List Bytes) : StaysLocal (uvlOutputs now packets) := by
  induction packets with
  | nil => exact Proc.framed_pure _
  | cons packet rest ih => exact (staysLocal_gatewaySendPacket now packet).bind fun _ => ih

theorem staysLocal_readNet8 (pointer : Ptr) (offset : Nat) : StaysLocal (readNet8 pointer offset) :=
  staysLocal_of_reads (fun _ => rfl) fun s => (emits_readNet8 pointer offset s).mpr trivial

theorem staysLocal_readNet16 (pointer : Ptr) (offset : Nat) : StaysLocal (readNet16 pointer offset) :=
  staysLocal_of_reads (fun _ => rfl) fun s => (emits_readNet16 pointer offset s).mpr trivial

theorem staysLocal_processUdp (data : Ptr) (dataLen : Int) : StaysLocal (processUdp data dataLen) := by
  have version : StaysLocal (ipVersion data dataLen) :=
    Proc.framed_ite ((staysLocal_readNet8 _ _).bind fun _ => Proc.framed_pure _) (Proc.framed_pure _)
  have copies : ∀ pointer, StaysLocal (cpyIpv4 pointer) := fun _ => cpyIpv4_framed (by exact trivial)
  refine version.bind fun version => Proc.framed_ite ?_ (Proc.framed_pure _)
  refine (staysLocal_readNet8 _ _).bind fun protocol => Proc.framed_ite (Proc.framed_pure _) ?_
  refine (staysLocal_readNet8 _ _).bind fun verLen => (copies _).bind fun src => (copies _).bind fun dst => ?_
  refine (staysLocal_readNet16 _ _).bind fun srcport => (staysLocal_readNet16 _ _).bind fun dstport => ?_
  refine (Proc.framed_emit (by exact trivial)).bind fun _ => (loadBytes_framed (by exact trivial)).bind fun payload => ?_
  exact (Proc.framed_emit (by exact trivial)).bind fun _ => Proc.framed_pure _

theorem staysLocal_gatewayOnPacket (env : Env) (raw : Ptr) (rawLen : Nat) :
    StaysLocal (gatewayOnPacket env raw rawLen) := by
  refine (staysLocal_processUdp _ _).bind fun taken => Proc.framed_ite (Proc.framed_pure _) ?_
  refine (loadBytes_framed (by exact trivial)).bind fun packet => (Proc.framed_emit (by exact trivial)).bind fun _ => ?_
  exact staysLocal_uvlOutputs _ _

theorem staysLocal_arpRequest (arp : Arp) : StaysLocal (arpRequest now arp) := by
  refine Proc.framed_read.bind fun lanPlay => Proc.framed_ite (Proc.framed_ite (Proc.framed_pure _) ?_)
    (Proc.framed_pure _)
  refine Proc.framed_ite (Proc.framed_pure _) ?_
  refine Proc.Framed.bind (staysLocal_of_reads (fun _ => rfl) fun s => ?_) fun known => Proc.framed_ite
    (Proc.framed_pure _) (staysLocal_sendEther _ _ _ [])
  simp [arpHasIp]

end Local

/-! ## A captured frame -/

/-- The fields `parse_arp` fills in. -/
def arpAt (ether : EtherFrame) : Arp :=
  let packet := ether.payload
  let net16 := fun offset => net16At packet.memory (packet.offset + offset)
  { hardwareType := net16 0
    protocolType := net16 2
    hardwareSize := (byteAt packet.memory (packet.offset + 4)).toNat
    protocolSize := (byteAt packet.memory (packet.offset + 5)).toNat
    opcode := net16 6
    senderMac := octetsAt 6 packet.memory (packet.offset + 8)
    senderIp := octetsAt 4 packet.memory (packet.offset + 14)
    targetMac := octetsAt 6 packet.memory (packet.offset + 18)
    targetIp := octetsAt 4 packet.memory (packet.offset + 24) }

/-- `process_arp` refuses other kinds of addresses. -/
abbrev Arp.Refused (arp : Arp) : Prop :=
  arp.hardwareType ≠ arpHardtypeEther ∨ arp.protocolType ≠ etherTypeIpv4 ∨ arp.hardwareSize ≠ 6 ∨
    arp.protocolSize ≠ 4

/-- Whom a frame makes known to a client with the address `own`. -/
def EtherFrame.sender (ether : EtherFrame) (own : Mac) : Option (Mac × Ip) :=
  if cmpMac ether.src own then none
  else if ether.type = etherTypeArp then
    if (arpAt ether).Refused then none else some ((arpAt ether).senderMac, (arpAt ether).senderIp)
  else if ether.type = etherTypeIpv4 then some (ether.src, (ipv4At ether).src)
  else none

def LanPlay.hears (s : LanPlay) (now : Int) (ether : EtherFrame) : LanPlay :=
  match ether.sender s.packetCtx.mac with
  | none => s
  | some (mac, ip) => s.learned now mac ip

/-- The packet of the frame that goes to the relay, once the sender is known. -/
def LanPlay.relays (s : LanPlay) (now : Int) (ether : EtherFrame) : Option Payload :=
  let ctx := s.packetCtx
  let dst := (ipv4At ether).dst
  if cmpMac ether.src ctx.mac = false ∧ ether.type = etherTypeIpv4 ∧ dst ≠ ctx.ip ∧
      isSubnet dst ctx.subnetNet ctx.subnetMask = true ∧
        (isBroadcast dst ctx.subnetNet ctx.subnetMask = true ∨ ctx.arpFind now dst = none) then
    some ⟨ether.payload, (ipv4At ether).totalLen⟩
  else none

def Uplink.hands (uplink : Uplink) : Option Payload → Outcome Uplink Event Int
  | none => ⟨0, uplink, []⟩
  | some part => lanClientSendIpv4 part.ptr part.len uplink

/-- What an execution leaves behind, up to what sending on the local network changes. -/
structure Leaves {α : Type} (out : Outcome LanPlay Event α) (after : LanPlay) (sent : List Bytes) : Prop where
  core : out.state.core = after.core
  sent : datagrams out.events = sent
  silent : deliveries out.events = []

namespace Leaves

variable {α β : Type} {s after : LanPlay} {sent : List Bytes}

theorem of_local {m : Proc LanPlay Event α} (stays : StaysLocal m) (s : LanPlay) : Leaves (m s) s [] where
  core := (stays s).1
  sent := datagrams_eq_nil (stays s).2
  silent := deliveries_eq_nil_of_local (stays s).2

theorem then_local {first : Proc LanPlay Event α} {next : α → Proc LanPlay Event β}
    (leaves : Leaves (first s) after sent) (stays : ∀ value, StaysLocal (next value)) :
    Leaves ((first >>= next) s) after sent := by
  have rest := of_local (stays (first s).value) (first s).state
  constructor
  · exact rest.core.trans leaves.core
  · rw [Proc.bind_events, datagrams_append, leaves.sent, rest.sent, List.append_nil]
  · rw [Proc.bind_events, deliveries_append, leaves.silent, rest.silent, List.append_nil]

theorem after_local {first : Proc LanPlay Event α} {next : α → Proc LanPlay Event β} (value : α) (state : LanPlay)
    (returns : (first s).value = value) (reaches : (first s).state = state) (stays : first.Emits Event.Local s)
    (leaves : Leaves (next value state) after sent) : Leaves ((first >>= next) s) after sent := by
  subst returns reaches
  constructor
  · exact leaves.core
  · rw [Proc.bind_events, datagrams_append, datagrams_eq_nil stays, leaves.sent, List.nil_append]
  · rw [Proc.bind_events, deliveries_append, deliveries_eq_nil_of_local stays, leaves.silent, List.nil_append]

end Leaves

theorem onUplink_leaves (part : Payload) (s : LanPlay) :
    Leaves (onUplink (lanClientSendIpv4 part.ptr part.len) s)
      { s with uplink := (s.uplink.hands (some part)).state } (datagrams (s.uplink.hands (some part)).events) where
  core := rfl
  sent := rfl
  silent := by
    have transmits : Transmits Event.Quiet := by constructor <;> intros <;> trivial
    refine deliveries_eq_nil (m := onUplink _) (s := s) ?_
    refine (emits_lanClientSendIpv4 transmits part.ptr part.len s.uplink).mpr ?_
    unfold RelayOk PartSent
    split <;> simp [Event.Quiet]

/-- The client after it handed a packet to the relay. -/
def LanPlay.handed (s : LanPlay) (packet : Option Payload) : LanPlay :=
  { s with uplink := (s.uplink.hands packet).state }

section Capture

variable (env : Env) (ether : EtherFrame) (s : LanPlay)

/-- Everything behind the header, in the state that knows the sender. -/
theorem processIpv4_leaves (foreign : cmpMac ether.src s.packetCtx.mac = false) (type : ether.type = etherTypeIpv4) :
    let heard := s.learned env.now ether.src (ipv4At ether).src
    Leaves (processIpv4 env ether s) (heard.handed (heard.relays env.now ether))
      (datagrams (heard.uplink.hands (heard.relays env.now ether)).events) := by
  intro heard
  have parsed : (parseIpv4 ether).Emits Event.Local s := by simp [parseIpv4, Event.Local]
  refine Leaves.after_local (ipv4At ether) s rfl rfl parsed ?_
  refine Leaves.after_local _ heard rfl rfl (by simp [arpSet]) ?_
  refine Leaves.after_local heard heard rfl rfl Proc.emits_read ?_
  have foreign' : cmpMac ether.src heard.packetCtx.mac = false := foreign
  by_cases own : (ipv4At ether).dst = heard.packetCtx.ip
  · have kept : heard.relays env.now ether = none := if_neg fun relayed => relayed.2.2.1 own
    rw [if_pos own, kept]
    exact .of_local (Proc.framed_ite (staysLocal_processIcmp _ _) (Proc.framed_pure _)) heard
  rw [if_neg own]
  by_cases inside : isSubnet (ipv4At ether).dst heard.packetCtx.subnetNet heard.packetCtx.subnetMask = true
  · rw [if_pos inside]
    by_cases everyone : isBroadcast (ipv4At ether).dst heard.packetCtx.subnetNet heard.packetCtx.subnetMask = true
    · have relayed : heard.relays env.now ether = some ⟨ether.payload, (ipv4At ether).totalLen⟩ :=
        if_pos ⟨foreign', type, own, inside, .inl everyone⟩
      rw [if_pos everyone, relayed]
      exact (onUplink_leaves ⟨ether.payload, (ipv4At ether).totalLen⟩ heard).then_local fun _ =>
        staysLocal_sendEther _ _ _ []
    · rw [if_neg everyone]
      refine Leaves.after_local (heard.packetCtx.arpFind env.now (ipv4At ether).dst).isSome heard rfl rfl
        (by simp [arpHasIp]) ?_
      cases known : heard.packetCtx.arpFind env.now (ipv4At ether).dst with
      | none =>
          have relayed : heard.relays env.now ether = some ⟨ether.payload, (ipv4At ether).totalLen⟩ :=
            if_pos ⟨foreign', type, own, inside, .inr known⟩
          rw [Option.isSome_none, if_neg Bool.false_ne_true, relayed]
          exact onUplink_leaves ⟨ether.payload, (ipv4At ether).totalLen⟩ heard
      | some slot =>
          have kept : heard.relays env.now ether = none :=
            if_neg fun relayed => relayed.2.2.2.2.elim everyone (by simp [known])
          rw [Option.isSome_some, if_pos rfl, kept]
          refine .of_local ((arpGetMacByIp_framed (local_sends .header) _ _).bind fun found => ?_) heard
          cases found with
          | none => exact Proc.framed_pure _
          | some mac => exact staysLocal_sendEther _ _ _ []
  · have kept : heard.relays env.now ether = none := if_neg fun relayed => inside relayed.2.2.2.1
    rw [if_neg inside, kept]
    refine .of_local (Proc.framed_ite ?_ (Proc.framed_pure _)) heard
    exact (staysLocal_gatewayOnPacket _ _ _).bind fun _ => Proc.framed_pure _

theorem processArp_leaves (now : Int) :
    Leaves (processArp now ether s)
      (if (arpAt ether).Refused then s else s.learned now (arpAt ether).senderMac (arpAt ether).senderIp) [] := by
  refine Leaves.after_local (arpAt ether) s rfl rfl (by simp [parseArp, Event.Local]) ?_
  by_cases refused : (arpAt ether).Refused
  · rw [if_pos refused, if_pos (show (arpAt ether).Refused from refused)]
    exact .of_local (Proc.framed_pure _) s
  · rw [if_neg refused, if_neg (show ¬ (arpAt ether).Refused from refused)]
    refine Leaves.after_local _ (s.learned now (arpAt ether).senderMac (arpAt ether).senderIp) rfl rfl
      (by simp [arpSet]) ?_
    refine .of_local (Proc.framed_ite (staysLocal_arpRequest now _) ?_) _
    exact Proc.framed_ite (Proc.framed_pure _) (Proc.framed_pure _)

theorem LanPlay.hears_of_own (now : Int) (own : cmpMac ether.src s.packetCtx.mac = true) : s.hears now ether = s := by
  simp [hears, EtherFrame.sender, own]

theorem LanPlay.hears_ipv4 (now : Int) (foreign : cmpMac ether.src s.packetCtx.mac = false)
    (type : ether.type = etherTypeIpv4) :
    s.hears now ether = s.learned now ether.src (ipv4At ether).src := by
  simp [hears, EtherFrame.sender, foreign, type]

theorem LanPlay.hears_mac (now : Int) : (s.hears now ether).packetCtx.mac = s.packetCtx.mac := by
  unfold hears
  split <;> rfl

theorem LanPlay.relays_eq_none (now : Int) (other : ether.type ≠ etherTypeIpv4) : s.relays now ether = none :=
  if_neg fun relayed => other relayed.2.1

theorem processEther_leaves (packet : Ptr) (len : Nat) :
    let heard := s.hears env.now (etherAt packet len)
    Leaves (processEther env packet len s) (heard.handed (heard.relays env.now (etherAt packet len)))
      (datagrams (heard.uplink.hands (heard.relays env.now (etherAt packet len))).events) := by
  intro heard
  refine Leaves.after_local (etherAt packet len) s rfl rfl (by simp [parseEther, Event.Local]) ?_
  refine Leaves.after_local s s rfl rfl Proc.emits_read ?_
  rcases Bool.eq_false_or_eq_true (cmpMac (etherAt packet len).src s.packetCtx.mac) with own | foreign
  · have same : heard = s := LanPlay.hears_of_own _ s env.now own
    have kept : heard.relays env.now (etherAt packet len) = none := by
      refine if_neg fun relayed => ?_
      rw [same, own] at relayed
      exact Bool.noConfusion relayed.1
    rw [if_pos own, kept, same]
    exact .of_local (Proc.framed_pure _) s
  · rw [if_neg (by rw [foreign]; exact Bool.false_ne_true)]
    by_cases arp : (etherAt packet len).type = etherTypeArp
    · have other : (etherAt packet len).type ≠ etherTypeIpv4 := by
        rw [arp]
        decide
      have same : heard = if (arpAt (etherAt packet len)).Refused then s
          else s.learned env.now (arpAt (etherAt packet len)).senderMac (arpAt (etherAt packet len)).senderIp := by
        simp only [heard, LanPlay.hears, EtherFrame.sender, foreign, arp]
        split <;> simp_all
      rw [if_pos arp, heard.relays_eq_none _ _ other, same]
      exact processArp_leaves _ s env.now
    · rw [if_neg arp]
      by_cases type : (etherAt packet len).type = etherTypeIpv4
      · have same : heard = _ := LanPlay.hears_ipv4 _ s env.now foreign type
        rw [if_pos type, same]
        exact processIpv4_leaves env _ s foreign type
      · have same : heard = s := by simp [heard, LanPlay.hears, EtherFrame.sender, foreign, arp, type]
        rw [if_neg type, heard.relays_eq_none _ _ type, same]
        exact .of_local (Proc.framed_pure _) s

end Capture

/-! ## Where the packet lies makes no difference -/

/-- The bytes of a payload, at the start of a region of their own. -/
def Payload.alone (part : Payload) : Payload := ⟨⟨.frame, part.bytes, 0⟩, part.bytes.length⟩

theorem Payload.slice_bytes (part : Payload) {offset size : Nat} (inside : offset + size ≤ part.len) :
    slice part.bytes offset size = slice part.ptr.memory (part.ptr.offset + offset) size := by
  refine slice_congr fun index below => ?_
  rw [Payload.bytes, byteAt_slice _ _ _ _ (by omega), Nat.add_assoc]

theorem Payload.octetsAt_bytes (part : Payload) (offset : Nat) (inside : offset + 4 ≤ part.len) :
    octetsAt 4 part.bytes offset = octetsAt 4 part.ptr.memory (part.ptr.offset + offset) := by
  funext index
  have below := index.isLt
  simp only [octetsAt]
  rw [Payload.bytes, byteAt_slice _ _ _ _ (by omega), Nat.add_assoc]

theorem lanClientSendRaw_congr {bufs bufs' : List Payload} (lens : bufs.map Payload.len = bufs'.map Payload.len)
    (bytes : bufs.map Payload.bytes = bufs'.map Payload.bytes) (uplink : Uplink) :
    (lanClientSendRaw bufs uplink).value = (lanClientSendRaw bufs' uplink).value ∧
      (lanClientSendRaw bufs uplink).state = (lanClientSendRaw bufs' uplink).state ∧
      datagrams (lanClientSendRaw bufs uplink).events = datagrams (lanClientSendRaw bufs' uplink).events := by
  by_cases empty : (bufs.map Payload.len).sum = 0
  · have empty' := empty
    rw [lens] at empty'
    simp [lanClientSendRaw, empty, empty']
  · have some' : (bufs'.map Payload.len).sum ≠ 0 := lens ▸ empty
    rw [lanClientSendRaw_datagrams bufs uplink empty, lanClientSendRaw_datagrams bufs' uplink some',
      lanClientSendRaw_outcome empty, lanClientSendRaw_outcome some', bytes, lens]
    exact ⟨rfl, rfl, rfl⟩

/-- The loop over the parts.  The induction is on the number of parts left. -/
theorem sendParts_alone (part : Payload) (pmtu : Nat) (positive : 0 < pmtu) (header : LanClientFragmentHeader)
    (rest : Nat) :
    ∀ (i : Nat) (uplink : Uplink), rest = totalPart part.len pmtu - i →
      (sendParts part.ptr part.len pmtu positive header i (min (i * pmtu) part.len) uplink).state =
          (sendParts part.alone.ptr part.len pmtu positive header i (min (i * pmtu) part.len) uplink).state ∧
        datagrams (sendParts part.ptr part.len pmtu positive header i (min (i * pmtu) part.len) uplink).events =
          datagrams
            (sendParts part.alone.ptr part.len pmtu positive header i (min (i * pmtu) part.len) uplink).events := by
  induction rest with
  | zero =>
      intro i uplink last
      rw [sendParts_last part.ptr _ _ _ _ positive (by omega), sendParts_last part.alone.ptr _ _ _ _ positive (by omega)]
      exact ⟨rfl, rfl⟩
  | succ rest ih =>
      intro i uplink more
      have inside := (lt_totalPart_iff positive i).mp (show i < totalPart part.len pmtu by omega)
      have bytes : (partBufs part.ptr part.len pmtu header i).map Payload.bytes =
          (partBufs part.alone.ptr part.len pmtu header i).map Payload.bytes := by
        have same := part.slice_bytes (show i * pmtu + min pmtu (part.len - i * pmtu) ≤ part.len by omega)
        simp [partBufs, Payload.bytes, Payload.alone, Ptr.plus] at same ⊢
        exact same.symm
      obtain ⟨value, state, sent⟩ := lanClientSendRaw_congr (by rfl) bytes uplink
      rw [sendParts_next part.ptr _ _ _ _ positive (by omega), sendParts_next part.alone.ptr _ _ _ _ positive (by omega)]
      simp only [Proc.bind_state, Proc.bind_events, datagrams_append, value, state, sent]
      split
      · exact ⟨rfl, rfl⟩
      · obtain ⟨states, datagrams⟩ := ih (i + 1)
          (lanClientSendRaw (partBufs part.alone.ptr part.len pmtu header i) uplink).state (by omega)
        exact ⟨states, congrArg _ datagrams⟩

/-- The header before the loop, for a packet anywhere in memory. -/
def Payload.blankHeader (part : Payload) (uplink : Uplink) : LanClientFragmentHeader where
  src := octetsAt 4 part.ptr.memory (part.ptr.offset + ipv4OffSrc)
  dst := octetsAt 4 part.ptr.memory (part.ptr.offset + ipv4OffDst)
  id := uplink.fragId
  part := 0
  totalPart := totalPart part.len uplink.pmtu.toNat
  len := 0
  pmtu := uplink.pmtu.toNat

section Hands

variable (part : Payload) (uplink : Uplink)

theorem hands_split (positive : 0 < uplink.pmtu.toNat) (fragmenting : 0 < uplink.pmtu)
    (many : 1 < totalPart part.len uplink.pmtu.toNat) :
    let loop := sendParts part.ptr part.len uplink.pmtu.toNat positive (part.blankHeader uplink) 0
      (min (0 * uplink.pmtu.toNat) part.len) { uplink with fragId := (uplink.fragId + 1) % 2 ^ 32 }
    (uplink.hands (some part)).state = loop.state ∧
      datagrams (uplink.hands (some part)).events = datagrams loop.events := by
  have taken : lanClientTypeIpv4 = lanClientTypeIpv4 ∧ 0 < uplink.pmtu ∧
      1 < totalPart part.len uplink.pmtu.toNat := ⟨rfl, fragmenting, many⟩
  have unfolded : uplink.hands (some part) = lanClientSend lanClientTypeIpv4 part.ptr part.len uplink := rfl
  rw [unfolded, lanClientSend, Proc.read_bind, dif_pos taken, Nat.zero_mul, Nat.zero_min]
  exact ⟨rfl, rfl⟩

theorem hands_whole (whole : ¬ (0 < uplink.pmtu ∧ 1 < totalPart part.len uplink.pmtu.toNat)) :
    uplink.hands (some part) = lanClientSendRaw [.ofBytes [lanClientTypeIpv4], part] uplink := by
  have unfolded : uplink.hands (some part) = lanClientSend lanClientTypeIpv4 part.ptr part.len uplink := rfl
  rw [unfolded, lanClientSend, Proc.read_bind, dif_neg fun taken => whole taken.2]

/-- A packet without the place it lies at. -/
theorem hands_alone (headed : (uplink.transmission part.bytes).Fragmented → ipv4OffEnd ≤ part.len) :
    (uplink.hands (some part)).state = (uplink.hands (some part.alone)).state ∧
      datagrams (uplink.hands (some part)).events = datagrams (uplink.hands (some part.alone)).events := by
  have len : part.alone.len = part.len := part.length_bytes
  by_cases fragmenting : 0 < uplink.pmtu ∧ 1 < totalPart part.len uplink.pmtu.toNat
  · have fragmented : (uplink.transmission part.bytes).Fragmented := by
      refine ⟨fragmenting.1, ?_⟩
      rw [Transmission.parts, Uplink.transmission, part.length_bytes]
      exact fragmenting.2
    have long : 20 ≤ part.len := headed fragmented
    have positive : 0 < uplink.pmtu.toNat := by omega
    have header : part.alone.blankHeader uplink = part.blankHeader uplink := by
      have src := part.octetsAt_bytes ipv4OffSrc (show 12 + 4 ≤ part.len by omega)
      have dst := part.octetsAt_bytes ipv4OffDst (show 16 + 4 ≤ part.len by omega)
      unfold Payload.blankHeader
      rw [← src, ← dst, len]
      simp [Payload.alone]
    obtain ⟨state, sent⟩ := hands_split part uplink positive fragmenting.1 fragmenting.2
    obtain ⟨state', sent'⟩ := hands_split part.alone uplink positive fragmenting.1 (len ▸ fragmenting.2)
    obtain ⟨states, datagrams⟩ := sendParts_alone part uplink.pmtu.toNat positive (part.blankHeader uplink) _ 0
      { uplink with fragId := (uplink.fragId + 1) % 2 ^ 32 } rfl
    rw [state, sent, state', sent', header, len]
    exact ⟨states, datagrams⟩
  · have bytes : part.alone.bytes = part.bytes := slice_full part.bytes
    obtain ⟨-, state, sent⟩ := lanClientSendRaw_congr (by simp [len])
      (show [Payload.ofBytes [lanClientTypeIpv4], part].map Payload.bytes =
        [Payload.ofBytes [lanClientTypeIpv4], part.alone].map Payload.bytes by simp [bytes]) uplink
    rw [hands_whole part uplink fragmenting, hands_whole part.alone uplink (len ▸ fragmenting)]
    exact ⟨state, sent⟩

end Hands

end SwitchLanPlay
