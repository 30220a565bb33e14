import SwitchLanPlay.Lan.Footprint

/-!
# Own frames and frames for the gateway

`process_ether` drops the frames that the client sent itself, and `process_ipv4`
hands a packet to another network to the gateway when the frame was sent to the
client.  Both ask `CMP_MAC`, which compares four of the six bytes.
-/

namespace SwitchLanPlay

open Library

/-! ## The comparison -/

/-- Two addresses that `CMP_MAC` cannot tell apart. -/
def Confused (first second : Mac) : Prop :=
  (∀ index : Fin 6, index.val < 4 → first index = second index) ∧ first ≠ second

theorem cmpMac_eq_true {first second : Mac} :
    cmpMac first second = true ↔ ∀ index : Fin 6, index.val < 4 → first index = second index := by
  unfold cmpMac
  rw [decide_eq_true_iff]
  constructor
  · intro agree index below
    exact agree ⟨index, below⟩
  · intro agree index
    exact agree _ index.isLt

theorem cmpMac_self (mac : Mac) : cmpMac mac mac = true := cmpMac_eq_true.mpr fun _ _ => rfl

theorem cmpMac_iff {first second : Mac} : cmpMac first second = true ↔ first = second ∨ Confused first second := by
  constructor
  · intro agree
    by_cases same : first = second
    · exact .inl same
    · exact .inr ⟨cmpMac_eq_true.mp agree, same⟩
  · rintro (rfl | ⟨agree, -⟩)
    · exact cmpMac_self first
    · exact cmpMac_eq_true.mpr agree

/-! ## Own frames -/

/-- A frame of a type that `process_ether` handles goes no further than its header. -/
def DiscardedAsOwn (env : Env) (packet : Ptr) (len : Nat) (s : LanPlay) : Prop :=
  ((etherAt packet len).type = etherTypeArp ∨ (etherAt packet len).type = etherTypeIpv4) ∧
    processEther env packet len s = ⟨0, s, (parseEther packet len s).events⟩

theorem processArp_events_ne_nil (now : Int) (ether : EtherFrame) (s : LanPlay) :
    (processArp now ether s).events ≠ [] :=
  List.append_ne_nil_of_left_ne_nil (List.append_ne_nil_of_left_ne_nil (List.cons_ne_nil _ _) _) _

theorem processIpv4_events_ne_nil (env : Env) (ether : EtherFrame) (s : LanPlay) :
    (processIpv4 env ether s).events ≠ [] :=
  List.append_ne_nil_of_left_ne_nil (List.append_ne_nil_of_left_ne_nil (List.cons_ne_nil _ _) _) _

theorem discardedAsOwn_iff (env : Env) (packet : Ptr) (len : Nat) (s : LanPlay) :
    DiscardedAsOwn env packet len s ↔
      ((etherAt packet len).type = etherTypeArp ∨ (etherAt packet len).type = etherTypeIpv4) ∧
        cmpMac (etherAt packet len).src s.packetCtx.mac = true := by
  unfold DiscardedAsOwn
  refine and_congr_right fun handled => ?_
  constructor
  · intro same
    by_contra other
    -- behind the header, the handler of the type reads on
    have events := congrArg Outcome.events same
    unfold processEther at events
    rw [Proc.bind_events, parseEther_value, parseEther_state, Proc.read_bind, if_neg other,
      List.append_right_eq_self] at events
    rcases handled with arp | ipv4
    · rw [if_pos arp] at events
      exact processArp_events_ne_nil _ _ _ events
    · rw [if_neg (by rw [ipv4]; decide), if_pos ipv4] at events
      exact processIpv4_events_ne_nil _ _ _ events
  · intro own
    unfold processEther
    ext1
    · rw [Proc.bind_value, parseEther_value, parseEther_state, Proc.read_bind, if_pos own]
      rfl
    · rw [Proc.bind_state, parseEther_value, parseEther_state, Proc.read_bind, if_pos own]
      rfl
    · rw [Proc.bind_events, parseEther_value, parseEther_state, Proc.read_bind, if_pos own]
      exact List.append_nil _

/-! ## Packets for the gateway -/

/-- The gateway passes a packet on to the proxy or to the TCP stack. -/
def Event.AtGateway : Event → Prop
  | .udpSend _ _ _ _ _ => True
  | .lwipInput _ => True
  | _ => False

/-- `process_ipv4` hands the packet to the gateway. -/
def HandedToGateway (env : Env) (ether : EtherFrame) (s : LanPlay) : Prop :=
  ∃ event ∈ (processIpv4 env ether s).events, event.AtGateway

theorem sends_notAtGateway (region : Region) : Sends (fun event => ¬ event.AtGateway) region :=
  ⟨fun _ _ => id, fun _ _ => id, fun _ => id, fun _ => id⟩

/-- What the proxy takes is passed on to it. -/
theorem processUdp_reaches {data : Ptr} {dataLen : Int} {s : LanPlay}
    (taken : (processUdp data dataLen s).value = true) :
    ¬ (processUdp data dataLen).Emits (fun event => ¬ event.AtGateway) s := by
  unfold processUdp at taken ⊢
  rw [Proc.bind_value] at taken
  rw [Proc.emits_bind]
  rintro ⟨-, body⟩
  split at taken
  case isFalse => cases taken
  case isTrue ipv4 =>
    rw [if_pos ipv4, Proc.emits_bind] at body
    rw [Proc.bind_value] at taken
    split at taken
    case isTrue => cases taken
    case isFalse udp =>
      rw [if_neg udp] at body
      simp [Event.AtGateway] at body

theorem gatewayOnPacket_reaches (env : Env) (raw : Ptr) (rawLen : Nat) (s : LanPlay) :
    ¬ (gatewayOnPacket env raw rawLen).Emits (fun event => ¬ event.AtGateway) s := by
  unfold gatewayOnPacket
  rw [Proc.emits_bind]
  rintro ⟨proxy, stack⟩
  cases taken : (processUdp (raw.plus etherOffEnd) (rawLen - etherOffEnd) s).value with
  | true => exact processUdp_reaches taken proxy
  | false =>
      rw [taken] at stack
      simp only [Bool.false_eq_true, if_false, Proc.emits_bind, Proc.emits_emit] at stack
      exact stack.2.1 trivial

/-- An answer to an ICMP message does not pass the gateway. -/
theorem processIcmp_notAtGateway (now : Int) (ipv4 : Ipv4) (s : LanPlay) :
    (processIcmp now ipv4).Emits (fun event => ¬ event.AtGateway) s := by
  have sends := sends_notAtGateway .icmp
  unfold processIcmp
  rw [Proc.emits_emit_bind, Proc.emits_emit_bind, Proc.emits_emit_bind, Proc.emits_bind, Proc.emits_bind]
  refine ⟨id, id, id, emits_calcChecksum _ _ _ sends.load, ?_, Proc.emits_pure _⟩
  unfold sendIpv4 sendIpv4Ex
  rw [Proc.emits_read_bind, Proc.emits_read_bind, Proc.emits_update_bind, Proc.emits_bind, Proc.emits_bind]
  refine ⟨emits_calcChecksum _ _ _ sends.header, (arpGetMacByIp_framed sends now _ _).2, ?_⟩
  split
  · exact Proc.emits_pure _
  · refine (sendEther_framed sends _ _ ?_ _).2
    exact List.forall_mem_cons.mpr ⟨.inr rfl, List.forall_mem_singleton.mpr (.inl rfl)⟩

theorem parseIpv4_notAtGateway (ether : EtherFrame) (s : LanPlay) :
    (parseIpv4 ether).Emits (fun event => ¬ event.AtGateway) s := by
  simp [parseIpv4, Event.AtGateway]

/-- Outside the subnet, the gateway gets what is not for the client itself and is sent to
an address that looks like the client's. -/
theorem handedToGateway_iff (env : Env) (ether : EtherFrame) (s : LanPlay)
    (outside : isSubnet (ipv4At ether).dst s.packetCtx.subnetNet s.packetCtx.subnetMask = false) :
    HandedToGateway env ether s ↔
      (ipv4At ether).dst ≠ s.packetCtx.ip ∧ cmpMac s.packetCtx.mac ether.dst = true := by
  have quiet : (processIpv4 env ether).Emits (fun event => ¬ event.AtGateway) s ↔
      ¬ ((ipv4At ether).dst ≠ s.packetCtx.ip ∧ cmpMac s.packetCtx.mac ether.dst = true) := by
    unfold processIpv4
    rw [Proc.emits_bind, parseIpv4_value, parseIpv4_state, and_iff_right (parseIpv4_notAtGateway ether s),
      emits_arpSet_bind, Proc.emits_read_bind]
    by_cases own : (ipv4At ether).dst = s.packetCtx.ip
    · rw [if_pos (by exact own)]
      refine iff_of_true ?_ fun both => both.1 own
      split
      · exact processIcmp_notAtGateway _ _ _
      · exact Proc.emits_pure _
    · rw [if_neg (by exact own), if_neg (by exact Bool.eq_false_iff.mp outside)]
      by_cases ours : cmpMac s.packetCtx.mac ether.dst = true
      · rw [if_pos (by exact ours), Proc.emits_bind]
        exact iff_of_false (fun both => gatewayOnPacket_reaches _ _ _ _ both.1) (not_not_intro ⟨own, ours⟩)
      · rw [if_neg (by exact ours)]
        exact iff_of_true (Proc.emits_pure _) fun both => ours both.2
  unfold HandedToGateway
  rw [← not_iff_not, ← quiet]
  unfold Proc.Emits
  push Not
  exact Iff.rfl

/-! ## Both decisions -/

/-- The two decisions about a frame follow the whole addresses. -/
structure DecidedByMac (env : Env) (packet : Ptr) (len : Nat) (s : LanPlay) : Prop where
  own : DiscardedAsOwn env packet len s → (etherAt packet len).src = s.packetCtx.mac
  gateway : isSubnet (ipv4At (etherAt packet len)).dst s.packetCtx.subnetNet s.packetCtx.subnetMask = false →
    (HandedToGateway env (etherAt packet len) s ↔ (etherAt packet len).dst = s.packetCtx.mac)

theorem own_frames_iff (env : Env) (packet : Ptr) (len : Nat) (s : LanPlay) :
    (DiscardedAsOwn env packet len s → (etherAt packet len).src = s.packetCtx.mac) ↔
      ((etherAt packet len).type = etherTypeArp ∨ (etherAt packet len).type = etherTypeIpv4 →
        ¬ Confused (etherAt packet len).src s.packetCtx.mac) := by
  rw [discardedAsOwn_iff, and_imp]
  refine imp_congr_right fun _ => ?_
  constructor
  · intro own confused
    exact confused.2 (own (cmpMac_iff.mpr (.inr confused)))
  · intro clear agree
    exact (cmpMac_iff.mp agree).resolve_right clear

theorem gateway_frames_iff (env : Env) (ether : EtherFrame) (s : LanPlay)
    (outside : isSubnet (ipv4At ether).dst s.packetCtx.subnetNet s.packetCtx.subnetMask = false) :
    (HandedToGateway env ether s ↔ ether.dst = s.packetCtx.mac) ↔
      if (ipv4At ether).dst = s.packetCtx.ip then ether.dst ≠ s.packetCtx.mac
      else ¬ Confused s.packetCtx.mac ether.dst := by
  rw [handedToGateway_iff env ether s outside]
  split
  case isTrue own => exact iff_false_left fun both => both.1 own
  case isFalse other =>
    rw [and_iff_right other, cmpMac_iff]
    constructor
    · intro decided confused
      exact confused.2 (decided.mp (.inr confused)).symm
    · intro clear
      exact (or_iff_left clear).trans eq_comm

/-- A frame is treated by its whole addresses unless an address agrees with the client's in
four bytes only.  (The second case of the condition is a client outside its own subnet.) -/
theorem decidedByMac_iff (env : Env) (packet : Ptr) (len : Nat) (s : LanPlay) :
    DecidedByMac env packet len s ↔
      ((etherAt packet len).type = etherTypeArp ∨ (etherAt packet len).type = etherTypeIpv4 →
        ¬ Confused (etherAt packet len).src s.packetCtx.mac) ∧
      (isSubnet (ipv4At (etherAt packet len)).dst s.packetCtx.subnetNet s.packetCtx.subnetMask = false →
        if (ipv4At (etherAt packet len)).dst = s.packetCtx.ip then (etherAt packet len).dst ≠ s.packetCtx.mac
        else ¬ Confused s.packetCtx.mac (etherAt packet len).dst) := by
  rw [← own_frames_iff env]
  constructor
  · intro decided
    exact ⟨decided.own, fun outside => (gateway_frames_iff env _ s outside).mp (decided.gateway outside)⟩
  · rintro ⟨own, gateway⟩
    exact ⟨own, fun outside => (gateway_frames_iff env _ s outside).mpr (gateway outside)⟩

/-- A client whose MAC ends in `01`. -/
def firstAdapter : LanPlay :=
  let fresh := lanPlayStart 0 none (fun _ => 0) fun _ => 0
  { fresh with packetCtx.mac := octetsAt 6 [2, 0, 0, 0, 0, 1] 0 }

/-- An ARP frame from the adapter whose MAC ends in `02`. -/
def arpFromSecond : Bytes := List.replicate 6 0xff ++ [2, 0, 0, 0, 0, 2] ++ net16 etherTypeArp ++ List.replicate 28 0

/-- A packet to 8.8.8.8 that is sent to the adapter whose MAC ends in `02`. -/
def packetToSecond : Bytes :=
  [2, 0, 0, 0, 0, 2] ++ [4, 0, 0, 0, 0, 0] ++ net16 etherTypeIpv4 ++
    ipv4Header 20 0 ipv4ProtocolUdp 0 serverIp fun _ => 8

/-- A network without answers. -/
def quietEnv : Env := ⟨0, id, fun _ => []⟩

theorem neighbours_confused :
    (DiscardedAsOwn quietEnv ⟨.frame, arpFromSecond, 0⟩ arpFromSecond.length firstAdapter ∧
      (etherAt ⟨.frame, arpFromSecond, 0⟩ arpFromSecond.length).src ≠ firstAdapter.packetCtx.mac) ∧
    HandedToGateway quietEnv (etherAt ⟨.frame, packetToSecond, 0⟩ packetToSecond.length) firstAdapter ∧
      (etherAt ⟨.frame, packetToSecond, 0⟩ packetToSecond.length).dst ≠ firstAdapter.packetCtx.mac := by
  refine ⟨⟨?_, ?_⟩, ?_, ?_⟩
  · exact (discardedAsOwn_iff _ _ _ _).mpr ⟨.inl (by decide), by decide⟩
  · decide
  · exact (handedToGateway_iff _ _ _ (by decide)).mpr ⟨by decide, by decide⟩
  · decide

end SwitchLanPlay
