import SwitchLanPlay.Lan.Classification
import SwitchLanPlay.Lan.HeaderFields

/-!
# Answers to ICMP messages

`process_icmp` (`icmp.c`) turns the message it gets into an echo reply and sends it
back.  It does not look at the type of the message, so that a reply is answered like
a request.
-/

namespace SwitchLanPlay

open Library

/-! ## Messages -/

abbrev icmpEchoReply : UInt8 := 0
abbrev icmpEchoRequest : UInt8 := 8

def Ipv4.messageLen (ipv4 : Ipv4) : Nat := ipv4.totalLen - ipv4.headerLen

/-- The bytes behind the header, as many as the total length says. -/
def Ipv4.message (ipv4 : Ipv4) : Bytes := slice ipv4.payload.memory ipv4.payload.offset ipv4.messageLen

/-- An ICMP message to the client itself, complete with its header of eight bytes. -/
structure IcmpToOwn (s : LanPlay) (ipv4 : Ipv4) : Prop where
  version : ipv4.version = 4
  headerLen : ipv4HeaderLen ≤ ipv4.headerLen
  complete : ipv4.headerLen + 8 ≤ ipv4.totalLen
  totalLen : ipv4.totalLen < 2 ^ 16
  received : ipv4.payload.offset + ipv4.messageLen ≤ ipv4.payload.memory.length
  protocol : ipv4.protocol = ipv4ProtocolIcmp
  dst : ipv4.dst = s.packetCtx.ip

/-- The IPv4 packets among the frames sent to the local network. -/
def sentPackets (events : List Event) : List Bytes :=
  (sentFrames events).filter fun frame => net16At frame etherOffType = etherTypeIpv4

/-- What is read from a frame. -/
def packetIn (frame : Bytes) : Ipv4 := ipv4At (etherAt ⟨.frame, frame, 0⟩ frame.length)

/-- The frame carries an echo reply to the message: its code, identifier, sequence
number and data go back to its sender. -/
structure RepliesTo (s : LanPlay) (ipv4 : Ipv4) (frame : Bytes) : Prop where
  protocol : (packetIn frame).protocol = ipv4ProtocolIcmp
  src : (packetIn frame).src = s.packetCtx.ip
  dst : (packetIn frame).dst = ipv4.src
  type : byteAt (packetIn frame).message 0 = icmpEchoReply
  code : byteAt (packetIn frame).message 1 = byteAt ipv4.message 1
  identifier : net16At (packetIn frame).message 4 = net16At ipv4.message 4
  sequence : net16At (packetIn frame).message 6 = net16At ipv4.message 6
  data : (packetIn frame).message.drop 8 = ipv4.message.drop 8

/-- The station is in the ARP cache. -/
def LanPlay.Knows (s : LanPlay) (now : Int) (ip : Ip) : Prop := (s.packetCtx.arpFind now ip).isSome = true

instance (s : LanPlay) (now : Int) (ip : Ip) : Decidable (s.Knows now ip) :=
  inferInstanceAs (Decidable ((s.packetCtx.arpFind now ip).isSome = true))

/-- Echo requests of known stations are answered, and nothing else. -/
structure AnswersPings (now : Int) (s : LanPlay) (ipv4 : Ipv4) : Prop where
  sends_iff : sentPackets (processIcmp now ipv4 s).events ≠ [] ↔
    byteAt ipv4.message 0 = icmpEchoRequest ∧ s.Knows now ipv4.src
  reply : ∀ frame ∈ sentPackets (processIcmp now ipv4 s).events, RepliesTo s ipv4 frame

/-! ## The reply in its buffer -/

/-- `payload` of `process_icmp` before the checksum is written. -/
def icmpUnsummed (ipv4 : Ipv4) : Bytes :=
  let copied := slice ipv4.payload.memory ipv4.payload.offset (min ipv4.messageLen bufferSize)
  overwrite (overwrite (overwrite (List.replicate bufferSize 0) 0 copied) 0 [0]) 2 (net16 0)

def icmpReply (ipv4 : Ipv4) (sum : Nat) : Bytes := overwrite (icmpUnsummed ipv4) 2 (net16 sum)

/-- The type and the checksum are overwritten, the other bytes are those of the message. -/
theorem byteAt_icmpReply {ipv4 : Ipv4} (sum : Nat) {index : Nat} (inside : index < ipv4.messageLen)
    (short : ipv4.messageLen ≤ bufferSize) :
    byteAt (icmpReply ipv4 sum) index =
      if index = 0 then 0 else if 2 ≤ index ∧ index < 4 then byteAt (net16 sum) (index - 2)
      else byteAt ipv4.message index := by
  have size : index < bufferSize := by omega
  unfold icmpReply icmpUnsummed
  rw [byteAt_overwrite _ _ _ _ (by simpa using size)]
  by_cases summed : 2 ≤ index ∧ index < 4
  · rw [if_pos (by exact summed), if_neg (by omega), if_pos summed]
  rw [if_neg (by exact summed), if_neg summed, byteAt_overwrite _ _ _ _ (by simpa using size),
    if_neg (by exact summed), byteAt_overwrite _ _ _ _ (by simpa using size)]
  by_cases typed : index = 0
  · rw [if_pos (by simpa using typed), if_pos typed, typed]
    rfl
  · rw [if_neg (by simpa using typed), if_neg typed, byteAt_overwrite _ _ _ _ (by simpa using size),
      Nat.min_eq_left short, if_pos (by simpa using inside), Nat.sub_zero, Ipv4.message]

/-! ## The frames of `send_ipv4_ex` -/

theorem sentFrames_of_quiet {α β : Type} {first : Proc LanPlay Event α} {next : α → Proc LanPlay Event β}
    {s : LanPlay} (quiet : sentFrames (first s).events = []) :
    sentFrames ((first >>= next) s).events = sentFrames (next (first s).value (first s).state).events := by
  rw [Proc.bind_events, sentFrames_append, quiet, List.nil_append]

theorem sentFrames_calcChecksum (buffer : Ptr) (len : Int) (s : LanPlay) :
    sentFrames (calcChecksum buffer len s).events = [] :=
  sentFrames_of_loads (emits_calcChecksum buffer len s fun _ _ => trivial)

/-- A chain that does not fit is not copied. -/
theorem copyParts_of_tooLarge {σ : Type} (bufferLen : Nat) (chain : List Payload) (s : σ) (offset : Nat)
    (within : offset < bufferLen) (large : bufferLen ≤ offset + (chain.map Payload.len).sum) :
    (copyParts bufferLen offset chain s).value = none := by
  induction chain generalizing offset with
  | nil => exact absurd large (Nat.not_le_of_lt within)
  | cons part rest ih =>
      rw [List.map_cons, List.sum_cons, ← Nat.add_assoc] at large
      rw [copyParts]
      split
      · rfl
      · next fits =>
        have later := ih _ (Nat.lt_of_not_le fits) large
        simp only [Proc.bind_value, loadBytes_state, later]
        rfl

theorem sendEther_of_tooLarge {s : LanPlay} (sized : s.packetCtx.bufferLen = bufferSize) (dst : Mac)
    (type : Nat) (chain : List Payload) (large : bufferSize ≤ etherHeaderLen + (chain.map Payload.len).sum) :
    sentFrames (sendEther dst type chain s).events = [] := by
  have frames := sentFrames_sendPayloads (.ofBytes (etherHeader dst s.packetCtx.mac type) :: chain) s sized
  have total : ((Payload.ofBytes (etherHeader dst s.packetCtx.mac type) :: chain).map Payload.len).sum =
      etherHeaderLen + (chain.map Payload.len).sum := by
    rw [List.map_cons, List.sum_cons]
    rfl
  rw [copyParts_of_tooLarge _ _ _ _ (by decide) (by rwa [total, Nat.zero_add])] at frames
  exact frames

theorem sendArpRequest_frame {s : LanPlay} (sized : s.packetCtx.bufferLen = bufferSize) (ip : Ip) :
    ∃ frame, sentFrames (sendArpRequest ip s).events = [frame] ∧ net16At frame etherOffType = etherTypeArp := by
  unfold sendArpRequest sendArpEx
  rw [Proc.read_bind]
  refine ⟨_, (sendEther_of_fits sized broadcastMac etherTypeArp _ ?_).2, rfl⟩
  simp [Payload.ofBytes, net16, etherHeaderLen, bufferSize]

section Sent

variable {s : LanPlay} {now : Int} {dst : Ip} (src : Ip) (protocol : Nat) (payload : List Payload)

theorem sentFrames_sendIpv4Ex_known {slot : Fin arpCacheLen} (known : s.packetCtx.arpFind now dst = some slot) :
    sentFrames (sendIpv4Ex now src dst protocol payload s).events =
      sentFrames (sendEther (s.packetCtx.arpList slot).mac etherTypeIpv4
        (.ofBytes (writtenHeader s src dst protocol payload) :: payload) s.counted).events := by
  have asks : arpGetMacByIp now dst s.counted = ⟨some (s.packetCtx.arpList slot).mac, s.counted, []⟩ := by
    have there : s.counted.packetCtx.arpFind now dst = some slot := known
    unfold arpGetMacByIp
    rw [Proc.read_bind, there]
    rfl
  rw [sendIpv4Ex_writes, sentFrames_of_quiet rfl, sentFrames_of_quiet (sentFrames_calcChecksum _ _ _),
    calcChecksum_state, Proc.update_state, Proc.bind_of_quiet _ asks]

theorem sentFrames_sendIpv4Ex_unknown (unknown : s.packetCtx.arpFind now dst = none) :
    sentFrames (sendIpv4Ex now src dst protocol payload s).events =
      sentFrames (sendArpRequest dst s.counted).events := by
  have asks : arpGetMacByIp now dst s.counted =
      ⟨none, (sendArpRequest dst s.counted).state, (sendArpRequest dst s.counted).events ++ []⟩ := by
    have missing : s.counted.packetCtx.arpFind now dst = none := unknown
    unfold arpGetMacByIp
    rw [Proc.read_bind, missing]
    rfl
  rw [sendIpv4Ex_writes, sentFrames_of_quiet rfl, sentFrames_of_quiet (sentFrames_calcChecksum _ _ _),
    calcChecksum_state, Proc.update_state, Proc.bind_events, asks, List.append_nil, sentFrames_append]
  exact List.append_nil _

end Sent

/-! ## The frames of `process_icmp` -/

/-- The reply as a part of a chain. -/
def icmpPart (ipv4 : Ipv4) (sum : Nat) : Payload := ⟨⟨.icmp, icmpReply ipv4 sum, 0⟩, ipv4.messageLen⟩

/-- Every message is turned into a reply with some checksum and handed to `send_ipv4`. -/
theorem processIcmp_replies (now : Int) {ipv4 : Ipv4} (complete : ipv4.headerLen ≤ ipv4.totalLen)
    (totalLen : ipv4.totalLen < 2 ^ 16) (s : LanPlay) :
    ∃ sum, sentFrames (processIcmp now ipv4 s).events =
      sentFrames (sendIpv4Ex now s.packetCtx.ip ipv4.src ipv4ProtocolIcmp [icmpPart ipv4 sum] s).events := by
  have wide : (((ipv4.totalLen : Int) - ipv4.headerLen) % 2 ^ 64).toNat = ipv4.messageLen := by
    unfold Ipv4.messageLen
    omega
  have narrow : (((ipv4.totalLen : Int) - ipv4.headerLen) % 2 ^ 16).toNat = ipv4.messageLen := by
    unfold Ipv4.messageLen
    omega
  unfold processIcmp
  dsimp only
  rw [wide, narrow, sentFrames_of_quiet rfl, sentFrames_of_quiet rfl, sentFrames_of_quiet rfl,
    sentFrames_of_quiet (sentFrames_calcChecksum _ _ _), calcChecksum_state, Proc.bind_events, sentFrames_append]
  refine ⟨(calcChecksum ⟨.icmp, icmpUnsummed ipv4, 0⟩ (ipv4.totalLen - ipv4.headerLen) s).value, ?_⟩
  exact List.append_nil _

/-- A frame that a client sends with an ICMP message. -/
def icmpFrame (s : LanPlay) (dstMac : Mac) (dst : Ip) (message : Bytes) : Bytes :=
  etherHeader dstMac s.packetCtx.mac etherTypeIpv4 ++
    (sealedIpv4Header (ipv4HeaderLen + message.length) s.packetCtx.identification ipv4ProtocolIcmp
      s.packetCtx.ip dst ++ message)

/-- The reply is shorter than the send buffer. -/
def ReplyFits (ipv4 : Ipv4) : Prop := etherHeaderLen + ipv4HeaderLen + ipv4.messageLen < bufferSize

instance (ipv4 : Ipv4) : Decidable (ReplyFits ipv4) :=
  inferInstanceAs (Decidable (etherHeaderLen + ipv4HeaderLen + ipv4.messageLen < bufferSize))

section Cases

variable {s : LanPlay} (sized : s.packetCtx.bufferLen = bufferSize) {now : Int} {ipv4 : Ipv4}
  (complete : ipv4.headerLen ≤ ipv4.totalLen) (totalLen : ipv4.totalLen < 2 ^ 16)

include sized complete totalLen

theorem processIcmp_known_fits {slot : Fin arpCacheLen} (known : s.packetCtx.arpFind now ipv4.src = some slot)
    (fits : ReplyFits ipv4) :
    ∃ sum, sentFrames (processIcmp now ipv4 s).events =
      [icmpFrame s (s.packetCtx.arpList slot).mac ipv4.src (icmpPart ipv4 sum).bytes] := by
  obtain ⟨sum, replies⟩ := processIcmp_replies now complete totalLen s
  have total : ([icmpPart ipv4 sum].map Payload.len).sum = (icmpPart ipv4 sum).bytes.length := by
    rw [Payload.length_bytes]
    rfl
  have alone : chainBytes [icmpPart ipv4 sum] = (icmpPart ipv4 sum).bytes := List.append_nil _
  have sends := sendIpv4Ex_of_fits known sized s.packetCtx.ip ipv4ProtocolIcmp [icmpPart ipv4 sum]
    (by rw [← Nat.add_assoc]; exact fits)
  rw [total, alone] at sends
  exact ⟨sum, replies.trans sends.2⟩

theorem processIcmp_known_tooLarge {slot : Fin arpCacheLen} (known : s.packetCtx.arpFind now ipv4.src = some slot)
    (large : ¬ ReplyFits ipv4) : sentFrames (processIcmp now ipv4 s).events = [] := by
  obtain ⟨sum, replies⟩ := processIcmp_replies now complete totalLen s
  rw [replies, sentFrames_sendIpv4Ex_known _ _ _ known]
  have header : (writtenHeader s s.packetCtx.ip ipv4.src ipv4ProtocolIcmp [icmpPart ipv4 sum]).length =
      ipv4HeaderLen := by
    simp [writtenHeader, ipv4Header, net16]
  apply sendEther_of_tooLarge (by exact sized)
  rw [List.map_cons, List.sum_cons, Payload.ofBytes, header, ← Nat.add_assoc]
  exact Nat.le_of_not_lt large

theorem processIcmp_unknown (unknown : s.packetCtx.arpFind now ipv4.src = none) :
    ∃ frame, sentFrames (processIcmp now ipv4 s).events = [frame] ∧
      net16At frame etherOffType = etherTypeArp := by
  obtain ⟨sum, replies⟩ := processIcmp_replies now complete totalLen s
  rw [replies, sentFrames_sendIpv4Ex_unknown _ _ _ unknown]
  exact sendArpRequest_frame (by exact sized) ipv4.src

end Cases

/-! ## Reading a reply -/

section Reading

variable (s : LanPlay) (dstMac : Mac) (dst : Ip) {message : Bytes}
  (short : ipv4HeaderLen + message.length < 2 ^ 16)

include short

theorem icmpFrame_recovers :
    ∃ checksum, (packetIn (icmpFrame s dstMac dst message)).Recovers (ipv4HeaderLen + message.length)
      (s.packetCtx.identification % 2 ^ 16) ipv4ProtocolIcmp checksum s.packetCtx.ip dst := by
  have found := parseIpv4_recovers (etherAt ⟨.frame, icmpFrame s dstMac dst message, 0⟩
    (icmpFrame s dstMac dst message).length) .frame (etherHeader dstMac s.packetCtx.mac etherTypeIpv4) message
      (ipv4HeaderLen + message.length) s.packetCtx.identification 1
      (internetChecksum (ipv4Header (ipv4HeaderLen + message.length) s.packetCtx.identification
        ipv4ProtocolIcmp 0 s.packetCtx.ip dst)) s.packetCtx.ip dst s
  rw [parseIpv4_value, Nat.mod_eq_of_lt short] at found
  exact ⟨_, found⟩

theorem icmpFrame_message : (packetIn (icmpFrame s dstMac dst message)).message = message := by
  obtain ⟨checksum, found⟩ := icmpFrame_recovers s dstMac dst short
  have size : (packetIn (icmpFrame s dstMac dst message)).messageLen = message.length := by
    rw [Ipv4.messageLen, found.totalLen, found.headerLen, Nat.add_sub_cancel_left]
  have offset : (packetIn (icmpFrame s dstMac dst message)).payload.offset = etherHeaderLen + ipv4HeaderLen :=
    congrArg (etherHeaderLen + ·) found.headerLen
  have layers : icmpFrame s dstMac dst message =
      (etherHeader dstMac s.packetCtx.mac etherTypeIpv4 ++
        sealedIpv4Header (ipv4HeaderLen + message.length) s.packetCtx.identification ipv4ProtocolIcmp
          s.packetCtx.ip dst) ++ message := (List.append_assoc _ _ _).symm
  rw [Ipv4.message, size, offset]
  change slice (icmpFrame s dstMac dst message) (etherHeaderLen + ipv4HeaderLen) message.length = message
  rw [layers]
  exact (slice_append_right _ message message.length).trans (slice_full message)

end Reading

theorem byteAt_icmpPart {ipv4 : Ipv4} (sum : Nat) (fits : ReplyFits ipv4) {index : Nat}
    (inside : index < ipv4.messageLen) :
    byteAt (icmpPart ipv4 sum).bytes index =
      if index = 0 then 0 else if 2 ≤ index ∧ index < 4 then byteAt (net16 sum) (index - 2)
      else byteAt ipv4.message index := by
  have short : ipv4.messageLen ≤ bufferSize := Nat.le_of_lt (Nat.lt_of_le_of_lt (Nat.le_add_left _ _) fits)
  rw [Payload.bytes, icmpPart]
  dsimp only
  rw [byteAt_slice _ _ _ _ inside, Nat.zero_add, byteAt_icmpReply sum inside short]

theorem icmpFrame_repliesTo {s : LanPlay} {ipv4 : Ipv4} (own : IcmpToOwn s ipv4) (fits : ReplyFits ipv4)
    (dstMac : Mac) (sum : Nat) :
    RepliesTo s ipv4 (icmpFrame s dstMac ipv4.src (icmpPart ipv4 sum).bytes) := by
  have eight : 8 ≤ ipv4.messageLen := Nat.le_sub_of_add_le' own.complete
  have size : (icmpPart ipv4 sum).bytes.length = ipv4.messageLen := Payload.length_bytes _
  have small : ipv4HeaderLen + (icmpPart ipv4 sum).bytes.length < 2 ^ 16 := by
    rw [size]
    simp only [ReplyFits, etherHeaderLen, ipv4HeaderLen, bufferSize] at fits ⊢
    omega
  have behind (index : Nat) (low : 4 ≤ index) (inside : index < ipv4.messageLen) :
      byteAt (icmpPart ipv4 sum).bytes index = byteAt ipv4.message index := by
    rw [byteAt_icmpPart sum fits inside, if_neg (by omega), if_neg (by omega)]
  obtain ⟨checksum, found⟩ := icmpFrame_recovers s dstMac ipv4.src small
  constructor
  case protocol => exact found.protocol
  case src => exact found.src
  case dst => exact found.dst
  all_goals rw [icmpFrame_message s dstMac ipv4.src small]
  case type => rw [byteAt_icmpPart sum fits (by omega), if_pos rfl]
  case code => rw [byteAt_icmpPart sum fits (by omega), if_neg (by decide), if_neg (by decide)]
  case identifier => rw [net16At, net16At, behind 4 (by omega) (by omega), behind 5 (by omega) (by omega)]
  case sequence => rw [net16At, net16At, behind 6 (by omega) (by omega), behind 7 (by omega) (by omega)]
  case data =>
    apply drop_eq_of_byteAt (size.trans (length_slice _ _ _).symm)
    intro index low inside
    exact behind index (by omega) (by rwa [size] at inside)

/-! ## One context -/

theorem icmpFrame_type (s : LanPlay) (dstMac : Mac) (dst : Ip) (message : Bytes) :
    net16At (icmpFrame s dstMac dst message) etherOffType = etherTypeIpv4 := rfl

theorem icmpFrame_src (s : LanPlay) (dstMac : Mac) (dst : Ip) (message : Bytes) :
    octetsAt 6 (icmpFrame s dstMac dst message) etherOffSrc = s.packetCtx.mac := by
  funext index
  fin_cases index <;> rfl

section OneContext

variable {s : LanPlay} (sized : s.packetCtx.bufferLen = bufferSize) (now : Int) {ipv4 : Ipv4}
  (own : IcmpToOwn s ipv4)

include sized own

/-- Messages of every type are answered, as long as the sender is known and the reply fits. -/
theorem sentPackets_processIcmp :
    (s.Knows now ipv4.src ∧ ReplyFits ipv4 ∧ ∃ dstMac sum, sentPackets (processIcmp now ipv4 s).events =
        [icmpFrame s dstMac ipv4.src (icmpPart ipv4 sum).bytes]) ∨
      ¬ (s.Knows now ipv4.src ∧ ReplyFits ipv4) ∧ sentPackets (processIcmp now ipv4 s).events = [] := by
  have complete : ipv4.headerLen ≤ ipv4.totalLen := Nat.le_of_add_right_le own.complete
  cases found : s.packetCtx.arpFind now ipv4.src with
  | none =>
      obtain ⟨frame, sent, type⟩ := processIcmp_unknown sized complete own.totalLen found
      refine .inr ⟨fun both => ?_, ?_⟩
      · rw [LanPlay.Knows, found] at both
        exact absurd both.1 (by decide)
      · rw [sentPackets, sent, List.filter_singleton, type]
        rfl
  | some slot =>
      by_cases fits : ReplyFits ipv4
      · obtain ⟨sum, sent⟩ := processIcmp_known_fits sized complete own.totalLen found fits
        refine .inl ⟨by rw [LanPlay.Knows, found]; rfl, fits, (s.packetCtx.arpList slot).mac, sum, ?_⟩
        rw [sentPackets, sent, List.filter_singleton, icmpFrame_type]
        rfl
      · refine .inr ⟨fun both => fits both.2, ?_⟩
        rw [sentPackets, processIcmp_known_tooLarge sized complete own.totalLen found fits]
        rfl

theorem answersPings_iff :
    AnswersPings now s ipv4 ↔
      (s.Knows now ipv4.src → (byteAt ipv4.message 0 = icmpEchoRequest ↔ ReplyFits ipv4)) := by
  obtain ⟨known, fits, dstMac, sum, sent⟩ | ⟨silent, sent⟩ := sentPackets_processIcmp sized now own
  · constructor
    · intro answers _
      have request := (answers.sends_iff.mp (by rw [sent]; exact List.cons_ne_nil _ _)).1
      exact iff_of_true request fits
    · intro condition
      refine ⟨iff_of_true (by rw [sent]; exact List.cons_ne_nil _ _) ⟨(condition known).mpr fits, known⟩, ?_⟩
      rw [sent]
      exact List.forall_mem_singleton.mpr (icmpFrame_repliesTo own fits dstMac sum)
  · constructor
    · intro answers known
      have unasked : byteAt ipv4.message 0 ≠ icmpEchoRequest := by
        intro request
        exact answers.sends_iff.mpr ⟨request, known⟩ sent
      exact iff_of_false unasked fun fits => silent ⟨known, fits⟩
    · intro condition
      refine ⟨iff_of_false (not_not_intro sent) fun both => silent ⟨both.2, (condition both.2).mp both.1⟩, ?_⟩
      rw [sent]
      exact List.forall_mem_nil _

end OneContext

/-! ## Two contexts -/

theorem sentFrames_parseEther (packet : Ptr) (len : Nat) (s : LanPlay) :
    sentFrames (parseEther packet len s).events = [] := rfl

theorem sentFrames_parseIpv4 (ether : EtherFrame) (s : LanPlay) :
    sentFrames (parseIpv4 ether s).events = [] := rfl

/-- A complete ICMP message that fits makes a client send a frame: an answer to a known
station, a request for the address of any other. -/
theorem processIcmp_sends {s : LanPlay} (sized : s.packetCtx.bufferLen = bufferSize) (now : Int) {ipv4 : Ipv4}
    (complete : ipv4.headerLen ≤ ipv4.totalLen) (totalLen : ipv4.totalLen < 2 ^ 16) (fits : ReplyFits ipv4) :
    sentFrames (processIcmp now ipv4 s).events ≠ [] := by
  cases found : s.packetCtx.arpFind now ipv4.src with
  | none =>
      obtain ⟨frame, sent, -⟩ := processIcmp_unknown sized complete totalLen found
      rw [sent]
      exact List.cons_ne_nil _ _
  | some slot =>
      obtain ⟨sum, sent⟩ := processIcmp_known_fits sized complete totalLen found fits
      rw [sent]
      exact List.cons_ne_nil _ _

theorem sentFrames_processEther_own (env : Env) (packet : Ptr) (len : Nat) {s : LanPlay}
    (own : cmpMac (etherAt packet len).src s.packetCtx.mac = true) :
    sentFrames (processEther env packet len s).events = [] := by
  unfold processEther
  rw [sentFrames_of_quiet (sentFrames_parseEther packet len s), parseEther_value, parseEther_state,
    Proc.read_bind, if_pos own]
  rfl

/-- A frame with an ICMP message of any type, short enough to be answered. -/
structure PingFrame (frame : Bytes) (mac : Mac) (src dst : Ip) : Prop where
  mac : octetsAt 6 frame etherOffSrc = mac
  type : net16At frame etherOffType = etherTypeIpv4
  protocol : (packetIn frame).protocol = ipv4ProtocolIcmp
  src : (packetIn frame).src = src
  dst : (packetIn frame).dst = dst
  complete : (packetIn frame).headerLen ≤ (packetIn frame).totalLen
  totalLen : (packetIn frame).totalLen < 2 ^ 16
  fits : ReplyFits (packetIn frame)

theorem icmpFrame_pingFrame (s : LanPlay) (dstMac : Mac) (dst : Ip) {message : Bytes}
    (fits : etherHeaderLen + ipv4HeaderLen + message.length < bufferSize) :
    PingFrame (icmpFrame s dstMac dst message) s.packetCtx.mac s.packetCtx.ip dst := by
  have short : ipv4HeaderLen + message.length < 2 ^ 16 := by
    simp only [etherHeaderLen, ipv4HeaderLen, bufferSize] at fits ⊢
    omega
  obtain ⟨checksum, found⟩ := icmpFrame_recovers s dstMac dst short
  constructor
  case mac => exact icmpFrame_src s dstMac dst message
  case type => exact icmpFrame_type s dstMac dst message
  case protocol => exact found.protocol
  case src => exact found.src
  case dst => exact found.dst
  case complete =>
    rw [found.totalLen, found.headerLen]
    exact Nat.le_add_right _ _
  case totalLen => rwa [found.totalLen]
  case fits => rwa [ReplyFits, Ipv4.messageLen, found.totalLen, found.headerLen, Nat.add_sub_cancel_left]

section Delivered

variable (env : Env) (frame : Bytes) {s : LanPlay}

/-- The state in which a frame from the local network is handled: its sender is known. -/
def LanPlay.heard (s : LanPlay) (env : Env) (frame : Bytes) : LanPlay :=
  s.learned env.now (octetsAt 6 frame etherOffSrc) (packetIn frame).src

variable (foreign : ¬ cmpMac (octetsAt 6 frame etherOffSrc) s.packetCtx.mac = true)
  (type : net16At frame etherOffType = etherTypeIpv4) (dst : (packetIn frame).dst = s.packetCtx.ip)
  (protocol : (packetIn frame).protocol = ipv4ProtocolIcmp)

include foreign type dst protocol

/-- A frame with an ICMP message for the client, not taken for the client's own. -/
theorem sentFrames_processEther_icmp :
    sentFrames (processEther env ⟨.frame, frame, 0⟩ frame.length s).events =
      sentFrames (processIcmp env.now (packetIn frame) (s.heard env frame)).events := by
  have etherType : (etherAt ⟨.frame, frame, 0⟩ frame.length).type = etherTypeIpv4 := type
  unfold processEther
  rw [sentFrames_of_quiet (sentFrames_parseEther _ _ s), parseEther_value, parseEther_state,
    Proc.read_bind, if_neg (by exact foreign), if_neg (by rw [etherType]; decide), if_pos etherType]
  unfold processIpv4
  rw [sentFrames_of_quiet (sentFrames_parseIpv4 _ s), parseIpv4_value, parseIpv4_state,
    sentFrames_of_quiet rfl, Proc.read_bind, if_pos (by exact dst), if_pos (by exact protocol)]
  rfl

theorem processEther_icmp_state :
    (processEther env ⟨.frame, frame, 0⟩ frame.length s).state =
      (processIcmp env.now (packetIn frame) (s.heard env frame)).state := by
  have etherType : (etherAt ⟨.frame, frame, 0⟩ frame.length).type = etherTypeIpv4 := type
  unfold processEther
  rw [Proc.bind_state, parseEther_value, parseEther_state, Proc.read_bind, if_neg (by exact foreign),
    if_neg (by rw [etherType]; decide), if_pos etherType]
  unfold processIpv4
  rw [Proc.bind_state, parseIpv4_value, parseIpv4_state, Proc.bind_state, Proc.read_bind, if_pos (by exact dst),
    if_pos (by exact protocol)]
  rfl

end Delivered

/-- Another context that a frame with an ICMP message is addressed to always sends
something, unless it takes the frame for its own. -/
theorem icmpFrame_silent_iff (s : LanPlay) (dstMac : Mac) (message : Bytes)
    (fits : etherHeaderLen + ipv4HeaderLen + message.length < bufferSize) (env : Env) {other : LanPlay}
    (sized : other.packetCtx.bufferLen = bufferSize) :
    sentFrames (processEther env ⟨.frame, icmpFrame s dstMac other.packetCtx.ip message, 0⟩
        (icmpFrame s dstMac other.packetCtx.ip message).length other).events = [] ↔
      cmpMac s.packetCtx.mac other.packetCtx.mac = true := by
  let frame := icmpFrame s dstMac other.packetCtx.ip message
  have ping : PingFrame frame _ _ _ := icmpFrame_pingFrame s dstMac other.packetCtx.ip fits
  by_cases own : cmpMac s.packetCtx.mac other.packetCtx.mac = true
  · refine iff_of_true (sentFrames_processEther_own env _ _ ?_) own
    change cmpMac (octetsAt 6 frame etherOffSrc) _ = true
    rwa [ping.mac]
  · refine iff_of_false ?_ own
    rw [sentFrames_processEther_icmp env frame (by rwa [ping.mac]) ping.type ping.dst ping.protocol]
    exact processIcmp_sends (by exact sized) env.now ping.complete ping.totalLen ping.fits

/-- A client answers pings and nothing else, and its answer leaves the context it goes to
silent, exactly if the sender is unknown, or the message is a request just if a reply fits
and the other context takes the reply for its own frame. -/
theorem processIcmp_answers_pings_iff (s : LanPlay) (sized : s.packetCtx.bufferLen = bufferSize) (now : Int)
    (ipv4 : Ipv4) (own : IcmpToOwn s ipv4) (env : Env) (other : LanPlay)
    (otherSized : other.packetCtx.bufferLen = bufferSize) (addressed : other.packetCtx.ip = ipv4.src) :
    (AnswersPings now s ipv4 ∧ ∀ frame ∈ sentPackets (processIcmp now ipv4 s).events,
        sentFrames (processEther env ⟨.frame, frame, 0⟩ frame.length other).events = []) ↔
      (s.Knows now ipv4.src → (byteAt ipv4.message 0 = icmpEchoRequest ↔ ReplyFits ipv4) ∧
        (ReplyFits ipv4 → cmpMac s.packetCtx.mac other.packetCtx.mac = true)) := by
  rw [answersPings_iff sized now own]
  obtain ⟨known, fits, dstMac, sum, sent⟩ | ⟨silent, sent⟩ := sentPackets_processIcmp sized now own
  · have size : (icmpPart ipv4 sum).bytes.length = ipv4.messageLen := Payload.length_bytes _
    have delivered := icmpFrame_silent_iff s dstMac (icmpPart ipv4 sum).bytes (by rwa [size]) env otherSized
    rw [addressed] at delivered
    rw [sent, List.forall_mem_singleton, delivered, forall_prop_of_true known, forall_prop_of_true known,
      forall_prop_of_true fits]
  · rw [sent, and_iff_left (List.forall_mem_nil _)]
    refine forall_congr' fun known => ?_
    rw [and_iff_left fun fits => absurd ⟨known, fits⟩ silent]

/-- An ICMP message of the station that `oneStation` knows. -/
def fromStation (message : Bytes) : Ipv4 :=
  packetIn (etherHeader broadcastMac noneMac etherTypeIpv4 ++
    (sealedIpv4Header 28 0 ipv4ProtocolIcmp subnetNet serverIp ++ message))

def pingRequest : Ipv4 := fromStation [8, 0, 0xf7, 0xfc, 0, 1, 0, 2]

def pingReply : Ipv4 := fromStation [0, 0, 0xff, 0xfc, 0, 1, 0, 2]

/-- The station as a context of its own, with the given MAC. -/
def stationContext (mac : Mac) : LanPlay :=
  let fresh := lanPlayStart 0 none (fun _ => 0) fun _ => 0
  { fresh with packetCtx.ip := subnetNet, packetCtx.mac := mac }

theorem knows_station : oneStation.Knows 1 subnetNet := by decide +kernel

theorem processIcmp_answers_pings_request :
    IcmpToOwn oneStation pingRequest ∧ oneStation.Knows 1 pingRequest.src ∧
      AnswersPings 1 oneStation pingRequest ∧
        ∀ frame ∈ sentPackets (processIcmp 1 pingRequest oneStation).events,
          sentFrames (processEther ⟨1, id, fun _ => []⟩ ⟨.frame, frame, 0⟩ frame.length
            (stationContext broadcastMac)).events = [] := by
  have own : IcmpToOwn oneStation pingRequest := by constructor <;> decide
  have answers := processIcmp_answers_pings_iff oneStation rfl 1 pingRequest own ⟨1, id, fun _ => []⟩
    (stationContext broadcastMac) rfl (by decide)
  exact ⟨own, knows_station, answers.mpr fun _ => ⟨by decide, fun _ => by decide⟩⟩

/-- An echo reply is answered. -/
theorem processIcmp_answers_reply :
    IcmpToOwn oneStation pingReply ∧ byteAt pingReply.message 0 = icmpEchoReply ∧
      sentPackets (processIcmp 1 pingReply oneStation).events ≠ [] := by
  have own : IcmpToOwn oneStation pingReply := by constructor <;> decide
  have fits : ReplyFits pingReply := by decide
  obtain ⟨-, -, dstMac, sum, sent⟩ | ⟨silent, -⟩ := sentPackets_processIcmp rfl 1 own
  · exact ⟨own, by decide, by rw [sent]; exact List.cons_ne_nil _ _⟩
  · exact absurd ⟨knows_station, fits⟩ silent

end SwitchLanPlay
