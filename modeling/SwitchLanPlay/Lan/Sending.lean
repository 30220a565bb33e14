import SwitchLanPlay.Lan.Ethernet

/-!
# What sending a frame does

Sending changes counters only, and performs only loads of the parts of the
chain, of headers, and the hand-over of the frame.  Whether a chain fits the
send buffer decides between its loads and the `tooLarge` branch.
-/

namespace SwitchLanPlay

open Library SlotTable

/-! ## Frames -/

/-- The state without what sending changes: its counters, and the request for
one real broadcast. -/
def LanPlay.core (s : LanPlay) : LanPlay :=
  { s with
    packetCtx.uploadByte := 0
    packetCtx.uploadPacket := 0
    packetCtx.identification := 0
    nextRealBroadcast := false }

/-- The events that sending parts of a region may perform. -/
structure Sends (Q : Event → Prop) (region : Region) : Prop where
  load : ∀ offset size, Q (.load region offset size)
  header : ∀ offset size, Q (.load .header offset size)
  tooLarge : ∀ wanted, Q (.tooLarge wanted)
  sendPacket : ∀ frame, Q (.sendPacket frame)

theorem sends_anything (region : Region) : Sends (fun _ => True) region :=
  ⟨fun _ _ => trivial, fun _ _ => trivial, fun _ => trivial, fun _ => trivial⟩

section Frames

variable {Q : Event → Prop} {region : Region}

theorem loadBytes_framed {pointer : Ptr} {size : Nat}
    (allowed : Q (.load pointer.region pointer.offset size)) :
    (loadBytes pointer size).Framed LanPlay.core Q :=
  (Proc.framed_emit allowed).bind fun _ => Proc.framed_pure _

theorem cpyIpv4_framed {pointer : Ptr} (allowed : Q (.load pointer.region pointer.offset 4)) :
    (cpyIpv4 pointer).Framed LanPlay.core Q :=
  (Proc.framed_emit allowed).bind fun _ => Proc.framed_pure _

theorem copyParts_framed (sends : Sends Q region) (bufferLen : Nat) {chain : List Payload}
    (parts : ∀ part ∈ chain, part.ptr.region = region ∨ part.ptr.region = .header) :
    ∀ offset, (copyParts bufferLen offset chain).Framed LanPlay.core Q := by
  induction chain with
  | nil => exact fun _ => Proc.framed_pure _
  | cons part rest ih =>
      intro offset
      have load : Q (.load part.ptr.region part.ptr.offset part.len) := by
        rcases parts part List.mem_cons_self with here | header
        · rw [here]
          exact sends.load _ _
        · rw [header]
          exact sends.header _ _
      have others := ih fun other member => parts other (List.mem_cons_of_mem _ member)
      unfold copyParts
      refine Proc.framed_ite ?_ ?_
      · exact (Proc.framed_emit (sends.tooLarge _)).bind fun _ => Proc.framed_pure _
      · exact (loadBytes_framed load).bind fun _ => (others _).bind fun _ => Proc.framed_pure _

theorem sendPayloads_framed (sends : Sends Q region) {chain : List Payload}
    (parts : ∀ part ∈ chain, part.ptr.region = region ∨ part.ptr.region = .header) :
    (sendPayloads chain).Framed LanPlay.core Q := by
  unfold sendPayloads
  refine Proc.framed_read.bind fun lanPlay => (copyParts_framed sends _ parts _).bind fun copied => ?_
  cases copied with
  | none => exact Proc.framed_pure _
  | some frame =>
      refine (Proc.framed_update (by exact fun _ => rfl)).bind fun _ => ?_
      exact (Proc.framed_emit (sends.sendPacket _)).bind fun _ => Proc.framed_pure _

theorem sendEther_framed (sends : Sends Q region) (dst : Mac) (type : Nat) {chain : List Payload}
    (parts : ∀ part ∈ chain, part.ptr.region = region ∨ part.ptr.region = .header) :
    (sendEther dst type chain).Framed LanPlay.core Q := by
  refine Proc.framed_read.bind fun _ => sendPayloads_framed sends ?_
  exact List.forall_mem_cons.mpr ⟨Or.inr rfl, parts⟩

theorem sendArpRequest_framed (sends : Sends Q region) (ip : Ip) :
    (sendArpRequest ip).Framed LanPlay.core Q := by
  refine Proc.framed_read.bind fun _ => sendEther_framed sends _ _ ?_
  exact List.forall_mem_singleton.mpr (Or.inr rfl)

theorem arpGetMacByIp_framed (sends : Sends Q region) (now : Int) (ip : Ip) :
    (arpGetMacByIp now ip).Framed LanPlay.core Q := by
  unfold arpGetMacByIp
  refine Proc.framed_read.bind fun lanPlay => ?_
  cases lanPlay.packetCtx.arpFind now ip with
  | some i => exact Proc.framed_pure _
  | none => exact (sendArpRequest_framed sends ip).bind fun _ => Proc.framed_pure _

theorem arpForEachFrom_framed (now : Int) {cb : ArpItem → Proc LanPlay Event Int}
    (framed : ∀ item, (cb item).Framed LanPlay.core Q) (slots : List (Fin arpCacheLen)) :
    (arpForEachFrom now cb slots).Framed LanPlay.core Q := by
  induction slots with
  | nil => exact Proc.framed_pure _
  | cons i rest ih =>
      unfold arpForEachFrom
      refine Proc.framed_read.bind fun lanPlay => Proc.framed_ite ?_ ih
      exact (framed _).bind fun _ => Proc.framed_ite (Proc.framed_pure _) ih

end Frames

/-! ## The frames that are sent -/

/-- The frames sent to the local network. -/
def sentFrames (events : List Event) : List Bytes :=
  events.filterMap fun event =>
    match event with
    | .sendPacket frame => some frame
    | _ => none

theorem sendPayloads_events (chain : List Payload) (s : LanPlay) :
    (sendPayloads chain s).events =
      (copyParts s.packetCtx.bufferLen 0 chain s).events ++
        match (copyParts s.packetCtx.bufferLen 0 chain s).value with
        | none => []
        | some frame => [.sendPacket (frame.take (frame.length % 2 ^ 16))] := by
  unfold sendPayloads
  rw [Proc.bind_events, Proc.read_events, List.nil_append, Proc.bind_events, Proc.read_value,
    Proc.read_state]
  cases (copyParts s.packetCtx.bufferLen 0 chain s).value <;> rfl

/-! ## The events of sending, exactly -/

/-- The predicate allows what a handler does besides deriving lengths and
touching the bytes it received: reading its own memory and handing data on. -/
structure Transmits (Q : Event → Prop) : Prop where
  header : ∀ offset size, Q (.load .header offset size)
  icmp : ∀ offset size, Q (.load .icmp offset size)
  lwip : ∀ offset size, Q (.load .lwip offset size)
  sendPacket : ∀ frame, Q (.sendPacket frame)
  datagram : ∀ bytes, Q (.datagram bytes)
  udpSend : ∀ src srcport dst dstport data, Q (.udpSend src srcport dst dstport data)
  lwipInput : ∀ packet, Q (.lwipInput packet)

/-- The parts are read as far as they fit the send buffer. -/
def ChainOk (Q : Event → Prop) (bufferLen : Nat) : Nat → List Payload → Prop
  | _, [] => True
  | offset, part :: rest =>
      if offset + part.len ≥ bufferLen then Q (.tooLarge (offset + part.len))
      else Q (.load part.ptr.region part.ptr.offset part.len) ∧
        ChainOk Q bufferLen (offset + part.len) rest

/-- The last part of a chain, with `before` bytes in front of it. -/
def PartOk (Q : Event → Prop) (before : Nat) (part : Payload) : Prop :=
  if before + part.len ≥ bufferSize then Q (.tooLarge (before + part.len))
  else Q (.load part.ptr.region part.ptr.offset part.len)

/-- The same for a part that the client may read. -/
def FitsOk (Q : Event → Prop) (before len : Nat) : Prop :=
  before + len ≥ bufferSize → Q (.tooLarge (before + len))

section Exact

variable {Q : Event → Prop}

theorem emits_copyParts {σ : Type} (bufferLen : Nat) (chain : List Payload) (s : σ) :
    ∀ offset, (copyParts bufferLen offset chain).Emits Q s ↔ ChainOk Q bufferLen offset chain := by
  induction chain with
  | nil => intro offset; simp [copyParts, ChainOk]
  | cons part rest ih =>
      intro offset
      unfold copyParts ChainOk
      split
      · simp
      · simp [ih]

theorem chainOk_singleton (before : Nat) (part : Payload) :
    ChainOk Q bufferSize before [part] ↔ PartOk Q before part := by
  unfold ChainOk PartOk
  split
  · exact Iff.rfl
  · simp [ChainOk]

theorem partOk_readable {part : Payload} (before : Nat)
    (load : Q (.load part.ptr.region part.ptr.offset part.len)) :
    PartOk Q before part ↔ FitsOk Q before part.len := by
  unfold PartOk FitsOk
  split
  case isTrue large => exact ⟨fun allowed _ => allowed, fun allowed => allowed large⟩
  case isFalse fits => exact iff_of_true load fun large => absurd large fits

variable (transmits : Transmits Q)

include transmits

/-- A header that fits is no matter of concern. -/
theorem chainOk_header {bufferLen offset : Nat} {bytes : Bytes} (rest : List Payload)
    (fits : offset + bytes.length < bufferLen) :
    ChainOk Q bufferLen offset (.ofBytes bytes :: rest) ↔
      ChainOk Q bufferLen (offset + bytes.length) rest := by
  have small : ¬ offset + (Payload.ofBytes bytes).len ≥ bufferLen := not_le_of_gt fits
  rw [ChainOk, if_neg small]
  exact and_iff_right (transmits.header _ _)

theorem emits_sendPayloads (chain : List Payload) (s : LanPlay) :
    (sendPayloads chain).Emits Q s ↔ ChainOk Q s.packetCtx.bufferLen 0 chain := by
  unfold sendPayloads
  rw [Proc.emits_read_bind, Proc.emits_bind, emits_copyParts]
  refine and_iff_left ?_
  split
  · simp
  · simp [transmits.sendPacket]

variable {s : LanPlay} (sized : s.packetCtx.bufferLen = bufferSize)

include sized

theorem emits_sendEther (dst : Mac) (type : Nat) (payload : List Payload) :
    (sendEther dst type payload).Emits Q s ↔ ChainOk Q bufferSize etherHeaderLen payload := by
  have length : (List.ofFn dst ++ List.ofFn s.packetCtx.mac ++ net16 type).length = 14 := by
    simp [net16]
  unfold sendEther
  rw [Proc.emits_read_bind]
  change (sendPayloads (.ofBytes (List.ofFn dst ++ List.ofFn s.packetCtx.mac ++ net16 type) ::
    payload)).Emits Q s ↔ _
  rw [emits_sendPayloads transmits, sized, chainOk_header transmits _ (by rw [length]; decide), length]

theorem emits_sendArpEx (dstMac : Mac) (opcode : Nat) (senderMac : Mac) (senderIp : Ip)
    (targetMac : Mac) (targetIp : Ip) :
    (sendArpEx dstMac opcode senderMac senderIp targetMac targetIp).Emits Q s := by
  have length : (net16 arpHardtypeEther ++ net16 etherTypeIpv4 ++ [6, 4] ++ net16 opcode ++
      List.ofFn senderMac ++ List.ofFn senderIp ++ List.ofFn targetMac ++
        List.ofFn targetIp).length = 28 := by
    simp [net16]
  unfold sendArpEx
  rw [emits_sendEther transmits sized, chainOk_header transmits _ (by rw [length]; decide)]
  trivial

theorem emits_arpGetMacByIp (now : Int) (ip : Ip) : (arpGetMacByIp now ip).Emits Q s := by
  unfold arpGetMacByIp
  rw [Proc.emits_read_bind]
  cases found : s.packetCtx.arpFind now ip with
  | some i => exact Proc.emits_pure _
  | none =>
      rw [Proc.emits_bind, sendArpRequest, Proc.emits_read_bind]
      exact ⟨emits_sendArpEx transmits sized _ _ _ _ _ _, Proc.emits_pure _⟩

/-- Sending to the address of a host, once its entry in the cache is looked
for. -/
theorem emits_arpGetMacByIp_bind (now : Int) (ip : Ip) (next : Option Mac → Proc LanPlay Event Int)
    (unknown : ∀ s, (next none).Emits Q s) (P : Prop)
    (known : ∀ mac, (next (some mac)).Emits Q s ↔ P) :
    (arpGetMacByIp now ip >>= next).Emits Q s ↔
      ((s.packetCtx.arpFind now ip).isSome = true → P) := by
  rw [Proc.emits_bind, and_iff_right (emits_arpGetMacByIp transmits sized now ip)]
  unfold arpGetMacByIp
  cases found : s.packetCtx.arpFind now ip with
  | some i => simp [found, known]
  | none => simp [found, unknown]

end Exact

/-! ## Checksums read and change nothing -/

section Checksums

variable {σ : Type} {Q : Event → Prop}

theorem sumWords_state (s : σ) (count : Nat) :
    ∀ buf, (sumWords buf count s).state = s := by
  induction count with
  | zero => exact fun _ => rfl
  | succ count ih =>
      intro buf
      simp [sumWords, ih]

theorem leftOver_state (buffer : Ptr) (len : Int) (s : σ) : (leftOver buffer len s).state = s := by
  unfold leftOver
  split <;> rfl

theorem calcChecksum_state (buffer : Ptr) (len : Int) (s : σ) :
    (calcChecksum buffer len s).state = s := by
  simp [calcChecksum, sumWords_state, leftOver_state]

theorem emits_sumWords (s : σ) (count : Nat) :
    ∀ buf : Ptr, (∀ offset size, Q (.load buf.region offset size)) →
      (sumWords buf count).Emits Q s := by
  induction count with
  | zero => intro buf _; simp [sumWords]
  | succ count ih =>
      intro buf loads
      simp only [sumWords, Proc.emits_bind, emits_readNet16, Proc.emits_pure, and_true,
        readNet16_state]
      exact ⟨loads _ _, ih _ loads⟩

theorem emits_calcChecksum (buffer : Ptr) (len : Int) (s : σ)
    (loads : ∀ offset size, Q (.load buffer.region offset size)) :
    (calcChecksum buffer len).Emits Q s := by
  unfold calcChecksum leftOver
  simp only [Proc.emits_bind, Proc.emits_ite, emits_readNet8, Proc.emits_pure, and_true, sumWords_state]
  exact ⟨emits_sumWords s _ _ loads, fun _ => loads _ _, fun _ => trivial⟩

end Checksums

/-! ## IPv4 -/

section Ipv4

variable {Q : Event → Prop} (transmits : Transmits Q) {s : LanPlay}
  (sized : s.packetCtx.bufferLen = bufferSize)

include transmits sized

theorem emits_sendIpv4Ex (now : Int) (src dst : Ip) (protocol : Nat) (payload : List Payload) :
    (sendIpv4Ex now src dst protocol payload).Emits Q s ↔
      ((s.packetCtx.arpFind now dst).isSome = true →
        ChainOk Q bufferSize (etherHeaderLen + ipv4HeaderLen) payload) := by
  have length : ∀ totalLen identification checksum,
      (ipv4Header totalLen identification protocol checksum src dst).length = 20 := by
    intro totalLen identification checksum
    simp [ipv4Header, net16]
  unfold sendIpv4Ex
  rw [Proc.emits_read_bind, Proc.emits_update_bind, Proc.emits_bind, calcChecksum_state,
    and_iff_right (emits_calcChecksum _ _ _ transmits.header)]
  refine emits_arpGetMacByIp_bind transmits ?_ now dst _ (fun _ => ?_) _ fun mac => ?_
  · exact sized
  · exact Proc.emits_pure _
  · rw [emits_sendEther transmits (by exact sized), chainOk_header transmits _ (by rw [length]; decide), length]

theorem emits_sendIpv4 (now : Int) (dst : Ip) (protocol : Nat) (payload : List Payload) :
    (sendIpv4 now dst protocol payload).Emits Q s ↔
      ((s.packetCtx.arpFind now dst).isSome = true →
        ChainOk Q bufferSize (etherHeaderLen + ipv4HeaderLen) payload) := by
  unfold sendIpv4
  rw [Proc.emits_read_bind]
  exact emits_sendIpv4Ex transmits sized now _ dst protocol payload

end Ipv4

/-! ## UDP -/

section Udp

theorem payloadSum_state {σ : Type} (s : σ) (chain : List Payload) :
    ∀ offset, (payloadSum offset chain s).state = s := by
  induction chain with
  | nil => exact fun _ => rfl
  | cons part rest ih =>
      intro offset
      unfold payloadSum
      simp only [Proc.bind_state, sumWords_state]
      split
      · cases rest <;> simp [ih]
      · simp [ih]

variable {Q : Event → Prop}

theorem emits_payloadSum {σ : Type} (s : σ) (chain : List Payload) :
    (∀ part ∈ chain, ∀ offset size, Q (.load part.ptr.region offset size)) →
      ∀ offset, (payloadSum offset chain).Emits Q s := by
  induction chain with
  | nil => exact fun _ _ => Proc.emits_pure _
  | cons part rest ih =>
      intro loads offset
      have here := loads part List.mem_cons_self
      have others := ih fun other member => loads other (List.mem_cons_of_mem _ member)
      unfold payloadSum
      rw [Proc.emits_bind, sumWords_state]
      refine ⟨emits_sumWords s _ _ here, ?_⟩
      split
      · cases rest with
        | nil => simpa [others] using here _ _
        | cons next more => simpa [others] using ⟨here _ _, loads next (by simp) _ _⟩
      · simp [others]

variable (transmits : Transmits Q) {s : LanPlay} (sized : s.packetCtx.bufferLen = bufferSize)

include transmits sized

/-- A UDP datagram whose bytes may be read. -/
theorem emits_sendUdpEx (now : Int) (src : Ip) (srcport : Nat) (dst : Ip) (dstport : Nat)
    (part : Payload) (loads : ∀ offset size, Q (.load part.ptr.region offset size)) :
    (sendUdpEx now src srcport dst dstport [part]).Emits Q s ↔
      ((s.packetCtx.arpFind now dst).isSome = true →
        FitsOk Q (etherHeaderLen + ipv4HeaderLen + udpOffEnd) part.len) := by
  have length : ∀ totalLen checksum, (udpHeader srcport dstport totalLen checksum).length = 8 := by
    intro totalLen checksum
    simp [udpHeader, net16]
  have sums : ∀ chain, (∀ p ∈ chain, ∀ offset size, Q (.load p.ptr.region offset size)) →
      ((calcPayloadChecksum chain).Emits Q s ∧ (calcPayloadChecksum chain s).state = s) := by
    intro chain readable
    simp [calcPayloadChecksum, payloadSum_state, emits_payloadSum s chain readable]
  unfold sendUdpEx
  obtain ⟨quiet, kept⟩ := sums
    (.ofBytes (udpPseudoHeader src dst ((udpOffEnd + payloadTotalLen [part]) % 2 ^ 16)) ::
      .ofBytes (udpHeader srcport dstport ((udpOffEnd + payloadTotalLen [part]) % 2 ^ 16) 0) ::
        [part]) (by
      simpa [Payload.ofBytes] using ⟨transmits.header, loads⟩)
  rw [Proc.emits_bind, and_iff_right quiet, kept, emits_sendIpv4Ex transmits sized,
    chainOk_header transmits _ (by rw [length]; decide), length, chainOk_singleton,
    partOk_readable _ (loads _ _)]

end Udp

end SwitchLanPlay
