import SwitchLanPlay.Lan.Checksum
import SwitchLanPlay.Lan.Footprint
import SwitchLanPlay.Lan.Interfaces

/-!
# Datagrams to the local network

`send_udp_ex` (`udp.c`) prepends three headers to a payload and fills in two
checksums, the one over a chain of parts that is not the chain that is sent.  The
frames that leave are compared here with what `parse_ether`, `parse_ipv4` and
`parse_udp` read from them.
-/

namespace SwitchLanPlay

open Library

/-! ## Model -/

abbrev udpOffLength : Nat := 4
abbrev udpOffChecksum : Nat := 6

structure Udp where
  ipv4 : Ipv4
  srcport : Nat
  dstport : Nat
  length : Nat
  checksum : Nat
  payload : Ptr

def parseUdp (ipv4 : Ipv4) : Proc LanPlay Event Udp := do
  let packet := ipv4.payload
  let srcport ← readNet16 packet udpOffSrcport
  let dstport ← readNet16 packet udpOffDstport
  let length ← readNet16 packet udpOffLength
  let checksum ← readNet16 packet udpOffChecksum
  pure { ipv4, srcport, dstport, length, checksum, payload := packet.plus udpOffEnd }

/-- The three parsers, one on what the other leaves. -/
def parseFrame (frame : Bytes) : Proc LanPlay Event Udp := do
  let ether ← parseEther ⟨.frame, frame, 0⟩ frame.length
  let ipv4 ← parseIpv4 ether
  parseUdp ipv4

/-- The payload that a parsed datagram declares. -/
def Udp.data (udp : Udp) : Bytes := slice udp.payload.memory udp.payload.offset (udp.length - udpOffEnd)

/-! ## What a receiver expects -/

/-- The pseudo header of the datagram in a frame, without IPv4 options. -/
def framePseudoHeader (frame : Bytes) : Bytes :=
  slice frame 26 8 ++ [0, byteAt frame 23] ++ slice frame 38 2

/-- The lengths that the headers declare are the real ones, and both sums are right. -/
structure ValidDatagram (frame : Bytes) : Prop where
  totalLen : net16At frame 16 = frame.length - etherHeaderLen
  udpLength : net16At frame 38 = frame.length - (etherHeaderLen + ipv4HeaderLen)
  headerSum : onesSum (wordsOf (slice frame etherHeaderLen ipv4HeaderLen)) = 0xffff
  segmentSum :
    onesSum (wordsOf (framePseudoHeader frame ++ frame.drop (etherHeaderLen + ipv4HeaderLen))) = 0xffff

/-- What is read from the frame of a datagram. -/
structure Udp.Describes (udp : Udp) (dstMac srcMac : Mac) (src : Ip) (srcport : Nat) (dst : Ip)
    (dstport : Nat) (payload : Bytes) : Prop where
  dstMac : udp.ipv4.ether.dst = dstMac
  srcMac : udp.ipv4.ether.src = srcMac
  etherType : udp.ipv4.ether.type = etherTypeIpv4
  version : udp.ipv4.version = 4
  headerLen : udp.ipv4.headerLen = ipv4HeaderLen
  totalLen : udp.ipv4.totalLen = ipv4HeaderLen + udp.length
  protocol : udp.ipv4.protocol = ipv4ProtocolUdp
  src : udp.ipv4.src = src
  dst : udp.ipv4.dst = dst
  srcport : udp.srcport = srcport
  dstport : udp.dstport = dstport
  length : udp.length = udpOffEnd + payload.length
  data : udp.data = payload

/-! ## Sending -/

theorem sentFrames_append (first second : List Event) :
    sentFrames (first ++ second) = sentFrames first ++ sentFrames second := List.filterMap_append

/-- The event is an access to memory. -/
def Event.Loads : Event → Prop
  | .load _ _ _ => True
  | _ => False

theorem sentFrames_of_loads {events : List Event} (loads : ∀ event ∈ events, event.Loads) :
    sentFrames events = [] := by
  apply List.filterMap_eq_nil_iff.mpr
  intro event member
  cases event with
  | load region offset size => rfl
  | _ => exact (loads _ member).elim

/-- A chain that fits is copied as a whole. -/
theorem copyParts_of_fits {σ : Type} (bufferLen : Nat) (chain : List Payload) (s : σ) (offset : Nat)
    (fits : offset + (chain.map Payload.len).sum < bufferLen) :
    (copyParts bufferLen offset chain s).value = some (chainBytes chain) := by
  induction chain generalizing offset with
  | nil => rfl
  | cons part rest ih =>
      rw [List.map_cons, List.sum_cons, ← Nat.add_assoc] at fits
      rw [copyParts, if_neg (by omega)]
      simp only [Proc.bind_value, loadBytes_state, ih _ fits]
      rfl

/-- The computation returns zero and sends one frame. -/
def SendsFrame (m : Proc LanPlay Event Int) (s : LanPlay) (frame : Bytes) : Prop :=
  (m s).value = 0 ∧ sentFrames (m s).events = [frame]

/-- A computation that sends nothing comes first. -/
theorem SendsFrame.after {α : Type} {first : Proc LanPlay Event α} {next : α → Proc LanPlay Event Int}
    {s t : LanPlay} {frame : Bytes} (moved : (first s).state = t) (loads : first.Emits Event.Loads s)
    (sends : SendsFrame (next (first s).value) t frame) : SendsFrame (first >>= next) s frame := by
  constructor
  · rw [Proc.bind_value, moved]
    exact sends.1
  · rw [Proc.bind_events, sentFrames_append, sentFrames_of_loads loads, moved]
    exact sends.2

theorem sendPayloads_of_fits {s : LanPlay} (sized : s.packetCtx.bufferLen = bufferSize)
    (chain : List Payload) (fits : (chain.map Payload.len).sum < bufferSize) :
    SendsFrame (sendPayloads chain) s (chainBytes chain) := by
  have copied := copyParts_of_fits bufferSize chain s 0 (by rwa [Nat.zero_add])
  constructor
  · unfold sendPayloads
    rw [Proc.read_bind, Proc.bind_value, sized, copied]
    rfl
  · rw [sentFrames_sendPayloads _ _ sized, copied]
    rfl

def etherHeader (dst src : Mac) (type : Nat) : Bytes := List.ofFn dst ++ List.ofFn src ++ net16 type

theorem length_etherHeader (dst src : Mac) (type : Nat) :
    (etherHeader dst src type).length = etherHeaderLen := rfl

theorem sendEther_of_fits {s : LanPlay} (sized : s.packetCtx.bufferLen = bufferSize) (dst : Mac)
    (type : Nat) (chain : List Payload) (fits : etherHeaderLen + (chain.map Payload.len).sum < bufferSize) :
    SendsFrame (sendEther dst type chain) s (etherHeader dst s.packetCtx.mac type ++ chainBytes chain) := by
  have whole := sendPayloads_of_fits sized (.ofBytes (etherHeader dst s.packetCtx.mac type) :: chain) fits
  rwa [chainBytes_cons, Payload.bytes_ofBytes] at whole

/-- A header with the checksum that was taken with a zero in its place. -/
def sealedIpv4Header (totalLen identification protocol : Nat) (src dst : Ip) : Bytes :=
  ipv4Header totalLen identification protocol
    (internetChecksum (ipv4Header totalLen identification protocol 0 src dst)) src dst

/-- `calc_checksum` of a header without its checksum. -/
theorem calcChecksum_ipv4Header (totalLen identification protocol : Nat) (src dst : Ip) (s : LanPlay) :
    (calcChecksum ⟨.header, ipv4Header totalLen identification protocol 0 src dst, 0⟩ ipv4HeaderLen s).value =
      internetChecksum (ipv4Header totalLen identification protocol 0 src dst) := by
  have even : ipv4HeaderLen % 2 = 0 ∨ byteAt (ipv4Header totalLen identification protocol 0 src dst)
      (0 + (ipv4HeaderLen - 1)) = 0 := .inl rfl
  rw [(calcChecksum_eq_iff ⟨.header, ipv4Header totalLen identification protocol 0 src dst, 0⟩ (by decide) s).mpr even]
  exact congrArg internetChecksum (slice_full (ipv4Header totalLen identification protocol 0 src dst))

/-- `send_ipv4_ex` to a station in the ARP cache. -/
theorem sendIpv4Ex_of_fits {s : LanPlay} {now : Int} {dst : Ip} {slot : Fin arpCacheLen}
    (known : s.packetCtx.arpFind now dst = some slot) (sized : s.packetCtx.bufferLen = bufferSize)
    (src : Ip) (protocol : Nat) (payload : List Payload)
    (fits : etherHeaderLen + (ipv4HeaderLen + (payload.map Payload.len).sum) < bufferSize) :
    SendsFrame (sendIpv4Ex now src dst protocol payload) s
      (etherHeader (s.packetCtx.arpList slot).mac s.packetCtx.mac etherTypeIpv4 ++
        (sealedIpv4Header (ipv4HeaderLen + (payload.map Payload.len).sum) s.packetCtx.identification protocol
          src dst ++ chainBytes payload)) := by
  let header := fun checksum => ipv4Header (ipv4HeaderLen + (payload.map Payload.len).sum)
    s.packetCtx.identification protocol checksum src dst
  have total : payloadTotalLen payload = (payload.map Payload.len).sum :=
    Nat.mod_eq_of_lt (by simp only [bufferSize] at fits; omega)
  let counted : LanPlay := { s with
    packetCtx.identification := (s.packetCtx.identification + 1) % 2 ^ 16 }
  have checksum : (calcChecksum ⟨.header, header 0, 0⟩ ipv4HeaderLen counted).value = internetChecksum (header 0) :=
    calcChecksum_ipv4Header _ _ _ _ _ _
  have sends := sendEther_of_fits (s := counted) sized (s.packetCtx.arpList slot).mac etherTypeIpv4
    (.ofBytes (header (internetChecksum (header 0))) :: payload) fits
  rw [chainBytes_cons, Payload.bytes_ofBytes] at sends
  have found : arpGetMacByIp now dst counted = ⟨some (s.packetCtx.arpList slot).mac, counted, []⟩ := by
    have there : counted.packetCtx.arpFind now dst = some slot := known
    unfold arpGetMacByIp
    rw [Proc.read_bind, there]
    rfl
  unfold sendIpv4Ex
  rw [total]
  apply SendsFrame.after rfl Proc.emits_read
  apply SendsFrame.after (t := counted) rfl (Proc.emits_update _)
  apply SendsFrame.after (calcChecksum_state _ _ _) (emits_calcChecksum _ _ _ fun _ _ => trivial)
  apply SendsFrame.after (t := counted) (by rw [found]) (by rw [Proc.Emits, found]; exact List.forall_mem_nil _)
  rw [found]
  change SendsFrame (sendEther _ _
    (.ofBytes (header (calcChecksum ⟨.header, header 0, 0⟩ ipv4HeaderLen counted).value) :: payload)) counted _
  rw [checksum]
  exact sends

/-! ## The frame of a datagram -/

def sealedUdpHeader (src : Ip) (srcport : Nat) (dst : Ip) (dstport : Nat) (data : Bytes) : Bytes :=
  udpHeader srcport dstport (udpOffEnd + data.length)
    (internetChecksum (udpPseudoHeader src dst (udpOffEnd + data.length) ++
      (udpHeader srcport dstport (udpOffEnd + data.length) 0 ++ data)))

def udpFrame (dstMac srcMac : Mac) (identification : Nat) (src : Ip) (srcport : Nat) (dst : Ip)
    (dstport : Nat) (data : Bytes) : Bytes :=
  etherHeader dstMac srcMac etherTypeIpv4 ++
    (sealedIpv4Header (ipv4HeaderLen + (udpOffEnd + data.length)) identification ipv4ProtocolUdp src dst ++
      (sealedUdpHeader src srcport dst dstport data ++ data))

theorem sendUdpEx_of_fits {s : LanPlay} {now : Int} {dst : Ip} {slot : Fin arpCacheLen}
    (known : s.packetCtx.arpFind now dst = some slot) (sized : s.packetCtx.bufferLen = bufferSize)
    (src : Ip) (srcport dstport : Nat) (payload : Payload)
    (fits : etherHeaderLen + ipv4HeaderLen + udpOffEnd + payload.len < bufferSize) :
    SendsFrame (sendUdpEx now src srcport dst dstport [payload]) s
      (udpFrame (s.packetCtx.arpList slot).mac s.packetCtx.mac s.packetCtx.identification src srcport dst
        dstport payload.bytes) := by
  simp only [etherHeaderLen, ipv4HeaderLen, udpOffEnd, bufferSize] at fits
  have length : (udpOffEnd + payloadTotalLen [payload]) % 2 ^ 16 = udpOffEnd + payload.bytes.length := by
    rw [Payload.length_bytes]
    simp only [payloadTotalLen, List.map_cons, List.map_nil, List.sum_singleton, udpOffEnd]
    omega
  have alone : chainBytes [payload] = payload.bytes := List.append_nil _
  have whole : WholeWords [12, 8, payload.len] := trivial
  have shape : [Payload.ofBytes (udpPseudoHeader src dst (udpOffEnd + payload.bytes.length)),
      .ofBytes (udpHeader srcport dstport (udpOffEnd + payload.bytes.length) 0), payload].map Payload.len =
        [12, 8, payload.len] := rfl
  have short : [12, 8, payload.len].sum ≤ 65535 := by
    simp only [List.sum_cons, List.sum_nil]
    omega
  have checksum := calcPayloadChecksum_value whole short shape s
  rw [chainBytes_cons, chainBytes_cons, alone, Payload.bytes_ofBytes, Payload.bytes_ofBytes] at checksum
  unfold sendUdpEx
  rw [length]
  apply SendsFrame.after (t := s)
  · exact payloadSum_state s _ 0
  · exact (Proc.emits_bind _ _).mpr ⟨emits_payloadSum s _ (fun _ _ _ _ => trivial) 0, Proc.emits_pure _⟩
  rw [checksum]
  generalize sum : internetChecksum _ = udpChecksum
  have total : ([Payload.ofBytes (udpHeader srcport dstport (udpOffEnd + payload.bytes.length) udpChecksum),
      payload].map Payload.len).sum = udpOffEnd + payload.bytes.length := by
    rw [Payload.length_bytes]
    rfl
  have sends := sendIpv4Ex_of_fits known sized src ipv4ProtocolUdp
    [.ofBytes (udpHeader srcport dstport (udpOffEnd + payload.bytes.length) udpChecksum), payload]
    (by rw [total, Payload.length_bytes]; simp only [etherHeaderLen, ipv4HeaderLen, udpOffEnd, bufferSize]; omega)
  rw [total, chainBytes_cons, alone, Payload.bytes_ofBytes, ← sum] at sends
  rw [← sum]
  exact sends

section Frame

variable (dstMac srcMac : Mac) (identification : Nat) (src : Ip) (srcport : Nat) (dst : Ip) (dstport : Nat)
  (data : Bytes)

theorem length_udpFrame :
    (udpFrame dstMac srcMac identification src srcport dst dstport data).length =
      etherHeaderLen + ipv4HeaderLen + udpOffEnd + data.length := by
  simp only [udpFrame, List.length_append, length_etherHeader]
  change 14 + (20 + (8 + data.length)) = 14 + 20 + 8 + data.length
  omega

theorem onesSum_sealedIpv4Header (totalLen protocol : Nat) :
    onesSum (wordsOf (sealedIpv4Header totalLen identification protocol src dst)) = 0xffff := by
  have layout (checksum : Nat) : ipv4Header totalLen identification protocol checksum src dst =
      [0x45, 0x00] ++ net16 totalLen ++ net16 identification ++ net16 0 ++ [128, UInt8.ofNat protocol] ++
        net16 checksum ++ (List.ofFn src ++ List.ofFn dst) := by
    rw [ipv4Header, List.append_assoc]
  rw [sealedIpv4Header, layout, layout 0]
  apply onesSum_wordsOf_checksum
  simp [net16]

theorem onesSum_sealedUdpHeader :
    onesSum (wordsOf (udpPseudoHeader src dst (udpOffEnd + data.length) ++
      (sealedUdpHeader src srcport dst dstport data ++ data))) = 0xffff := by
  have layout (checksum : Nat) : udpPseudoHeader src dst (udpOffEnd + data.length) ++
      (udpHeader srcport dstport (udpOffEnd + data.length) checksum ++ data) =
        udpPseudoHeader src dst (udpOffEnd + data.length) ++
          (net16 srcport ++ net16 dstport ++ net16 (udpOffEnd + data.length)) ++ net16 checksum ++ data := by
    simp only [udpHeader, List.append_assoc]
  rw [sealedUdpHeader, layout, layout 0]
  apply onesSum_wordsOf_checksum
  simp [udpPseudoHeader, net16]

theorem udpFrame_header :
    slice (udpFrame dstMac srcMac identification src srcport dst dstport data) etherHeaderLen ipv4HeaderLen =
      sealedIpv4Header (ipv4HeaderLen + (udpOffEnd + data.length)) identification ipv4ProtocolUdp src dst :=
  (slice_append_right (etherHeader dstMac srcMac etherTypeIpv4) _ ipv4HeaderLen).trans
    (slice_append_left (sealedIpv4Header _ _ _ _ _) _)

theorem udpFrame_segment :
    (udpFrame dstMac srcMac identification src srcport dst dstport data).drop
        (etherHeaderLen + ipv4HeaderLen) = sealedUdpHeader src srcport dst dstport data ++ data := rfl

theorem framePseudoHeader_udpFrame :
    framePseudoHeader (udpFrame dstMac srcMac identification src srcport dst dstport data) =
      udpPseudoHeader src dst (udpOffEnd + data.length) := rfl

theorem udpFrame_valid (short : data.length ≤ 65507) :
    ValidDatagram (udpFrame dstMac srcMac identification src srcport dst dstport data) where
  totalLen := by
    rw [length_udpFrame]
    refine (net16_toNat _).trans ?_
    simp only [etherHeaderLen, ipv4HeaderLen, udpOffEnd]
    omega
  udpLength := by
    rw [length_udpFrame]
    refine (net16_toNat _).trans ?_
    simp only [etherHeaderLen, ipv4HeaderLen, udpOffEnd]
    omega
  headerSum := by
    rw [udpFrame_header]
    exact onesSum_sealedIpv4Header identification src dst _ ipv4ProtocolUdp
  segmentSum := by
    rw [udpFrame_segment, framePseudoHeader_udpFrame]
    exact onesSum_sealedUdpHeader src srcport dst dstport data

theorem udpFrame_data :
    slice (udpFrame dstMac srcMac identification src srcport dst dstport data) 42 data.length = data := by
  have layers : udpFrame dstMac srcMac identification src srcport dst dstport data =
      (etherHeader dstMac srcMac etherTypeIpv4 ++
        (sealedIpv4Header (ipv4HeaderLen + (udpOffEnd + data.length)) identification ipv4ProtocolUdp src dst ++
          sealedUdpHeader src srcport dst dstport data)) ++ data := by
    simp only [udpFrame, List.append_assoc]
  rw [layers]
  exact (slice_append_right _ data data.length).trans (slice_full data)

/-- Where the three parsers look in a frame without IPv4 options. -/
theorem parseFrame_value {frame : Bytes} (verLen : byteAt frame etherOffEnd = 0x45) (s : LanPlay) :
    (parseFrame frame s).value =
      { ipv4 := ipv4At (etherAt ⟨.frame, frame, 0⟩ frame.length)
        srcport := net16At frame 34
        dstport := net16At frame 36
        length := net16At frame 38
        checksum := net16At frame 40
        payload := ⟨.frame, frame, 42⟩ } := by
  have header : (ipv4At (etherAt ⟨.frame, frame, 0⟩ frame.length)).payload = ⟨.frame, frame, 34⟩ := by
    have first : verLenAt ⟨.frame, frame, etherOffEnd⟩ = 0x45 := congrArg UInt8.toNat verLen
    change (⟨.frame, frame, 14 + verLenAt ⟨.frame, frame, etherOffEnd⟩ % 16 * 4⟩ : Ptr) = _
    rw [first]
  change (parseUdp (ipv4At (etherAt ⟨.frame, frame, 0⟩ frame.length)) s).value = _
  simp only [parseUdp, Proc.bind_value, Proc.pure_value, readNet16_value, header]
  rfl

theorem parseFrame_udpFrame (s : LanPlay) (srcportFits : srcport < 2 ^ 16) (dstportFits : dstport < 2 ^ 16)
    (short : data.length ≤ 65507) :
    (parseFrame (udpFrame dstMac srcMac identification src srcport dst dstport data) s).value.Describes
      dstMac srcMac src srcport dst dstport data := by
  have valid := udpFrame_valid dstMac srcMac identification src srcport dst dstport data short
  have size := length_udpFrame dstMac srcMac identification src srcport dst dstport data
  have totalLen := valid.totalLen
  have udpLength := valid.udpLength
  rw [size, Nat.add_assoc, Nat.add_assoc, Nat.add_sub_cancel_left] at totalLen
  rw [size, Nat.add_assoc, Nat.add_sub_cancel_left] at udpLength
  have verLen : verLenAt ⟨.frame, udpFrame dstMac srcMac identification src srcport dst dstport data,
      etherOffEnd⟩ = 0x45 := rfl
  rw [parseFrame_value rfl]
  constructor
  case dstMac =>
    funext index
    fin_cases index <;> rfl
  case srcMac =>
    funext index
    fin_cases index <;> rfl
  case etherType => rfl
  case version => exact congrArg (· / 16) verLen
  case headerLen => exact congrArg (· % 16 * 4) verLen
  case totalLen => exact totalLen.trans (congrArg (ipv4HeaderLen + ·) udpLength.symm)
  case protocol => rfl
  case src =>
    funext index
    fin_cases index <;> rfl
  case dst =>
    funext index
    fin_cases index <;> rfl
  case srcport => exact (net16_toNat srcport).trans (Nat.mod_eq_of_lt srcportFits)
  case dstport => exact (net16_toNat dstport).trans (Nat.mod_eq_of_lt dstportFits)
  case length => exact udpLength
  case data =>
    dsimp only [Udp.data]
    rw [udpLength, Nat.add_sub_cancel_left]
    exact udpFrame_data dstMac srcMac identification src srcport dst dstport data

end Frame

/-- `send_udp_ex` to a station in the ARP cache hands one frame on, whose lengths and
sums are right and from which the three parsers read what was given to it. -/
theorem sendUdpEx_parses_back (s : LanPlay) (sized : s.packetCtx.bufferLen = bufferSize) (now : Int)
    (src : Ip) (srcport : Nat) (srcportFits : srcport < 2 ^ 16) (dst : Ip) (dstport : Nat)
    (dstportFits : dstport < 2 ^ 16) (payload : Payload) (slot : Fin arpCacheLen)
    (known : s.packetCtx.arpFind now dst = some slot) (fits : 14 + 20 + 8 + payload.len < 2048) :
    ∃ frame, SendsFrame (sendUdpEx now src srcport dst dstport [payload]) s frame ∧ ValidDatagram frame ∧
      ∀ t, (parseFrame frame t).value.Describes (s.packetCtx.arpList slot).mac s.packetCtx.mac src srcport
        dst dstport payload.bytes := by
  have short : payload.bytes.length ≤ 65507 := by
    rw [Payload.length_bytes]
    omega
  refine ⟨_, sendUdpEx_of_fits known sized src srcport dstport payload fits, ?_, ?_⟩
  · exact udpFrame_valid _ _ _ src srcport dst dstport payload.bytes short
  · intro t
    exact parseFrame_udpFrame _ _ _ src srcport dst dstport payload.bytes t srcportFits dstportFits short

/-- A client that has learned one station. -/
def oneStation : LanPlay :=
  let fresh := lanPlayStart 0 none (fun _ => 0) fun _ => 0
  { fresh with packetCtx := fresh.packetCtx.arpSet 0 noneMac subnetNet }

theorem sendUdpEx_parses_back_odd :
    oneStation.packetCtx.arpFind 1 subnetNet = some 0 ∧
      ∃ frame, SendsFrame (sendUdpEx 1 serverIp 7 subnetNet 8 [.ofBytes [1, 2, 3]]) oneStation frame ∧
        ValidDatagram frame ∧ ∀ t, (parseFrame frame t).value.Describes (oneStation.packetCtx.arpList 0).mac
          oneStation.packetCtx.mac serverIp 7 subnetNet 8 (Payload.ofBytes [1, 2, 3]).bytes := by
  have known : oneStation.packetCtx.arpFind 1 subnetNet = some 0 := by decide +kernel
  exact ⟨known, sendUdpEx_parses_back oneStation rfl 1 serverIp 7 (by decide) subnetNet 8 (by decide)
    (.ofBytes [1, 2, 3]) 0 known (by decide)⟩

end SwitchLanPlay
