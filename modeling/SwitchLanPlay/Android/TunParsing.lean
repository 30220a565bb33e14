import SwitchLanPlay.Android.Relay
import SwitchLanPlay.Library.Checked
import SwitchLanPlay.Library.Lines

/-!
# Packets from the TUN

`processFromTun` (`UdpRelayServer.kt`) over any array and any length, with the
exceptions that an access outside the array throws.  The buffer of the VPN loop is
large enough that none is thrown; then the parser is the one of the relay.

The header length is taken from the packet and not compared with anything but the
length that was read; the other lengths and the fragment field are not looked at.
-/

namespace SwitchLanPlay.Android

open Library

/-! ## Arrays -/

/-- What the JVM throws. -/
inductive Thrown where
  | indexOutOfBounds
  | illegalArgument
  deriving DecidableEq

/-- `array[index]` -/
def arrayGet (array : Bytes) (index : Nat) : Except Thrown UInt8 :=
  if index < array.length then .ok (byteAt array index) else .error .indexOutOfBounds

def copyOfRange (array : Bytes) (fromIndex toIndex : Nat) : Except Thrown Bytes :=
  if array.length < toIndex then .error .indexOutOfBounds
  else if toIndex < fromIndex then .error .illegalArgument
  else .ok (slice array fromIndex (toIndex - fromIndex))

theorem arrayGet_eq_ok {array : Bytes} {index : Nat} {byte : UInt8} :
    arrayGet array index = .ok byte ↔ index < array.length ∧ byteAt array index = byte := by
  unfold arrayGet
  split <;> simp_all

theorem copyOfRange_eq_ok {array range : Bytes} {fromIndex toIndex : Nat} :
    copyOfRange array fromIndex toIndex = .ok range ↔
      toIndex ≤ array.length ∧ fromIndex ≤ toIndex ∧ slice array fromIndex (toIndex - fromIndex) = range := by
  unfold copyOfRange
  split
  · simp_all
  · split <;> simp_all

theorem arrayGet_ok {array : Bytes} {index : Nat} (inside : index < array.length) :
    arrayGet array index = .ok (byteAt array index) := if_pos inside

theorem copyOfRange_ok {array : Bytes} {fromIndex toIndex : Nat} (inside : toIndex ≤ array.length)
    (ordered : fromIndex ≤ toIndex) :
    copyOfRange array fromIndex toIndex = .ok (slice array fromIndex (toIndex - fromIndex)) := by
  rw [copyOfRange, if_neg (Nat.not_lt.mpr inside), if_neg (Nat.not_lt.mpr ordered)]

/-! ## Model -/

/-- `InetAddress.getHostAddress` of an IPv4 address. -/
def InetAddress.hostAddress (ip : InetAddress) : String :=
  ip.first.toNat.repr ++ "." ++ ip.second.toNat.repr ++ "." ++ ip.third.toNat.repr ++ "." ++
    ip.fourth.toNat.repr

def getIpString (packet : Bytes) (offset : Nat) : Except Thrown String := do
  let first ← arrayGet packet offset
  let second ← arrayGet packet (offset + 1)
  let third ← arrayGet packet (offset + 2)
  let fourth ← arrayGet packet (offset + 3)
  pure (InetAddress.hostAddress ⟨first, second, third, fourth⟩)

def getPort (packet : Bytes) (offset : Nat) : Except Thrown Nat := do
  let high ← arrayGet packet offset
  let low ← arrayGet packet (offset + 1)
  pure (256 * high.toNat + low.toNat)

/-- The field `gatewayIp`, which is empty when no address was found. -/
def gatewayText (gatewayIp : Option InetAddress) : String :=
  (gatewayIp.map InetAddress.hostAddress).getD ""

/-- The test of `processFromTun` on the destination. -/
def accepts (gatewayIp dstIp : String) : Bool :=
  !(gatewayIp ≠ "" && dstIp ≠ gatewayIp && dstIp ≠ "255.255.255.255")

/-- What `processFromTun` reads behind its checks. -/
def readDatagram (packet : Bytes) (length : Int) (ihl : Nat) : Except Thrown (Option Intercepted) := do
  let address ← copyOfRange packet 12 16
  let srcPort ← getPort packet ihl
  let dstPort ← getPort packet (ihl + 2)
  if length - (ihl + 8 : Nat) ≤ 0 then pure none
  else do
    let payload ← copyOfRange packet (ihl + 8) length.toNat
    pure (some { srcIp := inetAddressAt address 0, srcPort, dstPort, payload })

/-- The checks and reads of `processFromTun`, null where it returns false. -/
def parsePacket (gatewayIp : String) (packet : Bytes) (length : Int) :
    Except Thrown (Option Intercepted) :=
  if length < 28 then pure none
  else do
    let first ← arrayGet packet 0
    if first.toNat / 16 ≠ 4 then pure none
    else do
      let protocol ← arrayGet packet 9
      if protocol ≠ 17 then pure none
      else do
        let dstIp ← getIpString packet 16
        if accepts gatewayIp dstIp then readDatagram packet length (first.toNat % 16 * 4)
        else pure none

/-- `processFromTun`, with what it returns or throws. -/
def processPacket (packet : Bytes) (length : Int) (answer : Option Nat) (now : Int) :
    Proc Relay RelayEvent (Except Thrown Bool) := do
  let relay ← Proc.read
  match parsePacket (gatewayText relay.gatewayIp) packet length with
  | .error thrown => pure (.error thrown)
  | .ok none => pure (.ok false)
  | .ok (some found) => do
      handleInterceptedPacket found.srcIp found.srcPort found.dstPort found.payload answer now
      pure (.ok true)

/-! ## Addresses as texts -/

theorem dot_notMem_toDigits (n : Nat) : '.' ∉ Nat.toDigits 10 n := by
  intro member
  have digit := Nat.isDigit_of_mem_toDigits (by decide) (by decide) member
  revert digit
  decide

theorem toDigits_toNat_inj {byte other : UInt8}
    (same : Nat.toDigits 10 byte.toNat = Nat.toDigits 10 other.toNat) : byte = other := by
  have value := congrArg (Nat.ofDigitChars 10 · 0) same
  rw [Nat.ofDigitChars_ten_toDigits, Nat.ofDigitChars_ten_toDigits] at value
  exact UInt8.toNat_inj.mp value

theorem hostAddress_injective : Function.Injective InetAddress.hostAddress := by
  intro ip other same
  have chars := congrArg String.toList same
  have dot : ".".toList = ['.'] := rfl
  simp only [InetAddress.hostAddress, String.toList_append, Nat.toList_repr, List.append_assoc, dot,
    List.singleton_append] at chars
  obtain ⟨first, chars⟩ := append_separator_inj (dot_notMem_toDigits _) (dot_notMem_toDigits _) chars
  obtain ⟨second, chars⟩ := append_separator_inj (dot_notMem_toDigits _) (dot_notMem_toDigits _) chars
  obtain ⟨third, fourth⟩ := append_separator_inj (dot_notMem_toDigits _) (dot_notMem_toDigits _) chars
  ext1
  · exact toDigits_toNat_inj first
  · exact toDigits_toNat_inj second
  · exact toDigits_toNat_inj third
  · exact toDigits_toNat_inj fourth

theorem hostAddress_ne_empty (ip : InetAddress) : ip.hostAddress ≠ "" := by
  intro empty
  have chars := congrArg String.toList empty
  simp [InetAddress.hostAddress] at chars

theorem hostAddress_broadcastIp : broadcastIp.hostAddress = "255.255.255.255" := by decide

/-- The test of `processFromTun` compares addresses. -/
theorem accepts_gatewayText (gatewayIp : Option InetAddress) (dstIp : InetAddress) :
    accepts (gatewayText gatewayIp) dstIp.hostAddress = true ↔
      ¬ (gatewayIp ≠ none ∧ some dstIp ≠ gatewayIp ∧ dstIp ≠ broadcastIp) := by
  unfold accepts
  rw [← hostAddress_broadcastIp]
  cases gatewayIp with
  | none => simp [gatewayText]
  | some gateway => simp [gatewayText, hostAddress_ne_empty, hostAddress_injective.eq_iff, or_iff_not_imp_left]

/-! ## What is accepted -/

/-- The header length that the first byte declares. -/
def ihlAt (packet : Bytes) : Nat := (byteAt packet 0).toNat % 16 * 4

/-- What is read from a packet whose header has `ihl` bytes. -/
def interceptedAt (packet : Bytes) (length ihl : Nat) : Intercepted where
  srcIp := inetAddressAt packet 12
  srcPort := net16At packet ihl
  dstPort := net16At packet (ihl + 2)
  payload := slice packet (ihl + 8) (length - (ihl + 8))

/-- The packet passes the checks. -/
structure Accepted (gatewayIp : String) (packet : Bytes) (length : Int) : Prop where
  long : 28 ≤ length
  inside : length ≤ packet.length
  version : (byteAt packet 0).toNat / 16 = 4
  protocol : byteAt packet 9 = 17
  destination : accepts gatewayIp (inetAddressAt packet 16).hostAddress = true
  behindHeaders : ihlAt packet + 8 < length

theorem getIpString_eq_ok {packet : Bytes} {offset : Nat} {text : String} :
    getIpString packet offset = .ok text ↔
      offset + 3 < packet.length ∧ (inetAddressAt packet offset).hostAddress = text := by
  unfold getIpString
  simp only [bind_eq_ok, arrayGet_eq_ok]
  constructor
  · rintro ⟨_, ⟨-, rfl⟩, _, ⟨-, rfl⟩, _, ⟨-, rfl⟩, _, ⟨inside, rfl⟩, done⟩
    exact ⟨inside, Except.ok.inj done⟩
  · rintro ⟨inside, rfl⟩
    exact ⟨_, ⟨by omega, rfl⟩, _, ⟨by omega, rfl⟩, _, ⟨by omega, rfl⟩, _, ⟨inside, rfl⟩, rfl⟩

theorem getPort_eq_ok {packet : Bytes} {offset port : Nat} :
    getPort packet offset = .ok port ↔ offset + 1 < packet.length ∧ net16At packet offset = port := by
  unfold getPort
  simp only [bind_eq_ok, arrayGet_eq_ok]
  constructor
  · rintro ⟨_, ⟨-, rfl⟩, _, ⟨inside, rfl⟩, done⟩
    exact ⟨inside, Except.ok.inj done⟩
  · rintro ⟨inside, rfl⟩
    exact ⟨_, ⟨by omega, rfl⟩, _, ⟨inside, rfl⟩, rfl⟩

theorem readDatagram_eq_some {packet : Bytes} {length : Int} {ihl : Nat} {found : Intercepted}
    (long : 28 ≤ length) :
    readDatagram packet length ihl = .ok (some found) ↔
      length ≤ packet.length ∧ ihl + 8 < length ∧ interceptedAt packet length.toNat ihl = found := by
  unfold readDatagram
  constructor
  · intro parsed
    obtain ⟨_, readSrc, parsed⟩ := bind_eq_ok.mp parsed
    obtain ⟨-, -, rfl⟩ := copyOfRange_eq_ok.mp readSrc
    obtain ⟨_, readSrcPort, parsed⟩ := bind_eq_ok.mp parsed
    obtain ⟨-, rfl⟩ := getPort_eq_ok.mp readSrcPort
    obtain ⟨_, readDstPort, parsed⟩ := bind_eq_ok.mp parsed
    obtain ⟨-, rfl⟩ := getPort_eq_ok.mp readDstPort
    split at parsed
    case isTrue => cases parsed
    case isFalse positive =>
      obtain ⟨_, readPayload, parsed⟩ := bind_eq_ok.mp parsed
      obtain ⟨inside, -, rfl⟩ := copyOfRange_eq_ok.mp readPayload
      cases parsed
      exact ⟨by omega, by omega, rfl⟩
  · rintro ⟨inside, behind, rfl⟩
    refine bind_eq_ok.mpr ⟨_, copyOfRange_ok (by omega) (by decide), ?_⟩
    refine bind_eq_ok.mpr ⟨_, getPort_eq_ok.mpr ⟨by omega, rfl⟩, ?_⟩
    refine bind_eq_ok.mpr ⟨_, getPort_eq_ok.mpr ⟨by omega, rfl⟩, ?_⟩
    rw [if_neg (by omega)]
    exact bind_eq_ok.mpr ⟨_, copyOfRange_ok (by omega) (by omega), rfl⟩

theorem parsePacket_eq_some {gatewayIp : String} {packet : Bytes} {length : Int} {found : Intercepted} :
    parsePacket gatewayIp packet length = .ok (some found) ↔
      Accepted gatewayIp packet length ∧ interceptedAt packet length.toNat (ihlAt packet) = found := by
  unfold parsePacket
  constructor
  · intro parsed
    split at parsed
    case isTrue => cases parsed
    case isFalse long =>
      obtain ⟨_, readFirst, parsed⟩ := bind_eq_ok.mp parsed
      obtain ⟨-, rfl⟩ := arrayGet_eq_ok.mp readFirst
      split at parsed
      case isTrue => cases parsed
      case isFalse version =>
        obtain ⟨_, readProtocol, parsed⟩ := bind_eq_ok.mp parsed
        obtain ⟨-, rfl⟩ := arrayGet_eq_ok.mp readProtocol
        split at parsed
        case isTrue => cases parsed
        case isFalse protocol =>
          obtain ⟨_, readDst, parsed⟩ := bind_eq_ok.mp parsed
          obtain ⟨-, rfl⟩ := getIpString_eq_ok.mp readDst
          split at parsed
          case isFalse => cases parsed
          case isTrue destination =>
            obtain ⟨inside, behind, found⟩ := (readDatagram_eq_some (by omega)).mp parsed
            exact ⟨⟨by omega, inside, not_not.mp version, not_not.mp protocol, destination, behind⟩, found⟩
  · rintro ⟨⟨long, inside, version, protocol, destination, behind⟩, found⟩
    rw [if_neg (by omega)]
    refine bind_eq_ok.mpr ⟨_, arrayGet_ok (by omega), ?_⟩
    rw [if_neg (not_not_intro version)]
    refine bind_eq_ok.mpr ⟨_, arrayGet_ok (by omega), ?_⟩
    rw [if_neg (not_not_intro protocol)]
    refine bind_eq_ok.mpr ⟨_, getIpString_eq_ok.mpr ⟨by omega, rfl⟩, ?_⟩
    rw [if_pos destination]
    exact (readDatagram_eq_some long).mpr ⟨inside, behind, found⟩

/-! ## The buffer of the VPN loop -/

/-- No access lies outside an array that has room for the longest header and for the
packet. -/
theorem parsePacket_returns {packet : Bytes} {length : Int} (roomy : 68 ≤ packet.length)
    (inside : length ≤ packet.length) (gatewayIp : String) :
    Returns (parsePacket gatewayIp packet length) := by
  unfold parsePacket readDatagram
  refine returns_ite (fun _ => returns_pure none) fun long => ?_
  apply returns_bind (arrayGet_ok (by omega))
  refine returns_ite (fun _ => returns_pure none) fun _ => ?_
  apply returns_bind (arrayGet_ok (by omega))
  refine returns_ite (fun _ => returns_pure none) fun _ => ?_
  apply returns_bind (getIpString_eq_ok.mpr ⟨by omega, rfl⟩)
  refine returns_ite (fun _ => ?_) fun _ => returns_pure none
  apply returns_bind (copyOfRange_ok (by omega) (by decide))
  apply returns_bind (getPort_eq_ok.mpr ⟨by omega, rfl⟩)
  apply returns_bind (getPort_eq_ok.mpr ⟨by omega, rfl⟩)
  refine returns_ite (fun _ => returns_pure none) fun positive => ?_
  apply returns_bind (copyOfRange_ok (by omega) (by omega))
  exact returns_pure _

theorem parseFromTun_eq_some {gatewayIp : Option InetAddress} {read : TunRead} {found : Intercepted} :
    parseFromTun gatewayIp read = some found ↔
      Accepted (gatewayText gatewayIp) read.buffer read.length ∧
        interceptedAt read.buffer read.length (ihlAt read.buffer) = found := by
  have within := read.within
  simp only [parseFromTun, Option.ite_none_left_eq_some, Option.some.injEq]
  constructor
  · rintro ⟨long, version, protocol, destination, behind, found⟩
    refine ⟨⟨by omega, ?_, not_not.mp version, not_not.mp protocol, ?_, ?_⟩, found⟩
    · rw [read.sized]
      omega
    · exact (accepts_gatewayText _ _).mpr destination
    · unfold ihlAt
      omega
  · rintro ⟨⟨long, -, version, protocol, destination, behind⟩, found⟩
    unfold ihlAt at behind
    exact ⟨by omega, not_not_intro version, not_not_intro protocol,
      (accepts_gatewayText _ _).mp destination, by omega, found⟩

/-- On the buffer of the VPN loop the parser is the one of the relay. -/
theorem parsePacket_read (gatewayIp : Option InetAddress) (read : TunRead) :
    parsePacket (gatewayText gatewayIp) read.buffer read.length = .ok (parseFromTun gatewayIp read) := by
  have within := read.within
  have sized := read.sized
  obtain ⟨result, parsed⟩ : Returns (parsePacket (gatewayText gatewayIp) read.buffer read.length) :=
    parsePacket_returns (by omega) (by omega) _
  have same : result = parseFromTun gatewayIp read := by
    apply Option.ext
    intro found
    have accepted : parsePacket (gatewayText gatewayIp) read.buffer read.length = .ok (some found) ↔ _ :=
      parsePacket_eq_some
    rw [parsed, Except.ok.injEq] at accepted
    exact accepted.trans parseFromTun_eq_some.symm
  rw [parsed, same]

/-- On the buffer of the VPN loop `processFromTun` throws nothing, and is the one of
the relay. -/
theorem processPacket_read (read : TunRead) (answer : Option Nat) (now : Int) (s : Relay) :
    processPacket read.buffer read.length answer now s =
      ⟨.ok (processFromTun read answer now s).value, (processFromTun read answer now s).state,
        (processFromTun read answer now s).events⟩ := by
  unfold processPacket processFromTun
  rw [Proc.read_bind, Proc.read_bind, parsePacket_read]
  cases parseFromTun s.gatewayIp read with
  | none => rfl
  | some found => rfl

end SwitchLanPlay.Android
