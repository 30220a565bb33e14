import SwitchLanPlay.Android.Relay
import SwitchLanPlay.Library.Streams

/-!
# Payloads between the client and the server

`forwardToServer` and `handleServerPacket` (`ServerRedirector.kt`) with the buffers
that they use again and again, and the header between them (`LanPlayProtocol.kt`).
What the one sends the other opens.  The length that a header declares is written
and never looked at: a payload ends where its datagram ends.
-/

namespace SwitchLanPlay.Android

open Library

/-! ## Buffers -/

/-- A `ByteBuffer` whose limit is its capacity. -/
structure ByteBuffer where
  array : Bytes
  position : Nat

namespace ByteBuffer

def clear (buffer : ByteBuffer) : ByteBuffer := { buffer with position := 0 }

/-- `put`, null when it throws because the bytes do not fit. -/
def put (buffer : ByteBuffer) (bytes : Bytes) : Option ByteBuffer :=
  if buffer.array.length < buffer.position + bytes.length then none
  else some ⟨overwrite buffer.array buffer.position bytes, buffer.position + bytes.length⟩

end ByteBuffer

/-- The header that `forwardToServer` writes. -/
def connectHeader (length : Nat) : Header where
  magic := magicNumber
  type := .connect
  compressed := 0
  length := length
  decompressLength := length

/-- The datagram that `forwardToServer` makes in `sendBuffer`, null when an exception
is logged. -/
def encapsulate (sendBuffer : ByteBuffer) (payload : Bytes) : Option Bytes := do
  let buffer ← sendBuffer.clear.put (connectHeader payload.length).toBytes
  let buffer ← buffer.put payload
  pure (slice buffer.array 0 (headerSize + payload.length))

/-- `socket.receive(packet)` into a buffer that was used before: what does not fit is
lost. -/
def receiveInto (leftover : Bytes) (sized : leftover.length = 4096) (datagram : Bytes) : Received where
  buffer := overwrite leftover 0 (datagram.take 4096)
  length := (datagram.take 4096).length
  sized := (length_overwrite _ _ _).trans sized
  within := List.length_take_le _ _

/-! ## Writing into a buffer -/

theorem Header.length_toBytes (header : Header) : header.toBytes.length = headerSize := rfl

/-- Whatever an earlier payload left in the buffer, the datagram is the header and the
payload. -/
theorem encapsulate_eq (sendBuffer : ByteBuffer) (sized : sendBuffer.array.length = headerSize + 2048)
    (payload : Bytes) :
    encapsulate sendBuffer payload =
      if payload.length ≤ 2048 then some ((connectHeader payload.length).toBytes ++ payload) else none := by
  have header := (connectHeader payload.length).length_toBytes
  have first : sendBuffer.clear.put (connectHeader payload.length).toBytes =
      some ⟨overwrite sendBuffer.array 0 (connectHeader payload.length).toBytes, headerSize⟩ := by
    rw [ByteBuffer.put, if_neg]
    · rfl
    · rw [header]
      change ¬ sendBuffer.array.length < 0 + headerSize
      omega
  have sizedHeader : (overwrite sendBuffer.array 0 (connectHeader payload.length).toBytes).length =
      headerSize + 2048 := by rw [length_overwrite, sized]
  unfold encapsulate
  rw [first]
  change (ByteBuffer.put _ payload).bind _ = _
  unfold ByteBuffer.put
  dsimp only
  rw [sizedHeader]
  split
  case isTrue large => rw [if_neg (by omega), Option.bind_none]
  case isFalse small =>
    have written : slice (overwrite sendBuffer.array 0 (connectHeader payload.length).toBytes) 0 headerSize =
        (connectHeader payload.length).toBytes := slice_overwrite (by omega)
    rw [if_pos (by omega), Option.bind_some]
    change some (slice (overwrite _ headerSize payload) 0 (headerSize + payload.length)) = _
    rw [slice_add, Nat.zero_add, slice_overwrite (by omega), slice_overwrite_before (by omega) (by omega), written]

/-- `forwardToServer` sends the datagram that it makes in its buffer. -/
theorem forwardToServer_events (sendBuffer : ByteBuffer)
    (sized : sendBuffer.array.length = headerSize + 2048) (payload : Bytes) (sourcePort : Nat) {s : Relay}
    (connected : s.connected = true) :
    (forwardToServer payload sourcePort s).events =
      ((encapsulate sendBuffer payload).map (RelayEvent.forwarded sourcePort)).toList := by
  rw [encapsulate_eq sendBuffer sized]
  unfold forwardToServer
  rw [Proc.read_bind]
  by_cases short : payload.length ≤ 2048
  · rw [if_pos ⟨connected, short⟩, if_pos short]
    rfl
  · rw [if_neg (fun both => short both.2), if_neg short]
    rfl

/-! ## The header -/

/-- The numbers are those of an `Int`, a `Byte` and two `Short`s, read as unsigned. -/
structure Header.InRange (header : Header) : Prop where
  magic : header.magic < 2 ^ 32
  length : header.length < 2 ^ 16
  decompressLength : header.decompressLength < 2 ^ 16

theorem PacketType.fromByte_value (type : PacketType) : PacketType.fromByte type.value = type := by
  cases type <;> rfl

/-- The byte is the code of a packet type. -/
def PacketType.Declared (byte : UInt8) : Prop := ∃ type : PacketType, type.value = byte

theorem PacketType.value_fromByte {byte : UInt8} (declared : PacketType.Declared byte) :
    (PacketType.fromByte byte).value = byte := by
  obtain ⟨type, rfl⟩ := declared
  rw [PacketType.fromByte_value]

theorem net16_congr {first second : Nat} (same : first % 65536 = second % 65536) :
    net16 first = net16 second := by
  have high : UInt8.ofNat (first / 256) = UInt8.ofNat (second / 256) := by
    rw [← UInt8.toNat_inj, UInt8.toNat_ofNat', UInt8.toNat_ofNat']
    omega
  have low : UInt8.ofNat first = UInt8.ofNat second := by
    rw [← UInt8.toNat_inj, UInt8.toNat_ofNat', UInt8.toNat_ofNat']
    omega
  rw [net16, net16, high, low]

theorem net16_net16At (memory : Bytes) (offset : Nat) :
    net16 (net16At memory offset) = [byteAt memory offset, byteAt memory (offset + 1)] := by
  have highBound := (byteAt memory offset).toNat_lt
  have lowBound := (byteAt memory (offset + 1)).toNat_lt
  have high : UInt8.ofNat (net16At memory offset / 256) = byteAt memory offset := by
    rw [← UInt8.toNat_inj, UInt8.toNat_ofNat', net16At]
    omega
  have low : UInt8.ofNat (net16At memory offset) = byteAt memory (offset + 1) := by
    rw [← UInt8.toNat_inj, UInt8.toNat_ofNat', net16At]
    omega
  rw [net16, high, low]

namespace Header

theorem fromBytes_toBytes {header : Header} (inRange : header.InRange) (magic : header.magic = magicNumber)
    (rest : Bytes) : fromBytes (header.toBytes ++ rest) = some header := by
  have long : ¬ (header.toBytes ++ rest).length < headerSize := by
    rw [List.length_append, length_toBytes]
    omega
  have high : net16At (header.toBytes ++ rest) 0 = header.magic / 2 ^ 16 % 65536 := net16_toNat _
  have low : net16At (header.toBytes ++ rest) 2 = header.magic % 65536 := net16_toNat _
  have number : 2 ^ 16 * net16At (header.toBytes ++ rest) 0 + net16At (header.toBytes ++ rest) 2 =
      header.magic := by
    have bound := inRange.magic
    rw [high, low]
    omega
  have type : byteAt (header.toBytes ++ rest) 4 = header.type.value := rfl
  have compressed : byteAt (header.toBytes ++ rest) 5 = header.compressed := rfl
  have length : net16At (header.toBytes ++ rest) 6 = header.length :=
    (net16_toNat _).trans (Nat.mod_eq_of_lt inRange.length)
  have decompressLength : net16At (header.toBytes ++ rest) 8 = header.decompressLength :=
    (net16_toNat _).trans (Nat.mod_eq_of_lt inRange.decompressLength)
  unfold fromBytes
  rw [if_neg long]
  dsimp only
  rw [number, if_neg (not_not_intro magic), type, compressed, length, decompressLength,
    PacketType.fromByte_value]

/-- What is accepted: the fields are those at their offsets, and the number is the magic
one. -/
theorem fromBytes_cases {data : Bytes} {header : Header} (accepted : fromBytes data = some header) :
    headerSize ≤ data.length ∧ header.magic = magicNumber ∧
      header = ⟨2 ^ 16 * net16At data 0 + net16At data 2, PacketType.fromByte (byteAt data 4), byteAt data 5,
        net16At data 6, net16At data 8⟩ := by
  unfold fromBytes at accepted
  split at accepted
  case isTrue => cases accepted
  case isFalse long =>
    dsimp only at accepted
    split at accepted
    case isTrue => cases accepted
    case isFalse magic =>
      cases accepted
      exact ⟨Nat.le_of_not_lt long, Classical.not_not.mp magic, rfl⟩

theorem toBytes_fromBytes {data : Bytes} {header : Header} (accepted : fromBytes data = some header)
    (declared : PacketType.Declared (byteAt data 4)) : header.toBytes = data.take headerSize := by
  obtain ⟨long, -, rfl⟩ := fromBytes_cases accepted
  have highBound := net16At_lt data 0
  have lowBound := net16At_lt data 2
  have high : (2 ^ 16 * net16At data 0 + net16At data 2) / 2 ^ 16 = net16At data 0 := by omega
  have low : net16 (2 ^ 16 * net16At data 0 + net16At data 2) = net16 (net16At data 2) :=
    net16_congr (by omega)
  have front : slice data 0 headerSize = data.take headerSize := by
    rw [slice_eq_take_drop _ _ _ (by omega), List.drop_zero]
  rw [toBytes, high, low, PacketType.value_fromByte declared, net16_net16At, net16_net16At, net16_net16At,
    net16_net16At, ← front]
  rfl

end Header

/-! ## There and back -/

theorem receiveInto_buffer (leftover : Bytes) (sized : leftover.length = 4096) {datagram : Bytes}
    (short : datagram.length ≤ 4096) :
    (receiveInto leftover sized datagram).buffer = datagram ++ leftover.drop datagram.length ∧
      (receiveInto leftover sized datagram).length = datagram.length := by
  have whole : datagram.take 4096 = datagram := List.take_of_length_le short
  constructor
  · change overwrite leftover 0 (datagram.take 4096) = _
    rw [whole, overwrite_zero (by omega)]
  · change (datagram.take 4096).length = _
    rw [whole]

/-- What is accepted, and the payload that is delivered. -/
theorem Received.payload_eq_some {received : Received} {payload : Bytes} :
    received.payload = some payload ↔ headerSize ≤ received.length ∧
      (∃ header, Header.fromBytes received.buffer = some header) ∧
        slice received.buffer headerSize (received.length - headerSize) = payload := by
  unfold Received.payload
  by_cases short : received.length < headerSize
  · rw [if_pos short]
    constructor
    · nofun
    · rintro ⟨long, -⟩
      omega
  rw [if_neg short]
  cases read : Header.fromBytes received.buffer with
  | none =>
    constructor
    · nofun
    · rintro ⟨-, ⟨header, found⟩, -⟩
      cases found
  | some header =>
    -- the magic number was tested by `fromBytes` before
    dsimp only
    rw [if_pos (Header.fromBytes_cases read).2.1, Option.some.injEq]
    constructor
    · intro delivered
      exact ⟨Nat.le_of_not_lt short, ⟨header, rfl⟩, delivered⟩
    · rintro ⟨-, -, delivered⟩
      exact delivered

theorem connectHeader_inRange {length : Nat} (short : length ≤ 2048) : (connectHeader length).InRange where
  magic := show magicNumber < 2 ^ 32 by decide
  length := Nat.lt_of_le_of_lt short (by decide)
  decompressLength := Nat.lt_of_le_of_lt short (by decide)

/-- A header and what follows it are found in a datagram that the buffer holds. -/
theorem receiveInto_read (leftover : Bytes) (sized : leftover.length = 4096) {header : Header}
    (inRange : header.InRange) (magic : header.magic = magicNumber) {payload : Bytes}
    (short : headerSize + payload.length ≤ 4096) :
    (receiveInto leftover sized (header.toBytes ++ payload)).length = headerSize + payload.length ∧
      Header.fromBytes (receiveInto leftover sized (header.toBytes ++ payload)).buffer = some header ∧
        (receiveInto leftover sized (header.toBytes ++ payload)).payload = some payload := by
  have size : (header.toBytes ++ payload).length = headerSize + payload.length := by
    rw [List.length_append, Header.length_toBytes]
  obtain ⟨buffer, length⟩ := receiveInto_buffer leftover sized (size.trans_le short)
  have read : Header.fromBytes (receiveInto leftover sized (header.toBytes ++ payload)).buffer = some header := by
    rw [buffer, List.append_assoc]
    exact Header.fromBytes_toBytes inRange magic _
  refine ⟨length.trans size, read, ?_⟩
  rw [Received.payload_eq_some, length, size, Nat.add_sub_cancel_left]
  refine ⟨Nat.le_add_right _ _, ⟨header, read⟩, ?_⟩
  rw [buffer, List.append_assoc]
  exact (slice_append_right header.toBytes _ _).trans (slice_append_left payload _)

theorem handleServerPacket_of_payload {received : Received} {payload : Bytes}
    (delivered : received.payload = some payload) : handleServerPacket received = processFromServer payload 0 := by
  unfold handleServerPacket
  rw [delivered]

theorem handleServerPacket_of_none {received : Received} (dropped : received.payload = none) (s : Relay) :
    handleServerPacket received s = ⟨(), s, []⟩ := by
  unfold handleServerPacket
  rw [dropped]
  rfl

/-- The datagram that `forwardToServer` sends is opened by `handleServerPacket` to the
payload that was sent, whatever the two buffers held before; and the header is read
as it was written. -/
theorem encapsulation_round_trip :
    (∀ payload : Bytes, payload.length ≤ 2048 →
      ∀ sendBuffer : ByteBuffer, sendBuffer.array.length = headerSize + 2048 →
        ∃ datagram, encapsulate sendBuffer payload = some datagram ∧
          (∀ (s : Relay) (sourcePort : Nat), s.connected = true →
            (forwardToServer payload sourcePort s).events = [.forwarded sourcePort datagram]) ∧
          ∀ (leftover : Bytes) (sized : leftover.length = 4096),
            (receiveInto leftover sized datagram).payload = some payload ∧
              handleServerPacket (receiveInto leftover sized datagram) = processFromServer payload 0) ∧
    (∀ header : Header, header.InRange → header.magic = magicNumber →
      ∀ rest, Header.fromBytes (header.toBytes ++ rest) = some header) ∧
    ∀ (data : Bytes) (header : Header), Header.fromBytes data = some header →
      PacketType.Declared (byteAt data 4) → header.toBytes = data.take headerSize := by
  refine ⟨?_, ?_, ?_⟩
  · intro payload short sendBuffer sized
    have made : encapsulate sendBuffer payload = some ((connectHeader payload.length).toBytes ++ payload) := by
      rw [encapsulate_eq sendBuffer sized, if_pos short]
    refine ⟨_, made, ?_, ?_⟩
    · intro s sourcePort connected
      rw [forwardToServer_events sendBuffer sized payload sourcePort connected, made]
      rfl
    · intro leftover sizedLeftover
      obtain ⟨-, -, delivered⟩ := receiveInto_read leftover sizedLeftover (connectHeader_inRange short) rfl
        (show headerSize + payload.length ≤ 4096 by rw [headerSize]; omega)
      exact ⟨delivered, handleServerPacket_of_payload delivered⟩
  · intro header inRange magic rest
    exact Header.fromBytes_toBytes inRange magic rest
  · intro data header accepted declared
    exact Header.toBytes_fromBytes accepted declared

/-- Three bytes sent from a buffer full of zeros and received into one full of ones. -/
theorem encapsulation_round_trip_three :
    ∃ datagram, encapsulate ⟨List.replicate (headerSize + 2048) 0, 0⟩ [7, 8, 255] = some datagram ∧
      (receiveInto (List.replicate 4096 1) List.length_replicate datagram).payload = some [7, 8, 255] := by
  obtain ⟨datagram, made, -, received⟩ :=
    encapsulation_round_trip.1 [7, 8, 255] (by decide) ⟨List.replicate (headerSize + 2048) 0, 0⟩ List.length_replicate
  exact ⟨datagram, made, (received _ _).1⟩

/-! ## The declared length -/

/-- What a receiver that honours its header gives on: the bytes that the header counts,
when there is no compression and both lengths agree with what has come. -/
structure HonoursHeader (received : Received) (header : Header) (payload : Bytes) : Prop where
  uncompressed : header.compressed = 0
  agree : header.length = header.decompressLength
  fits : header.length ≤ received.length - headerSize
  counted : payload = slice received.buffer headerSize header.length

/-- A payload is given on as its header counts it, and any other datagram is dropped
without effect. -/
structure HonoursLength (received : Received) (s : Relay) : Prop where
  delivered : ∀ payload, received.payload = some payload →
    ∃ header, Header.fromBytes received.buffer = some header ∧ HonoursHeader received header payload
  dropped : received.payload = none → handleServerPacket received s = ⟨(), s, []⟩

/-- The header counts exactly the bytes that came after it. -/
structure Header.Counts (header : Header) (size : Nat) : Prop where
  uncompressed : header.compressed = 0
  agree : header.length = header.decompressLength
  exact : header.length = size

/-- `handleServerPacket` gives on whatever followed the header, so the length that a
header declares is honoured exactly when it is the length that came. -/
theorem handleServerPacket_honours_length_iff (leftover : Bytes) (sized : leftover.length = 4096)
    (datagram : Bytes) (s : Relay) :
    HonoursLength (receiveInto leftover sized datagram) s ↔
      ∀ header, headerSize ≤ (receiveInto leftover sized datagram).length →
        Header.fromBytes (receiveInto leftover sized datagram).buffer = some header →
          header.Counts ((receiveInto leftover sized datagram).length - headerSize) := by
  generalize receiveInto leftover sized datagram = received
  constructor
  · intro honours header long read
    have delivered := Received.payload_eq_some.mpr ⟨long, ⟨header, read⟩, rfl⟩
    obtain ⟨_, read', honoured⟩ := honours.delivered _ delivered
    obtain rfl : header = _ := Option.some.inj (read.symm.trans read')
    have sizes := congrArg List.length honoured.counted
    rw [length_slice, length_slice] at sizes
    exact ⟨honoured.uncompressed, honoured.agree, sizes.symm⟩
  · intro counts
    constructor
    case delivered =>
      intro payload delivered
      obtain ⟨long, ⟨header, read⟩, rfl⟩ := Received.payload_eq_some.mp delivered
      have counted := counts header long read
      refine ⟨header, read, counted.uncompressed, counted.agree, ?_, ?_⟩
      · exact counted.exact.le
      · rw [counted.exact]
    case dropped =>
      intro dropped
      exact handleServerPacket_of_none dropped s

/-- Three bytes behind a header that declares some number of them, received into a new
buffer. -/
def receivedDeclaring (declared : Nat) : Received :=
  receiveInto (List.replicate 4096 0) List.length_replicate ((connectHeader declared).toBytes ++ [7, 8, 9])

theorem receivedDeclaring_read {declared : Nat} (short : declared ≤ 2048) :
    (receivedDeclaring declared).length = headerSize + 3 ∧
      Header.fromBytes (receivedDeclaring declared).buffer = some (connectHeader declared) ∧
        (receivedDeclaring declared).payload = some [7, 8, 9] :=
  receiveInto_read _ _ (connectHeader_inRange short) rfl (show headerSize + [7, 8, 9].length ≤ 4096 by decide)

/-- Three bytes that are declared as three. -/
theorem handleServerPacket_honours_length_three :
    HonoursLength (receivedDeclaring 3) (Relay.start none) := by
  obtain ⟨length, read, -⟩ := receivedDeclaring_read (show 3 ≤ 2048 by decide)
  apply (handleServerPacket_honours_length_iff _ _ _ _).mpr
  intro header _ found
  change Header.fromBytes (receivedDeclaring 3).buffer = some header at found
  change header.Counts ((receivedDeclaring 3).length - headerSize)
  obtain rfl := Option.some.inj (read.symm.trans found)
  rw [length]
  exact ⟨rfl, rfl, rfl⟩

/-- Three bytes that are declared as one are all given on. -/
theorem handleServerPacket_ignores_declared :
    (receivedDeclaring 1).payload = some [7, 8, 9] ∧
      ¬ HonoursLength (receivedDeclaring 1) (Relay.start none) := by
  obtain ⟨-, read, delivered⟩ := receivedDeclaring_read (show 1 ≤ 2048 by decide)
  refine ⟨delivered, ?_⟩
  intro honours
  obtain ⟨header, found, honoured⟩ := honours.delivered _ delivered
  obtain rfl := Option.some.inj (read.symm.trans found)
  have sizes := congrArg List.length honoured.counted
  rw [length_slice] at sizes
  exact absurd sizes (by decide)

end SwitchLanPlay.Android
