import SwitchLanPlay.Library.Bytes

/-!
# The header of the Android client

`LanPlayProtocol.kt`: ten bytes in front of every payload that is exchanged with
the server.
-/

namespace SwitchLanPlay.Android

open Library

/-- `MAGIC_NUMBER` -/
abbrev magicNumber : Nat := 0x11451400

/-- `HEADER_SIZE` -/
abbrev headerSize : Nat := 10

inductive PacketType where
  | scan
  | scanResp
  | connect
  | syncNetwork
  | unknown
  deriving DecidableEq

/-- The byte of a packet type; `UNKNOWN` is -1. -/
def PacketType.value : PacketType → UInt8
  | .scan => 0x00
  | .scanResp => 0x01
  | .connect => 0x02
  | .syncNetwork => 0x03
  | .unknown => 0xFF

def PacketType.entries : List PacketType := [.scan, .scanResp, .connect, .syncNetwork, .unknown]

def PacketType.fromByte (value : UInt8) : PacketType :=
  (PacketType.entries.find? fun entry => entry.value = value).getD .unknown

/-- The data class `Header`, its numbers read as unsigned ones. -/
structure Header where
  magic : Nat
  type : PacketType
  compressed : UInt8
  length : Nat
  decompressLength : Nat
  deriving DecidableEq

namespace Header

def toBytes (header : Header) : Bytes :=
  net16 (header.magic / 2 ^ 16) ++ net16 header.magic ++ [header.type.value, header.compressed] ++
    net16 header.length ++ net16 header.decompressLength

def fromBytes (data : Bytes) : Option Header :=
  if data.length < headerSize then
    none
  else
    let magic := 2 ^ 16 * net16At data 0 + net16At data 2
    if magic ≠ magicNumber then
      none
    else
      some
        { magic := magic
          type := .fromByte (byteAt data 4)
          compressed := byteAt data 5
          length := net16At data 6
          decompressLength := net16At data 8 }

end Header

end SwitchLanPlay.Android
