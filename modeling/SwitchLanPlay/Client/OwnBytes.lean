import SwitchLanPlay.Client.Reassembly

/-!
# What a datagram is processed from

Datagrams are received into one `client_buf`, and the handlers read fields at
fixed offsets and take lengths from headers, without a look at the received
length.  A datagram that is long enough for its type is processed from its own
bytes; bytes that an earlier datagram left behind it make no difference.
-/

namespace SwitchLanPlay

open Library

/-! ## The handlers do not look at `client_buf` again -/

section Ignores

variable (buf : Bytes)

end Ignores

/-! ## Pointers to the same bytes -/

/-- Two pointers to the same place, with the same `size` bytes behind them. -/
structure Ptr.Agree (size : Nat) (first second : Ptr) : Prop where
  region : first.region = second.region
  offset : first.offset = second.offset
  bytes : ∀ index < size,
    byteAt first.memory (first.offset + index) = byteAt second.memory (second.offset + index)

namespace Ptr.Agree

variable {σ : Type} {size : Nat} {first second : Ptr} (agree : first.Agree size second)

include agree

theorem mono {fewer : Nat} (within : fewer ≤ size) : first.Agree fewer second where
  region := agree.region
  offset := agree.offset
  bytes index inside := agree.bytes index (inside.trans_le within)

theorem plus {count rest : Nat} (within : count + rest ≤ size) :
    (first.plus count).Agree rest (second.plus count) where
  region := agree.region
  offset := congrArg (· + count) agree.offset
  bytes index inside := by
    simp only [Ptr.plus, Nat.add_assoc]
    exact agree.bytes (count + index) (by omega)

theorem loadBytes_eq : (loadBytes first size : Proc σ Event Bytes) = loadBytes second size := by
  unfold loadBytes
  rw [slice_congr agree.bytes, agree.region, agree.offset]

theorem readNet8_eq {offset : Nat} (within : offset + 1 ≤ size) :
    (readNet8 first offset : Proc σ Event Nat) = readNet8 second offset := by
  unfold readNet8
  rw [agree.bytes offset (by omega), agree.region, agree.offset]

end Ptr.Agree

theorem lanClientProcessAuthMe_agree (sha1 : Bytes → Bytes) {size len : Nat} {first second : Ptr}
    (agree : first.Agree size second) (s : LanPlay)
    (whole : s.username = none ∨ 1 ≤ len ∧ len ≤ size ∧ len < 2 ^ 16) :
    lanClientProcessAuthMe sha1 first len s = lanClientProcessAuthMe sha1 second len s := by
  unfold lanClientProcessAuthMe
  rw [Proc.read_bind, Proc.read_bind]
  cases whole with
  | inl anonymous => rw [anonymous]
  | inr whole =>
      obtain ⟨typed, within, short⟩ := whole
      have rest : 1 + (len + 2 ^ 16 - 1) % 2 ^ 16 ≤ size := by omega
      rw [(agree.plus rest).loadBytes_eq, agree.readNet8_eq (by omega)]

/-! ## One datagram -/

/-- A datagram as libuv hands it over: not empty, and within the buffer of
`lan_client_alloc_cb`. -/
structure RelayDatagram where
  bytes : Bytes
  nonempty : bytes ≠ []
  fits : bytes.length ≤ clientRecvBufLen

namespace RelayDatagram

/-- The type that `lan_client_on_recv` dispatches on. -/
def type (datagram : RelayDatagram) : UInt8 :=
  UInt8.ofNat ((byteAt datagram.bytes 0).toNat % 0x80)

/-- The packet behind the type byte, in the datagram alone. -/
def packet (datagram : RelayDatagram) : Ptr := ⟨.clientBuf, datagram.bytes, 1⟩

end RelayDatagram

def recvStep (input : Env × RelayDatagram) : Proc LanPlay Event Unit := receive input.1 input.2.bytes

theorem arrivalPtr_agree (datagram : RelayDatagram) (s : LanPlay) :
    (s.arrivalPtr datagram.bytes).Agree (datagram.bytes.length - 1) datagram.packet where
  region := rfl
  offset := rfl
  bytes index inside := byteAt_append_left _ _ _ (show 1 + index < _ by omega)

theorem recvStep_outcome (env : Env) (datagram : RelayDatagram) (s : LanPlay) :
    let handled := lanClientDispatch env datagram.type (s.arrivalPtr datagram.bytes)
      (datagram.bytes.length - 1) (s.arrival datagram.bytes)
    recvStep (env, datagram) s = ⟨(), handled.state, .load .clientBuf 0 1 :: handled.events⟩ := by
  obtain ⟨bytes, nonempty, fits⟩ := datagram
  cases bytes with
  | nil => exact absurd rfl nonempty
  | cons first rest =>
      have short : (rest.length + 1) % 2 ^ 16 = rest.length + 1 :=
        Nat.mod_eq_of_lt (lt_of_le_of_lt fits (by decide))
      have outcome := receive_outcome env first rest s
      rw [short] at outcome
      exact outcome

end SwitchLanPlay
