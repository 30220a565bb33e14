import Mathlib.Tactic.FinCases
import SwitchLanPlay.Library.Streams
import SwitchLanPlay.Proxy.UdpTable

/-!
# Datagrams from a SOCKS5 server

The data handler of `Socks5ProxyUdp` (`proxy_socks5.cpp`) takes a datagram out of the
header that a SOCKS5 server puts in front of it.  It ignores what `ProtocolUnpacker`
returns: a field that the datagram is too short for keeps what its variable held.
-/

namespace SwitchLanPlay.Proxy

open Library

/-! ## What is expected -/

/-- A call of `send_udp_ex` for a datagram with a complete IPv4 header that is not a
fragment: the address and the port of the header, and all the bytes behind it. -/
def ExactCall (datagram : Bytes) (item : ProxyUdp) : ProxyEvent → Prop
  | .sendUdpEx handle fromIp fromPort dst dstport data offset len =>
      (udpHeaderSize ≤ datagram.length ∧ byteAt datagram 2 = 0 ∧ byteAt datagram 3 = 1) ∧
        (fromIp = octetsAt 4 datagram 4 ∧ fromPort = net16At datagram 8) ∧
          slice data offset len = datagram.drop udpHeaderSize ∧
            handle = item.handle ∧ dst = item.src ∧ dstport = item.srcport
  | _ => False

/-- The datagrams that are passed on, with the address they are from. -/
def passedOn (events : List ProxyEvent) : List (SockAddr × Bytes) :=
  events.filterMap fun event =>
    match event with
    | .sendUdpEx _ fromIp fromPort _ _ data offset len => some (⟨fromIp, fromPort⟩, slice data offset len)
    | _ => none

/-- What `send` hands to its handle, or keeps until the server is ready. -/
def ProxyUdp.handedOver {σ : Type} (item : ProxyUdp) (done : Outcome σ ProxyEvent ProxyUdp) : List Bytes :=
  if item.isReady then
    done.events.filterMap fun event =>
      match event with
      | .datagram _ _ data => some data
      | _ => none
  else done.value.waitingData.toList

/-! ## The header -/

section Unpack

variable (data : Bytes) (stack : Socks5Header)

theorem readAny_of_le {α : Type} (offset size : Nat) (read : Nat → α) (old : α)
    (inside : offset + size ≤ data.length) : readAny data offset size read old = (read offset, offset + size) :=
  if_neg (Nat.not_lt_of_le inside)

/-- The address type is read from the datagram if that has four bytes. -/
theorem unpack_atyp : (unpack data stack).atyp = if 4 ≤ data.length then byteAt data 3 else stack.atyp := by
  match data with
  | [] => rfl
  | [_] => rfl
  | [_, _] => rfl
  | [_, _, _] => rfl
  | b0 :: b1 :: b2 :: b3 :: rest =>
      have four : 4 ≤ (b0 :: b1 :: b2 :: b3 :: rest).length := Nat.le_add_left _ _
      unfold unpack
      rw [if_pos four, readAny_of_le _ 0 2 _ _ (by omega)]
      dsimp only
      rw [readAny_of_le _ 2 1 _ _ (by omega)]
      dsimp only
      rw [readAny_of_le _ 3 1 _ _ (by omega)]

theorem unpack_complete (long : udpHeaderSize ≤ data.length) :
    unpack data stack =
      ⟨net16At data 0, byteAt data 2, byteAt data 3, octetsAt 4 data 4, net16At data 8⟩ := by
  simp only [udpHeaderSize] at long
  unfold unpack
  rw [readAny_of_le data 0 2 _ _ (by omega)]
  dsimp only
  rw [readAny_of_le data 2 1 _ _ (by omega)]
  dsimp only
  rw [readAny_of_le data 3 1 _ _ (by omega)]
  dsimp only
  rw [readAny_of_le data 4 4 _ _ (by omega)]
  dsimp only
  rw [readAny_of_le data 8 2 _ _ (by omega)]

end Unpack

/-! ## The data handler -/

section Handler

variable {σ : Type} (server : SockAddr) (now : Int) (item : ProxyUdp) (s : σ)

/-- The call that the handler makes unless the address type differs. -/
def socks5Call (event : UdpDataEvent) : ProxyEvent :=
  .sendUdpEx item.handle (unpack event.data event.stack).addr (unpack event.data event.stack).port item.src
    item.srcport event.data udpHeaderSize (((event.data.length : Int) - udpHeaderSize) % 2 ^ 16).toNat

theorem onData_events (event : UdpDataEvent) :
    (item.onData (.socks5 server) now event s).events =
      if (unpack event.data event.stack).atyp ≠ 1 then [] else [socks5Call item event] := by
  unfold ProxyUdp.onData
  dsimp only
  split
  · rfl
  · rfl

/-- The bytes behind a complete header are passed on if their number fits 16 bits. -/
theorem slice_behind_header_iff {data : Bytes} (long : udpHeaderSize ≤ data.length) :
    slice data udpHeaderSize (((data.length : Int) - udpHeaderSize) % 2 ^ 16).toNat = data.drop udpHeaderSize ↔
      data.length - udpHeaderSize < 2 ^ 16 := by
  simp only [udpHeaderSize] at long ⊢
  constructor
  · intro same
    have lengths := congrArg List.length same
    rw [length_slice, List.length_drop] at lengths
    omega
  · intro fits
    have count : (((data.length : Int) - (10 : Nat)) % 2 ^ 16).toNat = data.length - 10 := by omega
    have all : (data.drop 10).length ≤ data.length - 10 := by rw [List.length_drop]
    rw [count, slice_eq_take_drop _ _ _ (by omega), List.take_of_length_le all]

theorem socks5Call_exact_iff (event : UdpDataEvent) (ipv4 : (unpack event.data event.stack).atyp = 1) :
    ExactCall event.data item (socks5Call item event) ↔
      udpHeaderSize ≤ event.data.length ∧ event.data.length - udpHeaderSize < 2 ^ 16 ∧ byteAt event.data 2 = 0 := by
  constructor
  · rintro ⟨⟨long, whole, -⟩, -, bytes, -⟩
    exact ⟨long, (slice_behind_header_iff long).mp bytes, whole⟩
  · rintro ⟨long, fits, whole⟩
    have header := unpack_complete event.data event.stack long
    rw [header] at ipv4
    refine ⟨⟨long, whole, ipv4⟩, ⟨?_, ?_⟩, (slice_behind_header_iff long).mpr fits, rfl, rfl, rfl⟩
    · rw [header]
    · rw [header]

theorem onData_exact_iff (event : UdpDataEvent) :
    (item.onData (.socks5 server) now event).Emits (ExactCall event.data item) s ↔
      (unpack event.data event.stack).atyp ≠ 1 ∨ (udpHeaderSize ≤ event.data.length ∧
        event.data.length - udpHeaderSize < 2 ^ 16 ∧ byteAt event.data 2 = 0) := by
  unfold Proc.Emits
  rw [onData_events]
  split
  case isTrue other => exact iff_of_true (List.forall_mem_nil _) (.inl other)
  case isFalse ipv4 =>
    rw [List.forall_mem_singleton, or_iff_right ipv4]
    exact socks5Call_exact_iff item event (not_not.mp ipv4)

end Handler

/-! ## There and back -/

section RoundTrip

variable {σ : Type} (server : SockAddr) (now : Int) (item : ProxyUdp) (s : σ)
  (ip : Ip) (port : UInt16) (data : Bytes)

theorem send_handedOver (dst : SockAddr) :
    item.handedOver (item.send (.socks5 server) now dst data s) = [ProxyUdp.packed dst data] := by
  unfold ProxyUdp.handedOver ProxyUdp.send
  dsimp only
  split
  · rfl
  · rfl

theorem length_packed (dst : SockAddr) : (ProxyUdp.packed dst data).length = udpHeaderSize + data.length := by
  simp only [ProxyUdp.packed, net16, List.length_append, List.length_cons, List.length_nil, List.length_ofFn]

theorem unpack_packed (stack : Socks5Header) :
    unpack (ProxyUdp.packed ⟨ip, port.toNat⟩ data) stack = ⟨0, 0, 1, ip, port.toNat⟩ := by
  have long : udpHeaderSize ≤ (ProxyUdp.packed ⟨ip, port.toNat⟩ data).length := by
    rw [length_packed]
    exact Nat.le_add_right _ _
  have addr : octetsAt 4 (ProxyUdp.packed ⟨ip, port.toNat⟩ data) 4 = ip := by
    funext index
    fin_cases index <;> rfl
  have portRead : net16At (ProxyUdp.packed ⟨ip, port.toNat⟩ data) 8 = port.toNat :=
    (net16_toNat port.toNat).trans (Nat.mod_eq_of_lt port.toNat_lt)
  rw [unpack_complete _ _ long, addr, portRead]
  rfl

/-- What was sent is passed on by a handler that gets it back, up to the largest length
that 16 bits hold. -/
theorem passedOn_packed_iff (sender : SockAddr) (stack : Socks5Header) :
    passedOn (item.onData (.socks5 server) now ⟨ProxyUdp.packed ⟨ip, port.toNat⟩ data, sender, stack⟩ s).events =
        [(⟨ip, port.toNat⟩, data)] ↔ data.length < 2 ^ 16 := by
  have long : udpHeaderSize ≤ (ProxyUdp.packed ⟨ip, port.toNat⟩ data).length := by
    rw [length_packed]
    exact Nat.le_add_right _ _
  have rest : (ProxyUdp.packed ⟨ip, port.toNat⟩ data).drop udpHeaderSize = data := rfl
  have fits := slice_behind_header_iff long
  rw [rest, length_packed, Nat.add_sub_cancel_left] at fits
  rw [onData_events, unpack_packed, if_neg (not_not_intro rfl), socks5Call, unpack_packed, ← fits, passedOn]
  simp [length_packed]

end RoundTrip

/-- The handler passes on exactly the datagrams that it should, unless a datagram is
shorter than its header and passes for IPv4, is a fragment, or is too long; and what `send`
produces comes back. -/
theorem socks5_decapsulation_iff {σ : Type} (server : SockAddr) (now later : Int) (item : ProxyUdp) (s : σ)
    (event : UdpDataEvent) (ip : Ip) (port : UInt16) (data : Bytes) (sender : SockAddr) (stack : Socks5Header) :
    ((item.onData (.socks5 server) now event).Emits (ExactCall event.data item) s ↔
      (if 4 ≤ event.data.length then byteAt event.data 3 else event.stack.atyp) ≠ 1 ∨
        (udpHeaderSize ≤ event.data.length ∧ event.data.length - udpHeaderSize < 2 ^ 16 ∧
          byteAt event.data 2 = 0)) ∧
      ∃ datagram, item.handedOver (item.send (.socks5 server) now ⟨ip, port.toNat⟩ data s) = [datagram] ∧
        (passedOn (item.onData (.socks5 server) later ⟨datagram, sender, stack⟩ s).events =
          [(⟨ip, port.toNat⟩, data)] ↔ data.length < 2 ^ 16) := by
  constructor
  · rw [onData_exact_iff, unpack_atyp]
  · exact ⟨_, send_handedOver server now item s data _, passedOn_packed_iff server later item s ip port data _ _⟩

/-- Variables that happen to hold an address of the local network. -/
def leftOvers : Socks5Header := ⟨0, 0, 0, subnetNet, 7⟩

/-- An item that its server is ready for. -/
def readyItem : ProxyUdp := ⟨0, 30, subnetNet, 4000, ⟨serverIp, 1080⟩, true, none⟩

/-- A fragment is passed on as a datagram, and so is a datagram of four bytes: from
whatever address was left in the variables, with 65530 bytes that it does not have. -/
theorem fragment_and_stub_passedOn :
    (readyItem.onData (.socks5 ⟨serverIp, 1080⟩) 0
      ⟨[0, 0, 1, 1, 8, 8, 8, 8, 0, 53, 42], ⟨serverIp, 1080⟩, leftOvers⟩ ()).events =
        [.sendUdpEx 0 (fun _ => 8) 53 subnetNet 4000 [0, 0, 1, 1, 8, 8, 8, 8, 0, 53, 42] 10 1] ∧
      (readyItem.onData (.socks5 ⟨serverIp, 1080⟩) 0 ⟨[0, 0, 0, 1], ⟨serverIp, 1080⟩, leftOvers⟩ ()).events =
        [.sendUdpEx 0 subnetNet 7 subnetNet 4000 [0, 0, 0, 1] 10 65530] := by
  have addr : octetsAt 4 [0, 0, 1, 1, 8, 8, 8, 8, 0, 53, 42] 4 = fun _ => 8 := by
    funext index
    fin_cases index <;> rfl
  rw [← addr]
  exact ⟨rfl, rfl⟩

end SwitchLanPlay.Proxy
