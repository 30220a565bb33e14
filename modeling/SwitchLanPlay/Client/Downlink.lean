import SwitchLanPlay.Client.Uplink
import SwitchLanPlay.Lan.Ethernet

/-!
# Receiving from the relay

`lan_client_on_recv` and the handlers it dispatches to (`lan-client.c`).
-/

namespace SwitchLanPlay

open Library SlotTable

/-- Run a sender on the uplink fields of the whole state. -/
def onUplink {α : Type} (inner : Proc Uplink Event α) : Proc LanPlay Event α :=
  Proc.zoom LanPlay.uplink (fun uplink lanPlay => { lanPlay with uplink := uplink }) inner

/-! ## Delivery to the local network -/

def lanClientArpForEachCb (packet : Ptr) (len : Nat) (item : ArpItem) : Proc LanPlay Event Int := do
  let _ ← sendEther item.mac etherTypeIpv4 [⟨packet, len⟩]
  pure 0

def lanClientOnBroadcast (now : Int) (packet : Ptr) (len : Nat) : Proc LanPlay Event Int := do
  let lanPlay ← Proc.read
  if lanPlay.nextRealBroadcast then do
    Proc.update fun lanPlay => { lanPlay with nextRealBroadcast := false }
    sendEther broadcastMac etherTypeIpv4 [⟨packet, len⟩]
  else do
    arpForEach now (lanClientArpForEachCb packet len)
    pure 0

/-- The body of `lan_client_process`. -/
def lanClientForward (now : Int) (packet : Ptr) (len : Nat) : Proc LanPlay Event Int :=
  if len = 0 then
    pure 0
  else do
    let lanPlay ← Proc.read
    let dst ← cpyIpv4 (packet.plus ipv4OffDst)
    if isBroadcast dst lanPlay.packetCtx.subnetNet lanPlay.packetCtx.subnetMask then
      lanClientOnBroadcast now packet len
    else do
      match ← arpGetMacByIp now dst with
      | none => pure 0
      | some dstMac => sendEther dstMac etherTypeIpv4 [⟨packet, len⟩]

/-- `lan_client_process`, which records that it was entered. -/
def lanClientProcess (now : Int) (packet : Ptr) (len : Nat) : Proc LanPlay Event Int := do
  Proc.emit (.process (slice packet.memory packet.offset len) len)
  lanClientForward now packet len

/-! ## Reassembly -/

/-- The value an `int` keeps of a sum or difference. -/
def int32 (value : Int) : Int := value.bmod (2 ^ 32)

/-- `LABS` -/
def labs (value : Int) : Int := if value < 0 then int32 (-value) else value

/-- `1 << amount` on an `int`.  Amounts of 32 and more have no meaning in C;
the model takes them modulo 32, as the shift instructions of the targets do. -/
def shiftedOne (amount : Nat) : Nat := 2 ^ (amount % 32)

/-- `~(~0 << amount)` on an `int`. -/
def lowBits (amount : Nat) : Nat := 2 ^ (amount % 32) - 1

/-- The header fields at an offset of a region. -/
def headerAt (memory : Bytes) (offset : Nat) : LanClientFragmentHeader where
  src := octetsAt 4 memory (offset + lcFragSrc)
  dst := octetsAt 4 memory (offset + lcFragDst)
  id := net16At memory (offset + lcFragId)
  part := (byteAt memory (offset + lcFragPart)).toNat
  totalPart := (byteAt memory (offset + lcFragTotalPart)).toNat
  len := net16At memory (offset + lcFragLen)
  pmtu := net16At memory (offset + lcFragPmtu)

def readHeader {σ : Type} (packet : Ptr) : Proc σ Event LanClientFragmentHeader := do
  let src ← cpyIpv4 (packet.plus lcFragSrc)
  let dst ← cpyIpv4 (packet.plus lcFragDst)
  let id ← readNet16 packet lcFragId
  let part ← readNet8 packet lcFragPart
  let totalPart ← readNet8 packet lcFragTotalPart
  let len ← readNet16 packet lcFragLen
  let pmtu ← readNet16 packet lcFragPmtu
  pure { src, dst, id, part, totalPart, len, pmtu }

namespace Reassembly

/-- The first loop: a slot in use for the same packet. -/
def find (table : Reassembly) (header : LanClientFragmentHeader) : Option (Fin lcFragCount) :=
  firstIndex fun i =>
    (table.frags i).used && decide ((table.frags i).id = header.id) &&
      decide ((table.frags i).src = header.src)

/-- The second loop: a slot that is not in use. -/
def findFree (table : Reassembly) : Option (Fin lcFragCount) :=
  firstIndex fun i => !(table.frags i).used

/-- `LABS(frags[i].local_id - lan_play->local_id)` -/
def dif (table : Reassembly) (i : Fin lcFragCount) : Int :=
  labs (int32 ((table.frags i).localId - table.localId))

/-- The third loop: the greatest age among the slots in use, and its slot. -/
def findOldest (table : Reassembly) : Int × Option (Fin lcFragCount) :=
  farthest fun i => if (table.frags i).used then some (table.dif i) else none

/-- Key a slot to the packet of the header.  The bytes and the total length
that an earlier packet left in the slot stay. -/
def allocate (table : Reassembly) (i : Fin lcFragCount) (header : LanClientFragmentHeader) :
    Reassembly where
  frags := Function.update table.frags i
    { table.frags i with
      used := true
      id := header.id
      localId := (table.localId % 2 ^ 16).toNat
      src := header.src
      part := 0 }
  localId := int32 (table.localId + 1)

/-- The three loops: the slot for a header, and the table once it is keyed. -/
def obtain (table : Reassembly) (header : LanClientFragmentHeader) :
    Option (Fin lcFragCount × Reassembly) :=
  match table.find header with
  | some i => some (i, table)
  | none =>
      match table.findFree with
      | some i => some (i, table.allocate i header)
      | none =>
          if (lcFragCount : Int) < table.findOldest.1 then
            table.findOldest.2.map fun i => (i, table.allocate i header)
          else none

end Reassembly

/-- One byte of an integer of 16 bits in memory; the targets put the low byte first. -/
def pokeInt16 (value : Nat) (high : Bool) (byte : UInt8) : Nat :=
  if high then value % 256 + 256 * byte.toNat else value / 256 * 256 + byte.toNat

/-- A byte written to an offset of a slot. -/
def LanClientFragment.poke (slot : LanClientFragment) (offset : Nat) (byte : UInt8) : LanClientFragment :=
  match offset with
  | 0 => { slot with localId := pokeInt16 slot.localId false byte }
  | 1 => { slot with localId := pokeInt16 slot.localId true byte }
  | 6 => { slot with id := pokeInt16 slot.id false byte }
  | 7 => { slot with id := pokeInt16 slot.id true byte }
  | 8 => { slot with part := byte.toNat }
  | 9 => { slot with used := byte ≠ 0 }
  | 10 => { slot with totalLen := pokeInt16 slot.totalLen false byte }
  | 11 => { slot with totalLen := pokeInt16 slot.totalLen true byte }
  | offset =>
      if offset < 6 then { slot with src := fun index => if offset = 2 + index then byte else slot.src index }
      else
        { slot with
          buffer := overwrite slot.buffer (offset - 12) [byte]
          bufferSized := by rw [length_overwrite, slot.bufferSized] }

/-- `sizeof(struct lan_client_fragment)` -/
def sizeofFragment : Nat := 12 + etherMtu

namespace Reassembly

/-- A byte written to `buffer[position]` of a slot: behind the end of the buffer it lands in a slot
that follows.  What is behind the last slot is not part of the table. -/
def pokeBehind (table : Reassembly) (i : Fin lcFragCount) (position : Nat) (byte : UInt8) : Reassembly :=
  if position < etherMtu then table
  else
    let next := i + 1 + (position - etherMtu) / sizeofFragment
    if inside : next < lcFragCount then
      { table with
        frags := Function.update table.frags ⟨next, inside⟩
          ((table.frags ⟨next, inside⟩).poke ((position - etherMtu) % sizeofFragment) byte) }
    else table

/-- The part of a copy to `buffer[offset]` that leaves the slot. -/
def spill (table : Reassembly) (i : Fin lcFragCount) (offset : Nat) (payload : Bytes) : Reassembly :=
  (List.range payload.length).foldl (fun table index => table.pokeBehind i (offset + index) (byteAt payload index)) table

theorem pokeBehind_of_inside (table : Reassembly) (i : Fin lcFragCount) {position : Nat} (inside : position < etherMtu)
    (byte : UInt8) : table.pokeBehind i position byte = table :=
  if_pos inside

theorem pokeBehind_localId (table : Reassembly) (i : Fin lcFragCount) (position : Nat) (byte : UInt8) :
    (table.pokeBehind i position byte).localId = table.localId := by
  unfold pokeBehind
  dsimp only
  split_ifs <;> rfl

/-- A copy never changes a slot before its end. -/
theorem pokeBehind_frags_of_le (table : Reassembly) (i : Fin lcFragCount) (position : Nat) (byte : UInt8)
    {j : Fin lcFragCount} (before : j ≤ i) : (table.pokeBehind i position byte).frags j = table.frags j := by
  unfold pokeBehind
  dsimp only
  split_ifs with inside follows
  · rfl
  · refine Function.update_of_ne ?_ _ _
    rintro rfl
    have bound : i.val + 1 + (position - etherMtu) / sizeofFragment ≤ i.val := before
    exact absurd ((Nat.le_add_right _ _).trans bound) (Nat.not_succ_le_self _)
  · rfl

/-- A copy that fits leaves the other slots alone. -/
theorem spill_of_fits (table : Reassembly) (i : Fin lcFragCount) {offset : Nat} {payload : Bytes}
    (fits : offset + payload.length ≤ etherMtu) : table.spill i offset payload = table := by
  have inside : ∀ index ∈ List.range payload.length, ∀ table : Reassembly,
      table.pokeBehind i (offset + index) (byteAt payload index) = table := by
    intro index member table
    have below := List.mem_range.mp member
    exact table.pokeBehind_of_inside i (by omega) _
  unfold spill
  generalize List.range payload.length = indices at inside
  induction indices with
  | nil => rfl
  | cons first rest ih =>
      obtain ⟨now, later⟩ := List.forall_mem_cons.mp inside
      rw [List.foldl_cons, now table]
      exact ih later

theorem spill_kept (table : Reassembly) (i : Fin lcFragCount) (offset : Nat) (payload : Bytes) :
    (table.spill i offset payload).localId = table.localId ∧
      ∀ j ≤ i, (table.spill i offset payload).frags j = table.frags j := by
  unfold spill
  generalize List.range payload.length = indices
  induction indices generalizing table with
  | nil => exact ⟨rfl, fun _ _ => rfl⟩
  | cons first rest ih =>
      obtain ⟨counter, slots⟩ := ih (table.pokeBehind i (offset + first) (byteAt payload first))
      refine ⟨counter.trans (table.pokeBehind_localId _ _ _), fun j before => ?_⟩
      exact (slots j before).trans (table.pokeBehind_frags_of_le _ _ _ before)

end Reassembly

/-- Record one fragment in its slot; what is behind the end of the slot is `Reassembly.spill`. -/
def LanClientFragment.store (slot : LanClientFragment) (header : LanClientFragmentHeader)
    (payload : Bytes) : LanClientFragment :=
  { slot with
    part := (slot.part ||| shiftedOne header.part) % 2 ^ 8
    buffer := overwrite slot.buffer (header.pmtu * header.part) payload
    bufferSized := by rw [length_overwrite, slot.bufferSized]
    totalLen :=
      if header.part + 1 = header.totalPart then
        ((header.totalPart - 1) * header.pmtu + header.len) % 2 ^ 16
      else slot.totalLen }

/-- The end of `lan_client_process_frag`: a packet whose parts are all there
leaves its slot and is processed. -/
def finishFragment (now : Int) (table : Reassembly) (i : Fin lcFragCount) (slot : LanClientFragment)
    (totalPart : Nat) : Proc LanPlay Event Int :=
  if lowBits totalPart = slot.part then do
    Proc.update fun lanPlay =>
      { lanPlay with
        reassembly :=
          { table with frags := Function.update table.frags i { slot with used := false } } }
    lanClientProcess now ⟨.slot, slot.buffer, 0⟩ slot.totalLen
  else do
    Proc.update fun lanPlay =>
      { lanPlay with reassembly := { table with frags := Function.update table.frags i slot } }
    pure 0

/-- `lan_client_process_frag`; the parameter `len` is not used by the source. -/
def lanClientProcessFrag (now : Int) (packet : Ptr) (_len : Nat) : Proc LanPlay Event Int := do
  let header ← readHeader packet
  let lanPlay ← Proc.read
  match lanPlay.reassembly.obtain header with
  | none => do
      Proc.emit .fragmentIgnored
      pure 0
  | some (i, table) => do
      let payload ← loadBytes (packet.plus lcFragHeaderLen) header.len
      Proc.emit (.store .slot (header.pmtu * header.part) header.len)
      finishFragment now (table.spill i (header.pmtu * header.part) payload) i
        ((table.frags i).store header payload) header.totalPart

/-! ## Login and dispatch -/

def lanClientProcessAuthMe (sha1 : Bytes → Bytes) (packet : Ptr) (len : Nat) :
    Proc LanPlay Event Unit := do
  let lanPlay ← Proc.read
  match lanPlay.username with
  | none => pure ()
  | some username => do
      let authType ← readNet8 packet 0
      if authType = 0 then do
        let challenge ← loadBytes (packet.plus 1) ((len + 2 ^ 16 - 1) % 2 ^ 16)
        let response := sha1 (List.ofFn lanPlay.key ++ challenge) ++ username
        let _ ← onUplink (lanClientSend lanClientTypeAuthMe ⟨.header, response, 0⟩
          ((20 + username.length) % 2 ^ 16))
        pure ()
      else
        pure ()

/-- The `switch` of `lan_client_on_recv`: the handler for the packet behind the
type byte. -/
def lanClientDispatch (env : Env) (type : UInt8) (packet : Ptr) (len : Nat) :
    Proc LanPlay Event Unit :=
  if type = lanClientTypeIpv4 then do
    let _ ← lanClientProcess env.now packet len
    pure ()
  else if type = lanClientTypeIpv4Frag then do
    let _ ← lanClientProcessFrag env.now packet len
    pure ()
  else if type = lanClientTypeAuthMe then
    lanClientProcessAuthMe env.sha1 packet len
  else if type = lanClientTypeInfo then do
    let text ← loadBytes packet len
    Proc.emit (.serverInfo (text.takeWhile (· ≠ 0)))
  else
    pure ()

/-- `lan_client_on_recv`, after the datagram was put into `client_buf`. -/
def lanClientOnRecv (env : Env) (nread : Int) : Proc LanPlay Event Unit := do
  if nread ≤ 0 then
    pure ()
  else do
    let lanPlay ← Proc.read
    let recvLen := nread.toNat % 2 ^ 16
    let buffer : Ptr := ⟨.clientBuf, lanPlay.clientBuf, 0⟩
    let first ← readNet8 buffer 0
    Proc.update fun lanPlay =>
      { lanPlay with
        downloadPacket := (lanPlay.downloadPacket + 1) % 2 ^ 64
        downloadByte := (lanPlay.downloadByte + recvLen) % 2 ^ 64 }
    lanClientDispatch env (UInt8.ofNat (first % 0x80)) (buffer.plus 1) (recvLen - 1)

/-- A datagram arrives: libuv puts it at the start of the shared `client_buf`,
leaving the bytes behind it as they were, and calls `lan_client_on_recv`. -/
def receive (env : Env) (datagram : Bytes) : Proc LanPlay Event Unit := do
  Proc.update fun lanPlay =>
    { lanPlay with clientBuf := datagram ++ lanPlay.clientBuf.drop datagram.length }
  lanClientOnRecv env datagram.length

end SwitchLanPlay
