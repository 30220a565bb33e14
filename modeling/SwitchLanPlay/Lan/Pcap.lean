import Mathlib.Data.Nat.Digits.Lemmas
import SwitchLanPlay.Lan.State

/-!
# Capture devices

`pcaploop.cpp` in the build that polls: opening the devices of the machine, and
the choice of the device that a frame is sent on.
-/

namespace SwitchLanPlay

open Library

/-! ## Opening -/

/-- Where `get_mac_address` looks: at the answer to `SIOCGIFHWADDR` on Linux, and on macOS at the
link-level addresses of the device, each with its `sdl_alen`. -/
inductive MacSource where
  | ioctl (result : Int) (hwaddr : Mac)
  | links (links : List (Nat × Bytes))

/-- `get_mac_address`, null where it ends the process: on Linux it does when `ioctl` fails. -/
def getMacAddress : MacSource → Option (Int × Mac)
  | .ioctl result hwaddr => if result < 0 then none else some (result, hwaddr)
  | .links links =>
      match links.find? fun link => 6 ≤ link.1 with
      | none => some (-1, noneMac)
      | some (alen, lladdr) => some (0, octetsAt 6 lladdr (if alen = 6 then 0 else 1))

/-- A `pcap_if_t`, and how the calls that open it go. -/
structure PcapIf where
  name : String
  /-- `pcap_create` returns a handle. -/
  creates : Bool
  setTimeout : Int
  setSnaplen : Int
  setPromisc : Int
  activate : Int
  datalink : Int
  mac : MacSource
  setImmediateMode : Int
  pollInit : Int
  pollStart : Int

def pcapWarning : Int := 1
def dltEn10mb : Int := 1

/-- The tests before `uv_pcap_open_live` asks for the address of the device; `PCAP_WARNING` is the
one warning of `pcap_activate` that passes. -/
def PcapIf.activates (d : PcapIf) : Bool :=
  d.creates ∧ d.setTimeout = 0 ∧ d.setSnaplen = 0 ∧ d.setPromisc = 0 ∧
    (d.activate = 0 ∨ d.activate = pcapWarning) ∧ d.datalink = dltEn10mb

/-- `uv_pcap_interf_t` -/
structure UvPcapInterf where
  name : String
  mac : Mac

/-- What `uv_pcap_open_live` leaves behind.  Where it fails it closes the
device, but not a poll handle that could be initialized and not started. -/
inductive OpenLive where
  | failed
  | pollLeft (name : String)
  | opened (interf : UvPcapInterf)
  /-- The process has ended. -/
  | exited

/-- `uv_pcap_interf_init` -/
def uvPcapInterfInit (d : PcapIf) (mac : Mac) : OpenLive :=
  if d.pollInit ≠ 0 then .failed
  else if d.pollStart ≠ 0 then .pollLeft d.name
  else .opened ⟨d.name, mac⟩

/-- The end of `uv_pcap_open_live`, from the result of `get_mac_address` on. -/
def PcapIf.openWith (d : PcapIf) (ret : Int) (mac : Mac) : OpenLive :=
  if ret ≠ 0 then .failed
  else if mac = noneMac then .failed
  else if d.setImmediateMode = -1 then .failed
  else uvPcapInterfInit d mac

def uvPcapOpenLive (d : PcapIf) : OpenLive :=
  if d.activates = false then .failed
  else
    match getMacAddress d.mac with
    | none => .exited
    | some (ret, mac) => d.openWith ret mac

theorem PcapIf.openWith_ne_exited (d : PcapIf) (ret : Int) (mac : Mac) : d.openWith ret mac ≠ .exited := by
  unfold PcapIf.openWith uvPcapInterfInit
  split_ifs <;> simp

theorem getMacAddress_eq_none {source : MacSource} :
    getMacAddress source = none ↔ ∃ result hwaddr, source = .ioctl result hwaddr ∧ result < 0 := by
  cases source with
  | ioctl result hwaddr => simp [getMacAddress]
  | links links =>
      rw [getMacAddress]
      cases links.find? fun link => 6 ≤ link.1 <;> simp

/-- Only a device of which Linux does not tell the address ends the process. -/
theorem uvPcapOpenLive_eq_exited {d : PcapIf} :
    uvPcapOpenLive d = .exited ↔ d.activates = true ∧ ∃ result hwaddr, d.mac = .ioctl result hwaddr ∧ result < 0 := by
  rw [← getMacAddress_eq_none, uvPcapOpenLive]
  cases d.activates with
  | false => simp
  | true =>
      cases getMacAddress d.mac with
      | none => simp
      | some found => simpa using d.openWith_ne_exited found.1 found.2

/-- `atoi`, on numbers that an `int` can hold. -/
def atoi (text : String) : Int :=
  let number (digits : List Char) : Nat :=
    (digits.takeWhile Char.isDigit).foldl (fun value digit => 10 * value + (digit.toNat - 48)) 0
  match text.toList.dropWhile Char.isWhitespace with
  | '-' :: digits => -(number digits : Int)
  | '+' :: digits => number digits
  | digits => number digits

/-- The first loop of `uv_pcap_init`: an interface given by its number, which
counts from one, is replaced by its name. -/
def netifName (netif : String) : Nat → List PcapIf → String
  | _, [] => netif
  | i, d :: rest => netifName (if (i : Int) = atoi netif then d.name else netif) (i + 1) rest

/-- The devices that `uv_pcap_init` tries to open. -/
def triedDevs (netif : Option String) (alldevs : List PcapIf) : List PcapIf :=
  match netif with
  | none => alldevs
  | some netif => (alldevs.find? fun d => d.name = netifName netif 1 alldevs).toList

/-! ## Sending -/

/-- `mac2int`: the bytes of an address in a 64-bit integer, the first one lowest. -/
def mac2int (mac : Mac) : Nat := Nat.ofDigits 256 ((List.ofFn mac).map UInt8.toNat)

theorem mac2int_injective : Function.Injective mac2int := by
  intro first second same
  have digits : ∀ mac : Mac, ∀ digit ∈ (List.ofFn mac).map UInt8.toNat, digit < 256 := by
    intro mac digit member
    obtain ⟨byte, -, rfl⟩ := List.mem_map.mp member
    exact byte.toNat_lt
  have listed := Nat.ofDigits_inj_of_len_eq (by decide) (by simp) (digits first) (digits second) same
  exact List.ofFn_injective (List.map_injective_iff.mpr (fun _ _ => UInt8.toNat.inj) listed)

/-- `uv_pcap_t` with `n` open interfaces: the map says on which of them the last
frame for an address came in. -/
structure UvPcap (n : Nat) where
  map : Nat → Option (Fin n)
  interfaces : Fin n → UvPcapInterf

/-- The map as `new uv_pcap_inner` makes it. -/
def UvPcap.start {n : Nat} (interfaces : Fin n → UvPcapInterf) : UvPcap n := ⟨fun _ => none, interfaces⟩

/-- A frame that an interface puts out. -/
structure PcapOutput (n : Nat) where
  interf : Fin n
  frame : Bytes

namespace UvPcap

variable {n : Nat}

/-- The start of `uv_pcap_callback`: the destination address of the frame is
mapped to the interface that received it. -/
def learn (pcap : UvPcap n) (h : Fin n) (packet : Bytes) : UvPcap n :=
  { pcap with map := Function.update pcap.map (mac2int (octetsAt 6 packet etherOffDst)) (some h) }

theorem learn_map (pcap : UvPcap n) (h : Fin n) (packet : Bytes) (mac : Mac) :
    (pcap.learn h packet).map (mac2int mac) =
      if octetsAt 6 packet etherOffDst = mac then some h else pcap.map (mac2int mac) := by
  simp only [learn, Function.update_apply, mac2int_injective.eq_iff, eq_comm]

/-- `uv_pcap_interf_sendpacket`: the source address becomes that of the interface. -/
def interfSendpacket (pcap : UvPcap n) (h : Fin n) (data : Bytes) : PcapOutput n :=
  ⟨h, overwrite data etherOffSrc (List.ofFn (pcap.interfaces h).mac)⟩

/-- `uv_pcap_sendpacket` -/
def sendpacket (pcap : UvPcap n) (data : Bytes) : List (PcapOutput n) :=
  match pcap.map (mac2int (octetsAt 6 data etherOffSrc)) with
  | some h => [pcap.interfSendpacket h data]
  | none => (List.finRange n).map fun h => pcap.interfSendpacket h data

/-- A frame goes out on the interface its source address is mapped to, or on all. -/
theorem sendpacket_on_iff (pcap : UvPcap n) (data : Bytes) (h : Fin n) :
    (∃ output ∈ pcap.sendpacket data, output.interf = h) ↔
      pcap.map (mac2int (octetsAt 6 data etherOffSrc)) = none ∨
        pcap.map (mac2int (octetsAt 6 data etherOffSrc)) = some h := by
  unfold sendpacket
  cases pcap.map (mac2int (octetsAt 6 data etherOffSrc)) with
  | none => simp [interfSendpacket]
  | some mapped => simp [interfSendpacket]

end UvPcap

end SwitchLanPlay
