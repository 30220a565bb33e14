import Mathlib.Data.List.TakeWhile
import SwitchLanPlay.Library.Bytes
import SwitchLanPlay.Library.Lines
import SwitchLanPlay.Rpc.Commands

/-!
# Addresses with a port

`parse_ip_port` (`helper.c`), which reads the address that the RPC server is bound to, the
relay server and the proxy: `host:port`, or `[host]:port`.  The accesses to the string and to
the buffers are the events of the model.

The length of the string is kept in an `int`.  A string above 4 GiB is taken for the one that
the low 32 bits of its length cut off.
-/

namespace SwitchLanPlay.Rpc.Address

open Library Lifecycle

structure CString where
  bytes : Bytes
  noNul : 0 ∉ bytes

inductive Access where
  | str (index : Nat)
  | outAddr (index : Nat)
  | portStr (index : Nat)

/-- The caller's variables: what `out_addr`, `out_port` and `is_ipv6` point to. -/
structure Outputs where
  outAddr : Nat → UInt8
  outPort : Nat
  isIpv6 : UInt8

/-- `addr_start`, `addr_len` and `port_start` -/
structure Parts where
  addrStart : Nat
  addrLen : Nat
  portStart : Nat

/-! ## `strtol` with base 10 -/

/-- The number, and where `err` points to.  The texts are too short for an overflow. -/
def strtol10 (text : Bytes) : Int × Bytes :=
  let (sign, unsigned) := readSign (text.dropWhile isSpace)
  let digits := unsigned.takeWhile (isDigit 10)
  if digits = [] then (0, text)
  else (sign * digits.foldl (fun number digit => 10 * number + (digitValue digit).getD 0) 0,
    unsigned.dropWhile (isDigit 10))

/-- The port, if `port_str` holds one. -/
def portOf (portStr : Bytes) : Option Nat :=
  let (convRes, err) := strtol10 (portStr.takeWhile (· ≠ 0))
  if byteAt portStr 0 = 0 ∨ byteAt err 0 ≠ 0 then none
  else if convRes < 0 ∨ convRes > 65535 then none
  else some convRes.toNat

/-! ## `parse_ip_port` -/

/-- `while (i < len && str[i] != stop) i++;` -/
def scan (str : Bytes) (stop : UInt8) (len i : Nat) : Proc Outputs Access Nat :=
  if i < len then do
    Proc.emit (.str i)
    if byteAt str i ≠ stop then scan str stop len (i + 1) else pure i
  else
    pure i
termination_by len - i

/-- The branch for `[`. -/
def locateBracketed (str : Bytes) (len : Nat) : Proc Outputs Access (Option Parts) := do
  Proc.update fun outputs => { outputs with isIpv6 := 1 }
  let i ← scan str 93 len 1
  if i ≥ len then pure none
  else if i + 1 ≥ len then pure none
  else do
    Proc.emit (.str (i + 1))
    if byteAt str (i + 1) ≠ 58 then pure none
    else pure (some ⟨1, i - 1, i + 2⟩)

/-- The other branch. -/
def locatePlain (str : Bytes) (len : Nat) : Proc Outputs Access (Option Parts) := do
  Proc.update fun outputs => { outputs with isIpv6 := 0 }
  let i ← scan str 58 len 0
  if i ≥ len then pure none
  else pure (some ⟨0, i, i + 1⟩)

def locate (str : Bytes) (len : Nat) : Proc Outputs Access (Option Parts) := do
  Proc.emit (.str 0)
  if byteAt str 0 = 91 then locateBracketed str len else locatePlain str len

/-- `memcpy` to `out_addr`, and the terminating zero. -/
def copyAddr (str : Bytes) (parts : Parts) : Proc Outputs Access Unit := do
  Proc.emitAll ((List.range parts.addrLen).flatMap fun index => [.str (parts.addrStart + index), .outAddr index])
  Proc.emit (.outAddr parts.addrLen)
  Proc.update fun outputs =>
    { outputs with
      outAddr := fun index =>
        if index < parts.addrLen then byteAt str (parts.addrStart + index)
        else if index = parts.addrLen then 0
        else outputs.outAddr index }

/-- The part of `parse_ip_port` that follows the copy of the address. -/
def parsePort (str : Bytes) (portStart portLen : Nat) : Proc Outputs Access Int :=
  if portLen ≥ 6 then pure (-1)
  else do
    Proc.emitAll ((List.range portLen).flatMap fun index => [.str (portStart + index), .portStr index])
    Proc.emit (.portStr portLen)
    match portOf ((str.drop portStart).take portLen ++ [0]) with
    | none => pure (-1)
    | some port => do
        Proc.update fun outputs => { outputs with outPort := port }
        pure 0

/-- The part of `parse_ip_port` that follows the check of the length. -/
def parseParts (str : Bytes) (len outAddrLen : Nat) : Proc Outputs Access Int := do
  match ← locate str len with
  | none => pure (-1)
  | some parts =>
      if parts.addrLen ≥ outAddrLen then pure (-1)
      else do
        copyAddr str parts
        parsePort str parts.portStart (len - parts.portStart)

/-- `int len = strlen(str);` -/
def CString.len (str : CString) : Int := (str.bytes.length : Int).bmod (2 ^ 32)

def parseIpPort (str : CString) (outAddrLen : Nat) : Proc Outputs Access Int := do
  Proc.emitAll ((List.range (str.bytes.length + 1)).map .str)
  if str.len < 1 ∨ str.len > 1000 then pure (-1)
  else parseParts str.bytes str.len.toNat outAddrLen

/-! ## Numerals -/

/-- White space, a sign or none, and digits. -/
structure Numeral (text : Bytes) (value : Int) (spaces sign digits : Bytes) : Prop where
  text_eq : text = spaces ++ (sign ++ digits)
  blank : ∀ byte ∈ spaces, isSpace byte
  signed : sign = [] ∨ sign = [43] ∨ sign = [45]
  filled : digits ≠ []
  decimal : ∀ byte ∈ digits, isDigit 10 byte
  value_eq : value = (if sign = [45] then -1 else 1) *
    digits.foldl (fun number digit => 10 * number + (digitValue digit).getD 0) 0

/-- No digit is a sign or white space. -/
theorem isDigit_range {byte : UInt8} (digit : isDigit 10 byte) : 48 ≤ byte.toNat ∧ byte.toNat ≤ 57 := by
  simp only [isDigit, digitValue, UInt8.le_iff_toNat_le] at digit
  split at digit
  next range => exact range
  next =>
    split at digit
    next range =>
      have small : byte.toNat - 55 < 10 := by simpa using digit
      have lower : 65 ≤ byte.toNat := range.1
      omega
    next =>
      split at digit
      next range =>
        have small : byte.toNat - 87 < 10 := by simpa using digit
        have lower : 97 ≤ byte.toNat := range.1
        omega
      next => cases digit

theorem isSpace_range {byte : UInt8} (space : isSpace byte) : byte.toNat ≤ 32 := by
  simp only [isSpace, Bool.or_eq_true, decide_eq_true_eq, Bool.and_eq_true, UInt8.le_iff_toNat_le] at space
  rcases space with rfl | ⟨-, upper⟩
  · decide
  · exact Nat.le_trans upper (by decide)

/-- What the sign is, and what it leaves. -/
theorem readSign_digits {sign digits : Bytes} (signed : sign = [] ∨ sign = [43] ∨ sign = [45])
    (decimal : ∀ byte ∈ digits, isDigit 10 byte) :
    readSign (sign ++ digits) = (if sign = [45] then -1 else 1, digits) := by
  rcases signed with rfl | rfl | rfl
  · rw [List.nil_append]
    unfold readSign
    split
    · exact absurd (isDigit_range (decimal _ List.mem_cons_self)).1 (by decide)
    · exact absurd (isDigit_range (decimal _ List.mem_cons_self)).1 (by decide)
    · rfl
  · rfl
  · rfl

theorem readSign_cases (text : Bytes) :
    ∃ sign, text = sign ++ (readSign text).2 ∧ (sign = [] ∨ sign = [43] ∨ sign = [45]) ∧
      (readSign text).1 = if sign = [45] then -1 else 1 := by
  unfold readSign
  split
  · exact ⟨[45], rfl, .inr (.inr rfl), rfl⟩
  · exact ⟨[43], rfl, .inr (.inl rfl), rfl⟩
  · exact ⟨[], rfl, .inl rfl, rfl⟩

/-- The texts that `strtol` consumes completely. -/
theorem strtol10_consumed_iff {text : Bytes} (filled : text ≠ []) {value : Int} :
    strtol10 text = (value, []) ↔ ∃ spaces sign digits, Numeral text value spaces sign digits := by
  constructor
  · intro consumed
    rw [strtol10] at consumed
    dsimp only at consumed
    obtain ⟨sign, unsigned, signed, factor⟩ := readSign_cases (text.dropWhile isSpace)
    split at consumed
    next => exact absurd (Prod.mk.inj consumed).2 filled
    next some =>
      obtain ⟨value_eq, rest⟩ := Prod.mk.inj consumed
      have all := @List.takeWhile_append_dropWhile _ (isDigit 10) (readSign (text.dropWhile isSpace)).2
      rw [rest, List.append_nil] at all
      refine ⟨text.takeWhile isSpace, sign, _, ?_, ?_, signed, some, ?_, ?_⟩
      · rw [all, ← unsigned, List.takeWhile_append_dropWhile]
      · exact fun byte member => List.mem_takeWhile_imp member
      · exact fun byte member => List.mem_takeWhile_imp member
      · rw [← factor, ← value_eq]
  · rintro ⟨spaces, sign, digits, rfl, blank, signed, some, decimal, rfl⟩
    have stops : (sign ++ digits).dropWhile isSpace = sign ++ digits := by
      rcases signed with rfl | rfl | rfl
      · cases digits with
        | nil => exact absurd rfl some
        | cons first rest =>
            have lower := (isDigit_range (decimal first List.mem_cons_self)).1
            exact List.dropWhile_cons_of_neg fun space => absurd (isSpace_range space) (by omega)
      · rfl
      · rfl
    have all : digits.takeWhile (isDigit 10) = digits := List.takeWhile_eq_self_iff.mpr decimal
    have none : digits.dropWhile (isDigit 10) = [] := List.dropWhile_eq_nil_iff.mpr decimal
    rw [strtol10, List.dropWhile_append_of_pos blank, stops, readSign_digits signed decimal]
    dsimp only
    rw [all, none, if_neg some]

/-! ## Ports -/

theorem readSign_suffix (text : Bytes) : (readSign text).2 <:+ text := by
  unfold readSign
  split
  · exact List.suffix_cons _ _
  · exact List.suffix_cons _ _
  · exact List.suffix_refl _

theorem strtol10_suffix (text : Bytes) : (strtol10 text).2 <:+ text := by
  rw [strtol10]
  dsimp only
  split
  · exact List.suffix_refl _
  · exact ((List.dropWhile_suffix _).trans (readSign_suffix _)).trans (List.dropWhile_suffix _)

/-- The first byte of a string is its end only if the string is empty. -/
theorem byteAt_zero_iff {text : Bytes} (noNul : 0 ∉ text) : byteAt text 0 = 0 ↔ text = [] := by
  cases text with
  | nil => exact iff_of_true rfl rfl
  | cons first rest =>
      refine iff_of_false (fun zero => ?_) (List.cons_ne_nil _ _)
      rw [byteAt_cons_zero] at zero
      exact noNul (zero ▸ List.mem_cons_self)

theorem portOf_eq_some {port : Bytes} (noNul : 0 ∉ port) {value : Nat} :
    portOf (port ++ [0]) = some value ↔
      1 ≤ port.length ∧ strtol10 port = ((value : Int), []) ∧ value ≤ 65535 := by
  have string : (port ++ [0]).takeWhile (· ≠ 0) = port := by
    rw [List.takeWhile_append_of_pos fun byte member => by simpa using ne_of_mem_of_not_mem member noNul]
    simp
  have first : byteAt (port ++ [0]) 0 = 0 ↔ port = [] := by
    cases port with
    | nil => exact iff_of_true rfl rfl
    | cons head rest => exact byteAt_zero_iff noNul
  have rest : 0 ∉ (strtol10 port).2 := fun member => noNul ((strtol10_suffix port).subset member)
  rw [portOf, string]
  generalize strtol10 port = result at rest
  obtain ⟨convRes, err⟩ := result
  dsimp only at rest ⊢
  have test : (byteAt (port ++ [0]) 0 = 0 ∨ byteAt err 0 ≠ 0) ↔ port = [] ∨ err ≠ [] :=
    or_congr first (not_congr (byteAt_zero_iff rest))
  simp only [test, Prod.mk.injEq]
  by_cases refused : port = [] ∨ err ≠ []
  · rw [if_pos refused]
    refine iff_of_false nofun ?_
    rintro ⟨filled, ⟨-, consumed⟩, -⟩
    rcases refused with rfl | more
    · cases filled
    · exact more consumed
  · obtain ⟨filled, consumed⟩ := not_or.mp refused
    have length : 1 ≤ port.length := List.length_pos_of_ne_nil filled
    rw [if_neg refused]
    simp only [not_not.mp consumed, length, and_true, true_and]
    by_cases range : convRes < 0 ∨ convRes > 65535
    · rw [if_pos range]
      refine iff_of_false nofun ?_
      omega
    · rw [if_neg range, Option.some_inj]
      omega

/-! ## The scan -/

section Scan

variable (str : Bytes) (stop : UInt8) (len : Nat) (s : Outputs)

theorem scan_state (i : Nat) : (scan str stop len i s).state = s := by
  fun_induction scan str stop len i with
  | case1 i inside ih =>
      rw [Proc.bind_state]
      split
      next => exact ih
      next => rfl
  | case2 => rfl

theorem emits_scan {Q : Access → Prop} (allowed : ∀ index < len, Q (.str index)) (i : Nat) :
    Proc.Emits Q (scan str stop len i) s := by
  fun_induction scan str stop len i with
  | case1 i inside ih =>
      rw [Proc.emits_emit_bind]
      refine ⟨allowed i inside, ?_⟩
      split
      next => exact ih
      next => exact Proc.emits_pure _
  | case2 => exact Proc.emits_pure _

end Scan

/-- The scan ends at the first `stop`, or at the end. -/
theorem scan_value (stop : UInt8) (before rest more : Bytes) (s : Outputs) :
    (scan (before ++ (rest ++ more)) stop (before.length + rest.length) before.length s).value =
      before.length + rest.findIdx (· = stop) := by
  induction rest generalizing before with
  | nil =>
      rw [scan, if_neg (by simp)]
      simp
  | cons byte rest ih =>
      have here : byteAt (before ++ (byte :: rest ++ more)) before.length = byte :=
        byteAt_append_right before (byte :: rest ++ more) 0
      rw [scan, if_pos (by simp), Proc.bind_value, Proc.emit_state, here, List.findIdx_cons]
      by_cases found : byte = stop
      · rw [if_neg (not_not.mpr found)]
        simp [found]
      · have next := ih (before ++ [byte])
        rw [List.length_append, List.length_singleton, List.append_assoc, List.singleton_append] at next
        rw [if_pos found, List.length_cons, Nat.add_comm rest.length, ← Nat.add_assoc]
        simp only [found, decide_false, cond_false]
        rw [Nat.add_comm (List.findIdx _ _), ← Nat.add_assoc]
        exact next

/-- A scan that ends within its range ends at the end of a piece. -/
theorem findIdx_stop_iff {stop : UInt8} {text : Bytes} {index : Nat} :
    text.findIdx (· = stop) = index ∧ index < text.length ↔
      ∃ front behind, text = front ++ stop :: behind ∧ stop ∉ front ∧ index = front.length := by
  rw [and_comm, ← List.findIdx?_eq_some_iff_findIdx_eq, findIdx?_eq_some_iff_cut]

end SwitchLanPlay.Rpc.Address
