import Mathlib.Data.Fin.VecNotation
import Mathlib.Tactic.FinCases
import SwitchLanPlay.Rpc.Connection

/-!
# Base 64

`base64_encode` and `base64_decode` of `rpc/base64.hpp`: loops over the input that
fill an array of three bytes, or of four characters, and empty it when it is full.
The arrays are not initialized; what they hold before makes no difference.  Decoding
undoes encoding as long as the `int` that goes over the characters does not overflow.
-/

namespace SwitchLanPlay.Rpc.Base64

open Library

local instance neZero_four : NeZero 4 := ⟨by decide⟩

/-! ## Model -/

def base64Chars : Bytes :=
  ascii "ABCDEFGHIJKLMNOPQRSTUVWXYZabcdefghijklmnopqrstuvwxyz0123456789+/"

def equalsSign : UInt8 := 61

/-- `isalnum` in the C locale. -/
def isalnum (c : UInt8) : Bool :=
  (48 ≤ c && c ≤ 57) || (65 ≤ c && c ≤ 90) || (97 ≤ c && c ≤ 122)

def isBase64 (c : UInt8) : Bool := isalnum c || c = 43 || c = 47

/-- `base64_chars[index]` -/
def charAt (index : UInt8) : UInt8 := base64Chars.getD index.toNat 0

/-- `base64_chars.find(c) & 0xff`; `std::string::npos` keeps its low byte. -/
def findChar (c : UInt8) : UInt8 :=
  match base64Chars.idxOf? c with
  | some index => UInt8.ofNat index
  | none => 0xff

/-- The state of `base64_encode` at the head of its loop. -/
structure Encoder where
  i : Fin 3
  charArray3 : Octets 3
  charArray4 : Octets 4
  ret : Bytes

def first6 (bytes : Octets 3) : UInt8 := (bytes 0 &&& 0xfc) >>> 2
def second6 (bytes : Octets 3) : UInt8 := ((bytes 0 &&& 0x03) <<< 4) + ((bytes 1 &&& 0xf0) >>> 4)
def third6 (bytes : Octets 3) : UInt8 := ((bytes 1 &&& 0x0f) <<< 2) + ((bytes 2 &&& 0xc0) >>> 6)
def fourth6 (bytes : Octets 3) : UInt8 := bytes 2 &&& 0x3f

/-- The body of `while (in_len--)`. -/
def Encoder.push (e : Encoder) (byte : UInt8) : Encoder :=
  let bytes := Function.update e.charArray3 e.i byte
  if e.i = 2 then
    let indices : Octets 4 := ![first6 bytes, second6 bytes, third6 bytes, fourth6 bytes]
    ⟨0, bytes, indices, e.ret ++ (List.ofFn indices).map charAt⟩
  else
    { e with i := e.i + 1, charArray3 := bytes }

/-- `if (i)` behind the loop: the fourth index is not computed. -/
def Encoder.finish (e : Encoder) : Bytes :=
  if e.i = 0 then e.ret
  else
    let bytes : Octets 3 := fun j => if e.i ≤ j then 0 else e.charArray3 j
    let indices : Octets 4 := ![first6 bytes, second6 bytes, third6 bytes, e.charArray4 3]
    e.ret ++ ((List.ofFn indices).take (e.i + 1)).map charAt ++ List.replicate (3 - e.i) equalsSign

/-- `base64_encode`, with what the arrays hold before. -/
def base64Encode (stale3 : Octets 3) (stale4 : Octets 4) (bytesToEncode : Bytes) (inLen : UInt32) : Bytes :=
  ((bytesToEncode.take inLen.toNat).foldl Encoder.push ⟨0, stale3, stale4, []⟩).finish

/-- The state of `base64_decode` at the head of its loop. -/
structure Decoder where
  i : Fin 4
  charArray4 : Octets 4
  charArray3 : Octets 3
  ret : Bytes

def first8 (indices : Octets 4) : UInt8 := (indices 0 <<< 2) + ((indices 1 &&& 0x30) >>> 4)
def second8 (indices : Octets 4) : UInt8 := ((indices 1 &&& 0xf) <<< 4) + ((indices 2 &&& 0x3c) >>> 2)
def third8 (indices : Octets 4) : UInt8 := ((indices 2 &&& 0x3) <<< 6) + indices 3

/-- The body of the loop of `base64_decode`. -/
def Decoder.push (d : Decoder) (c : UInt8) : Decoder :=
  let chars := Function.update d.charArray4 d.i c
  if d.i = 3 then
    let indices : Octets 4 := fun j => findChar (chars j)
    let bytes : Octets 3 := ![first8 indices, second8 indices, third8 indices]
    ⟨0, indices, bytes, d.ret ++ List.ofFn bytes⟩
  else
    { d with i := d.i + 1, charArray4 := chars }

/-- Behind the loop only the characters in use are looked up. -/
def Decoder.indices (d : Decoder) : Octets 4 := fun j =>
  if j < d.i then findChar (d.charArray4 j) else d.charArray4 j

/-- `if (i)` behind the loop. -/
def Decoder.finish (d : Decoder) : Bytes :=
  if d.i = 0 then d.ret
  else
    let bytes : Octets 3 := ![first8 d.indices, second8 d.indices, d.charArray3 2]
    d.ret ++ (List.ofFn bytes).take (d.i - 1)

/-- A character that the loop of `base64_decode` goes past. -/
def goesOn (c : UInt8) : Bool := c ≠ equalsSign && isBase64 c

/-- The loop of `base64_decode` over what is left of the text; `none` where `in_++` overflows. -/
def Decoder.loop (in_ : Nat) (d : Decoder) : Bytes → Option Decoder
  | [] => some d
  | c :: rest =>
      if goesOn c then
        if in_ + 1 < 2 ^ 31 then (d.push c).loop (in_ + 1) rest else none
      else
        some d

def base64Decode (stale4 : Octets 4) (stale3 : Octets 3) (encodedString : Bytes) : Option Bytes :=
  (Decoder.loop 0 ⟨0, stale4, stale3, []⟩ encodedString).map Decoder.finish

/-! ## Specification -/

/-- Digit `k` of a 24-bit group, in base 64, the highest first. -/
def sextet (group k : Nat) : UInt8 := charAt (UInt8.ofNat (group / 64 ^ (3 - k) % 64))

/-- The encoding in base 64: groups of 24 bits as four digits, the last group filled up with
zero bits, and the digits it does not need replaced by `=`. -/
def encoding : Bytes → Bytes
  | [] => []
  | [a] =>
      let group := 65536 * a.toNat
      [sextet group 0, sextet group 1, equalsSign, equalsSign]
  | [a, b] =>
      let group := 65536 * a.toNat + 256 * b.toNat
      [sextet group 0, sextet group 1, sextet group 2, equalsSign]
  | a :: b :: c :: rest =>
      let group := 65536 * a.toNat + 256 * b.toNat + c.toNat
      sextet group 0 :: sextet group 1 :: sextet group 2 :: sextet group 3 :: encoding rest

/-! ## Masks and shifts -/

theorem masks_below : ∀ n < 256, (n &&& 0xfc) >>> 2 = n / 4 ∧ (n &&& 0x03) <<< 4 % 256 = 16 * (n % 4) ∧
    (n &&& 0xf0) >>> 4 = n / 16 ∧ (n &&& 0x0f) <<< 2 % 256 = 4 * (n % 16) ∧ (n &&& 0xc0) >>> 6 = n / 64 ∧
    n &&& 0x3f = n % 64 := by
  decide +kernel

theorem masks_index : ∀ n < 64, n <<< 2 % 256 = 4 * n ∧ (n &&& 0x30) >>> 4 = n / 16 ∧
    (n &&& 0xf) <<< 4 % 256 = 16 * (n % 16) ∧ (n &&& 0x3c) >>> 2 = n / 4 ∧
    (n &&& 0x3) <<< 6 % 256 = 64 * (n % 4) := by
  decide +kernel

/-! ## Encoding -/

section Groups

variable (bytes : Octets 3)

/-- The bytes of a group as one number. -/
def group : Nat := 65536 * (bytes 0).toNat + 256 * (bytes 1).toNat + (bytes 2).toNat

theorem charAt_eq_sextet {index : UInt8} {k : Nat} (value : index.toNat = group bytes / 64 ^ (3 - k) % 64) :
    charAt index = sextet (group bytes) k := by
  rw [sextet, ← value, UInt8.ofNat_toNat]

theorem charAt_first6 : charAt (first6 bytes) = sextet (group bytes) 0 := by
  have value : (first6 bytes).toNat = (bytes 0).toNat / 4 := (masks_below _ (bytes 0).toNat_lt).1
  apply charAt_eq_sextet
  rw [value, group]
  have := (bytes 0).toNat_lt
  have := (bytes 1).toNat_lt
  have := (bytes 2).toNat_lt
  omega

theorem charAt_second6 : charAt (second6 bytes) = sextet (group bytes) 1 := by
  have high : ((bytes 0 &&& 0x03) <<< 4).toNat = 16 * ((bytes 0).toNat % 4) :=
    (masks_below _ (bytes 0).toNat_lt).2.1
  have low : ((bytes 1 &&& 0xf0) >>> 4).toNat = (bytes 1).toNat / 16 := (masks_below _ (bytes 1).toNat_lt).2.2.1
  apply charAt_eq_sextet
  rw [second6, UInt8.toNat_add, high, low, group]
  have := (bytes 1).toNat_lt
  have := (bytes 2).toNat_lt
  omega

theorem charAt_third6 : charAt (third6 bytes) = sextet (group bytes) 2 := by
  have high : ((bytes 1 &&& 0x0f) <<< 2).toNat = 4 * ((bytes 1).toNat % 16) :=
    (masks_below _ (bytes 1).toNat_lt).2.2.2.1
  have low : ((bytes 2 &&& 0xc0) >>> 6).toNat = (bytes 2).toNat / 64 := (masks_below _ (bytes 2).toNat_lt).2.2.2.2.1
  apply charAt_eq_sextet
  rw [third6, UInt8.toNat_add, high, low, group]
  have := (bytes 2).toNat_lt
  omega

theorem charAt_fourth6 : charAt (fourth6 bytes) = sextet (group bytes) 3 := by
  have value : (fourth6 bytes).toNat = (bytes 2).toNat % 64 := (masks_below _ (bytes 2).toNat_lt).2.2.2.2.2
  apply charAt_eq_sextet
  rw [value, group]
  omega

end Groups

/-- Three bytes leave the arrays full and their four characters in the result. -/
theorem push_group (stale3 : Octets 3) (stale4 : Octets 4) (ret : Bytes) (a b c : UInt8) :
    ∃ charArray3 charArray4, (((⟨0, stale3, stale4, ret⟩ : Encoder).push a).push b).push c =
      ⟨0, charArray3, charArray4, ret ++ [sextet (group ![a, b, c]) 0, sextet (group ![a, b, c]) 1,
        sextet (group ![a, b, c]) 2, sextet (group ![a, b, c]) 3]⟩ := by
  have filled : Function.update (Function.update (Function.update stale3 0 a) 1 b) 2 c = ![a, b, c] := by
    funext j
    fin_cases j <;> rfl
  refine ⟨![a, b, c], ![first6 ![a, b, c], second6 ![a, b, c], third6 ![a, b, c], fourth6 ![a, b, c]], ?_⟩
  rw [← charAt_first6, ← charAt_second6, ← charAt_third6, ← charAt_fourth6]
  have step := congrArg (fun bytes : Octets 3 => (⟨0, bytes,
    ![first6 bytes, second6 bytes, third6 bytes, fourth6 bytes],
    ret ++ (List.ofFn ![first6 bytes, second6 bytes, third6 bytes, fourth6 bytes]).map charAt⟩ : Encoder)) filled
  exact step

/-- The end of the input within a group. -/
theorem finish_one (stale3 : Octets 3) (stale4 : Octets 4) (ret : Bytes) (a : UInt8) :
    ((⟨0, stale3, stale4, ret⟩ : Encoder).push a).finish = ret ++ encoding [a] := by
  have filled : (fun j => if (1 : Fin 3) ≤ j then 0 else Function.update stale3 0 a j) = ![a, 0, 0] := by
    funext j
    fin_cases j <;> rfl
  have whole : 65536 * a.toNat = group ![a, 0, 0] := rfl
  rw [encoding, whole, ← charAt_first6, ← charAt_second6, ← filled]
  exact List.append_assoc _ _ _

theorem finish_two (stale3 : Octets 3) (stale4 : Octets 4) (ret : Bytes) (a b : UInt8) :
    (((⟨0, stale3, stale4, ret⟩ : Encoder).push a).push b).finish = ret ++ encoding [a, b] := by
  have filled : (fun j => if (2 : Fin 3) ≤ j then 0 else Function.update (Function.update stale3 0 a) 1 b j) =
      ![a, b, 0] := by
    funext j
    fin_cases j <;> rfl
  have whole : 65536 * a.toNat + 256 * b.toNat = group ![a, b, 0] := rfl
  rw [encoding, whole, ← charAt_first6, ← charAt_second6, ← charAt_third6, ← filled]
  exact List.append_assoc _ _ _

/-- The loop and what follows it, from the head of a group. -/
theorem finish_foldl_push (stale3 : Octets 3) (stale4 : Octets 4) (ret bytes : Bytes) :
    (bytes.foldl Encoder.push ⟨0, stale3, stale4, ret⟩).finish = ret ++ encoding bytes := by
  fun_induction encoding bytes generalizing stale3 stale4 ret with
  | case1 => exact (List.append_nil ret).symm
  | case2 a => exact finish_one stale3 stale4 ret a
  | case3 a b => exact finish_two stale3 stale4 ret a b
  | case4 a b c rest whole ih =>
    obtain ⟨charArray3, charArray4, pushed⟩ := push_group stale3 stale4 ret a b c
    rw [List.foldl_cons, List.foldl_cons, List.foldl_cons, pushed, ih, List.append_assoc]
    rfl

/-- `base64_encode` writes the encoding, whatever its arrays hold before. -/
theorem base64Encode_eq (stale3 : Octets 3) (stale4 : Octets 4) (bytes : Bytes) (inLen : UInt32) :
    base64Encode stale3 stale4 bytes inLen = encoding (bytes.take inLen.toNat) :=
  finish_foldl_push stale3 stale4 [] _

/-- The call of `WSConnection`. -/
theorem base64Encode_digest {digest : Bytes} (size : digest.length = 20) (stale3 : Octets 3) (stale4 : Octets 4) :
    base64Encode stale3 stale4 digest 20 = encoding digest :=
  (base64Encode_eq stale3 stale4 digest 20).trans (congrArg encoding (List.take_of_length_le (Nat.le_of_eq size)))

/-! ## Decoding -/

/-- The loop reads up to the first `=` or other character, if `in_` can count so far. -/
theorem loop_eq (d : Decoder) {in_ : Nat} (below : in_ < 2 ^ 31) (text : Bytes) :
    d.loop in_ text =
      if in_ + (text.takeWhile goesOn).length < 2 ^ 31 then some ((text.takeWhile goesOn).foldl Decoder.push d)
      else none := by
  induction text generalizing d in_ with
  | nil => exact (if_pos below).symm
  | cons c rest ih =>
      rw [Decoder.loop, List.takeWhile_cons]
      by_cases goes : goesOn c = true
      · rw [if_pos goes, if_pos goes, List.length_cons, List.foldl_cons]
        by_cases next : in_ + 1 < 2 ^ 31
        · rw [if_pos next, ih (d.push c) next, Nat.add_right_comm, Nat.add_assoc]
        · rw [if_neg next, if_neg (by omega)]
      · rw [if_neg goes, if_neg goes]
        exact (if_pos below).symm

theorem charAt_index : ∀ n < 64, findChar (charAt (UInt8.ofNat n)) = UInt8.ofNat n ∧
    goesOn (charAt (UInt8.ofNat n)) = true := by
  decide +kernel

/-- Digit `k` of a group as the decoder finds it. -/
def digit (group k : Nat) : UInt8 := UInt8.ofNat (group / 64 ^ (3 - k) % 64)

theorem findChar_sextet (group k : Nat) : findChar (sextet group k) = digit group k :=
  (charAt_index _ (Nat.mod_lt _ (by decide))).1

theorem goesOn_sextet (group k : Nat) : goesOn (sextet group k) = true :=
  (charAt_index _ (Nat.mod_lt _ (by decide))).2

theorem toNat_digit (group k : Nat) : (digit group k).toNat = group / 64 ^ (3 - k) % 64 := by
  rw [digit, UInt8.toNat_ofNat']
  exact Nat.mod_eq_of_lt (Nat.lt_of_lt_of_le (Nat.mod_lt _ (by decide)) (by decide))

theorem digit_lt {index : UInt8} {group k : Nat} (found : index = digit group k) : index.toNat < 64 := by
  rw [found, toNat_digit]
  exact Nat.mod_lt _ (by decide)

section Bytes

variable {indices : Octets 4} {a b c : UInt8}

theorem first8_eq (zeroth : indices 0 = digit (group ![a, b, c]) 0) (first : indices 1 = digit (group ![a, b, c]) 1) :
    first8 indices = a := by
  have high : (indices 0 <<< 2).toNat = 4 * (indices 0).toNat :=
    (masks_index _ (digit_lt zeroth)).1
  have low : ((indices 1 &&& 0x30) >>> 4).toNat = (indices 1).toNat / 16 :=
    (masks_index _ (digit_lt first)).2.1
  have whole : group ![a, b, c] = 65536 * a.toNat + 256 * b.toNat + c.toNat := rfl
  apply UInt8.toNat.inj
  rw [first8, UInt8.toNat_add, high, low, zeroth, first, toNat_digit, toNat_digit, whole]
  have := a.toNat_lt
  have := b.toNat_lt
  have := c.toNat_lt
  omega

theorem second8_eq (first : indices 1 = digit (group ![a, b, c]) 1) (second : indices 2 = digit (group ![a, b, c]) 2) :
    second8 indices = b := by
  have high : ((indices 1 &&& 0xf) <<< 4).toNat = 16 * ((indices 1).toNat % 16) :=
    (masks_index _ (digit_lt first)).2.2.1
  have low : ((indices 2 &&& 0x3c) >>> 2).toNat = (indices 2).toNat / 4 :=
    (masks_index _ (digit_lt second)).2.2.2.1
  have whole : group ![a, b, c] = 65536 * a.toNat + 256 * b.toNat + c.toNat := rfl
  apply UInt8.toNat.inj
  rw [second8, UInt8.toNat_add, high, low, first, second, toNat_digit, toNat_digit, whole]
  have := b.toNat_lt
  have := c.toNat_lt
  omega

theorem third8_eq (second : indices 2 = digit (group ![a, b, c]) 2) (third : indices 3 = digit (group ![a, b, c]) 3) :
    third8 indices = c := by
  have high : ((indices 2 &&& 0x3) <<< 6).toNat = 64 * ((indices 2).toNat % 4) :=
    (masks_index _ (digit_lt second)).2.2.2.2
  have whole : group ![a, b, c] = 65536 * a.toNat + 256 * b.toNat + c.toNat := rfl
  apply UInt8.toNat.inj
  rw [third8, UInt8.toNat_add, high, second, third, toNat_digit, toNat_digit, whole]
  have := c.toNat_lt
  omega

end Bytes

/-- Four characters are looked up and leave three bytes. -/
theorem push_four (stale4 : Octets 4) (stale3 : Octets 3) (ret : Bytes) {chars indices : Octets 4}
    (found : ∀ j, findChar (chars j) = indices j) :
    ((((⟨0, stale4, stale3, ret⟩ : Decoder).push (chars 0)).push (chars 1)).push (chars 2)).push (chars 3) =
      ⟨0, indices, ![first8 indices, second8 indices, third8 indices],
        ret ++ [first8 indices, second8 indices, third8 indices]⟩ := by
  have filled : (fun j => findChar (Function.update (Function.update (Function.update (Function.update stale4 0
      (chars 0)) 1 (chars 1)) 2 (chars 2)) 3 (chars 3) j)) = indices := by
    funext j
    fin_cases j <;> exact found _
  exact congrArg (fun indices : Octets 4 => (⟨0, indices, ![first8 indices, second8 indices, third8 indices],
    ret ++ List.ofFn ![first8 indices, second8 indices, third8 indices]⟩ : Decoder)) filled

/-- Four digits of a group leave its three bytes in the result. -/
theorem push_quad (stale4 : Octets 4) (stale3 : Octets 3) (ret : Bytes) (a b c : UInt8) :
    ∃ charArray4 charArray3,
      ((((⟨0, stale4, stale3, ret⟩ : Decoder).push (sextet (group ![a, b, c]) 0)).push
        (sextet (group ![a, b, c]) 1)).push (sextet (group ![a, b, c]) 2)).push (sextet (group ![a, b, c]) 3) =
      ⟨0, charArray4, charArray3, ret ++ [a, b, c]⟩ := by
  have found : ∀ k : Fin 4, findChar (sextet (group ![a, b, c]) k) = digit (group ![a, b, c]) k := fun k =>
    findChar_sextet _ _
  have quad := push_four stale4 stale3 ret found
  rw [first8_eq rfl rfl, second8_eq rfl rfl, third8_eq rfl rfl] at quad
  exact ⟨_, _, quad⟩

/-- The end of the input behind two digits of a group. -/
theorem finish_two_digits (stale4 : Octets 4) (stale3 : Octets 3) (ret : Bytes) (a b c : UInt8) :
    (((⟨0, stale4, stale3, ret⟩ : Decoder).push (sextet (group ![a, b, c]) 0)).push
      (sextet (group ![a, b, c]) 1)).finish = ret ++ [a] := by
  have first : first8 (((⟨0, stale4, stale3, ret⟩ : Decoder).push (sextet (group ![a, b, c]) 0)).push
      (sextet (group ![a, b, c]) 1)).indices = a :=
    first8_eq (findChar_sextet _ _) (findChar_sextet _ _)
  exact congrArg (fun byte => ret ++ [byte]) first

theorem finish_three_digits (stale4 : Octets 4) (stale3 : Octets 3) (ret : Bytes) (a b c : UInt8) :
    ((((⟨0, stale4, stale3, ret⟩ : Decoder).push (sextet (group ![a, b, c]) 0)).push
      (sextet (group ![a, b, c]) 1)).push (sextet (group ![a, b, c]) 2)).finish = ret ++ [a, b] := by
  let d := (((⟨0, stale4, stale3, ret⟩ : Decoder).push (sextet (group ![a, b, c]) 0)).push
      (sextet (group ![a, b, c]) 1)).push (sextet (group ![a, b, c]) 2)
  have first : first8 d.indices = a := first8_eq (findChar_sextet _ _) (findChar_sextet _ _)
  have second : second8 d.indices = b := second8_eq (findChar_sextet _ _) (findChar_sextet _ _)
  exact congrArg₂ (fun one two => ret ++ [one, two]) first second

/-- The loop and what follows it, on the encoding of some bytes. -/
theorem finish_foldl_goesOn (stale4 : Octets 4) (stale3 : Octets 3) (ret bytes : Bytes) :
    (((encoding bytes).takeWhile goesOn).foldl Decoder.push ⟨0, stale4, stale3, ret⟩).finish = ret ++ bytes := by
  have ends : goesOn equalsSign = false := rfl
  fun_induction encoding bytes generalizing stale4 stale3 ret with
  | case1 => exact (List.append_nil ret).symm
  | case2 a =>
    simp only [List.takeWhile_cons, goesOn_sextet, ends, if_true, Bool.false_eq_true, if_false]
    exact finish_two_digits stale4 stale3 ret a 0 0
  | case3 a b =>
    simp only [List.takeWhile_cons, goesOn_sextet, ends, if_true, Bool.false_eq_true, if_false]
    exact finish_three_digits stale4 stale3 ret a b 0
  | case4 a b c rest whole ih =>
    obtain ⟨charArray4, charArray3, pushed⟩ := push_quad stale4 stale3 ret a b c
    simp only [List.takeWhile_cons, goesOn_sextet, if_true, List.foldl_cons]
    have later := ih charArray4 charArray3 (ret ++ [a, b, c])
    rw [← pushed, List.append_assoc] at later
    exact later

/-- The characters of the encoding in front of the padding. -/
theorem length_takeWhile_encoding (bytes : Bytes) :
    ((encoding bytes).takeWhile goesOn).length =
      4 * (bytes.length / 3) + (if bytes.length % 3 = 0 then 0 else bytes.length % 3 + 1) := by
  have ends : goesOn equalsSign = false := rfl
  fun_induction encoding bytes with
  | case1 => rfl
  | case2 a => simp [goesOn_sextet, ends]
  | case3 a b => simp [goesOn_sextet, ends]
  | case4 a b c rest whole ih =>
    simp only [List.takeWhile_cons, goesOn_sextet, if_true, List.length_cons, ih]
    rw [show rest.length + 1 + 1 + 1 = rest.length + 3 from rfl, Nat.add_div_right _ (by decide), Nat.add_mod_right]
    omega

/-- `base64_decode` of an encoding. -/
theorem base64Decode_encoding (stale4 : Octets 4) (stale3 : Octets 3) (bytes : Bytes) :
    base64Decode stale4 stale3 (encoding bytes) = if bytes.length < 3 * 2 ^ 29 then some bytes else none := by
  have fits : 0 + ((encoding bytes).takeWhile goesOn).length < 2 ^ 31 ↔ bytes.length < 3 * 2 ^ 29 := by
    rw [length_takeWhile_encoding]
    split <;> omega
  rw [base64Decode, loop_eq _ (by decide)]
  by_cases short : bytes.length < 3 * 2 ^ 29
  · rw [if_pos (fits.mpr short), if_pos short, Option.map_some, finish_foldl_goesOn, List.nil_append]
  · rw [if_neg (mt fits.mp short), if_neg short, Option.map_none]

/-- Whatever the arrays of the two functions hold before, `base64_decode` gives back the bytes that
`base64_encode` was called with, exactly if they are fewer than 3 * 2 ^ 29: from there on its index
overflows. -/
theorem base64Decode_base64Encode_iff (stale3 : Octets 3) (stale4 : Octets 4) (stale4' : Octets 4)
    (stale3' : Octets 3) (bytes : Bytes) :
    base64Decode stale4' stale3' (base64Encode stale3 stale4 bytes (UInt32.ofNat bytes.length)) = some bytes ↔
      bytes.length < 3 * 2 ^ 29 := by
  rw [base64Encode_eq, base64Decode_encoding, UInt32.toNat_ofNat', Option.ite_none_right_eq_some,
    List.length_take, Option.some.injEq]
  constructor
  · rintro ⟨short, whole⟩
    -- an `in_len` that was cut off loses bytes
    have size := congrArg List.length whole
    rw [List.length_take] at size
    omega
  · intro short
    rw [Nat.mod_eq_of_lt (by omega), List.take_length, Nat.min_self]
    exact ⟨short, rfl⟩

example : base64Encode (fun _ => 7) (fun _ => 7) (ascii "Man") 3 = ascii "TWFu" := by decide +kernel

end SwitchLanPlay.Rpc.Base64
