import Mathlib.Data.List.Count
import SwitchLanPlay.Library.Bytes

/-!
# Basic strings

The basic strings of TOML 1.0: a text between quotation marks on one line.  A quotation
mark, a backslash and the control characters other than the tabulator stand in it as
escapes, every other character as itself.
-/

namespace SwitchLanPlay.Library.Toml

abbrev quotation : UInt8 := 34
abbrev backslash : UInt8 := 92
abbrev newline : UInt8 := 10

/-! ## Characters -/

/-- No control character, or the tabulator. -/
def Printable (c : Char) : Prop := c.toNat = 9 ∨ 32 ≤ c.toNat ∧ c.toNat ≠ 127

instance : DecidablePred Printable := fun c => inferInstanceAs (Decidable (c.toNat = 9 ∨ 32 ≤ c.toNat ∧ c.toNat ≠ 127))

theorem utf8EncodeChar_ascii {c : Char} (ascii : c.toNat ≤ 127) :
    String.utf8EncodeChar c = [UInt8.ofNat c.toNat] :=
  if_pos ascii

/-- A byte of a character is the character, or above ASCII. -/
theorem mem_utf8EncodeChar {c : Char} {byte : UInt8} (member : byte ∈ String.utf8EncodeChar c) :
    byte.toNat = c.toNat ∨ 128 ≤ byte.toNat := by
  by_cases ascii : c.toNat ≤ 127
  · rw [utf8EncodeChar_ascii ascii, List.mem_singleton] at member
    subst member
    left
    simp only [UInt8.toNat_ofNat']
    omega
  · right
    have above : ¬ c.val.toNat ≤ 127 := ascii
    have small (n : Nat) (bound : n < 256) (large : 128 ≤ n) : 128 ≤ (UInt8.ofNat n).toNat := by
      rwa [UInt8.toNat_ofNat_of_lt' bound]
    by_cases two : c.val.toNat ≤ 2047
    · simp only [String.utf8EncodeChar, above, two, if_false, if_true, List.mem_cons, List.not_mem_nil,
        or_false] at member
      rcases member with rfl | rfl <;> exact small _ (by omega) (by omega)
    · by_cases three : c.val.toNat ≤ 65535
      · simp only [String.utf8EncodeChar, above, two, three, if_false, if_true, List.mem_cons, List.not_mem_nil,
          or_false] at member
        rcases member with rfl | rfl | rfl <;> exact small _ (by omega) (by omega)
      · simp only [String.utf8EncodeChar, above, two, three, if_false, List.mem_cons, List.not_mem_nil,
          or_false] at member
        rcases member with rfl | rfl | rfl | rfl <;> exact small _ (by omega) (by omega)

theorem notMem_utf8EncodeChar {c : Char} {byte : UInt8} (ascii : byte.toNat < 128) (other : byte.toNat ≠ c.toNat) :
    byte ∉ String.utf8EncodeChar c := by
  intro member
  rcases mem_utf8EncodeChar member with same | above
  · exact other same
  · exact absurd ascii above.not_gt

/-- The bytes of a text without backslashes and control characters. -/
def Plain (value : Bytes) : Prop :=
  ∃ chars : List Char, value = chars.flatMap String.utf8EncodeChar ∧ ∀ c ∈ chars, Printable c ∧ c ≠ '\\'

theorem Plain.nil : Plain [] := ⟨[], rfl, List.forall_mem_nil _⟩

theorem Plain.cons {c : Char} {value : Bytes} (printable : Printable c) (other : c ≠ '\\') (rest : Plain value) :
    Plain (String.utf8EncodeChar c ++ value) := by
  obtain ⟨chars, rfl, each⟩ := rest
  exact ⟨c :: chars, rfl, List.forall_mem_cons.mpr ⟨⟨printable, other⟩, each⟩⟩

/-- The ASCII bytes of such a text. -/
theorem Plain.of_mem {value : Bytes} (plain : Plain value) {byte : UInt8} (member : byte ∈ value)
    (ascii : byte.toNat < 128) : (byte.toNat = 9 ∨ 32 ≤ byte.toNat ∧ byte.toNat ≠ 127) ∧ byte ≠ backslash := by
  obtain ⟨chars, rfl, each⟩ := plain
  obtain ⟨c, inside, within⟩ := List.mem_flatMap.mp member
  obtain ⟨printable, noBackslash⟩ := each c inside
  rcases mem_utf8EncodeChar within with same | above
  · rw [same]
    refine ⟨printable, ?_⟩
    rintro rfl
    exact noBackslash (Char.toNat_inj.mp same.symm)
  · exact absurd ascii above.not_gt

/-! ## The grammar -/

/-- The letters behind a backslash, and the bytes that they stand for. -/
def shortEscapes : List (UInt8 × UInt8) :=
  [(98, 8), (116, 9), (110, 10), (102, 12), (114, 13), (quotation, quotation), (backslash, backslash)]

/-- No letter is the end of the line, and a quotation mark stands for itself. -/
theorem shortEscapes_letters :
    ∀ entry ∈ shortEscapes, newline ≠ entry.1 ∧ (entry.1 = quotation → entry.2 = quotation) := by
  simp only [shortEscapes, List.forall_mem_cons, List.not_mem_nil, false_implies, implies_true]
  decide

def hexDigit (byte : UInt8) : Option Nat :=
  if 48 ≤ byte ∧ byte ≤ 57 then some (byte.toNat - 48)
  else if 65 ≤ byte ∧ byte ≤ 70 then some (byte.toNat - 55)
  else if 97 ≤ byte ∧ byte ≤ 102 then some (byte.toNat - 87)
  else none

/-- How many digits follow `\u` and `\U`. -/
def hexDigits : List (UInt8 × Nat) := [(117, 4), (85, 8)]

theorem hexDigits_letters : ∀ entry ∈ hexDigits, newline ≠ entry.1 ∧ entry.1 ≠ quotation ∧ 4 ≤ entry.2 := by
  simp only [hexDigits, List.forall_mem_cons, List.not_mem_nil, false_implies, implies_true]
  decide

/-- What stands between the quotation marks, and the bytes that it means. -/
inductive Body : Bytes → Bytes → Prop where
  | nil : Body [] []
  | char {c : Char} {text value : Bytes} (printable : Printable c) (noQuotation : c ≠ '"') (noBackslash : c ≠ '\\')
      (rest : Body text value) :
      Body (String.utf8EncodeChar c ++ text) (String.utf8EncodeChar c ++ value)
  | short {letter byte : UInt8} {text value : Bytes} (listed : (letter, byte) ∈ shortEscapes)
      (rest : Body text value) : Body (backslash :: letter :: text) (byte :: value)
  | unicode {letter : UInt8} {digits text value : Bytes} {c : Char} (listed : (letter, digits.length) ∈ hexDigits)
      (hex : ∀ digit ∈ digits, (hexDigit digit).isSome)
      (code : digits.foldl (fun number digit => 16 * number + (hexDigit digit).getD 0) 0 = c.toNat)
      (rest : Body text value) : Body (backslash :: letter :: (digits ++ text)) (String.utf8EncodeChar c ++ value)

/-- A basic string, and the bytes that it means. -/
def BasicString (text value : Bytes) : Prop :=
  ∃ body, text = quotation :: body ++ [quotation] ∧ Body body value

theorem notMem_hex {byte : UInt8} {digits : Bytes} (none : hexDigit byte = none)
    (hex : ∀ digit ∈ digits, (hexDigit digit).isSome) : byte ∉ digits := by
  intro member
  have some := hex byte member
  rw [none] at some
  cases some

/-- A basic string stays on its line. -/
theorem Body.newline_notMem {text value : Bytes} (body : Body text value) : newline ∉ text := by
  induction body with
  | nil => exact List.not_mem_nil
  | @char c text value printable _ _ _ ih =>
      have other : newline.toNat ≠ c.toNat := by
        rcases printable with tabulator | ⟨above, -⟩
        · rw [tabulator]
          decide
        · exact fun same => absurd (same ▸ above) (by decide)
      exact List.not_mem_append (notMem_utf8EncodeChar (by decide) other) ih
  | short listed _ ih =>
      have letter := (shortEscapes_letters _ listed).1
      exact List.not_mem_cons_of_ne_of_not_mem (by decide) (List.not_mem_cons_of_ne_of_not_mem letter ih)
  | @unicode _ digits _ _ _ listed hex _ _ ih =>
      have letter := (hexDigits_letters _ listed).1
      have noDigit : newline ∉ digits := notMem_hex (by decide) hex
      exact List.not_mem_cons_of_ne_of_not_mem (by decide)
        (List.not_mem_cons_of_ne_of_not_mem letter (List.not_mem_append noDigit ih))

/-- Every escape is longer than what it means, and only the one for a quotation mark is longer
by no more than the mark that it has. -/
theorem Body.slack {text value : Bytes} (body : Body text value) :
    value.length + text.count quotation < text.length ∨
      Plain value ∧ value.length + text.count quotation = text.length := by
  induction body with
  | nil => exact .inr ⟨.nil, rfl⟩
  | @char c text value printable noQuotation noBackslash _ ih =>
      have other : quotation.toNat ≠ c.toNat := fun same => noQuotation (Char.toNat_inj.mp same.symm)
      have none := List.count_eq_zero_of_not_mem (notMem_utf8EncodeChar (by decide) other)
      simp only [List.length_append, List.count_append, none]
      rcases ih with strict | ⟨plain, equal⟩
      · exact .inl (by omega)
      · exact .inr ⟨plain.cons printable noBackslash, by omega⟩
  | @short letter byte text value listed _ ih =>
      have mark : (backslash == quotation) = false := by decide
      simp only [List.length_cons, List.count_cons, mark, beq_iff_eq, Bool.false_eq_true, if_false]
      by_cases quoted : letter = quotation
      · obtain rfl : byte = quotation := (shortEscapes_letters _ listed).2 quoted
        simp only [quoted, if_true]
        rcases ih with strict | ⟨plain, equal⟩
        · exact .inl (by omega)
        · exact .inr ⟨plain.cons (c := '"') (by decide) (by decide), by omega⟩
      · simp only [quoted, if_false]
        rcases ih with strict | ⟨-, equal⟩
        · exact .inl (by omega)
        · exact .inl (by omega)
  | @unicode letter digits text value c listed hex _ _ ih =>
      -- six or ten bytes stand for at most four
      obtain ⟨-, other, many⟩ := hexDigits_letters _ listed
      have none : digits.count quotation = 0 := List.count_eq_zero_of_not_mem (notMem_hex (by decide) hex)
      have few := c.utf8Size_le_four
      have mark : (backslash == quotation) = false := by decide
      have letters : (letter == quotation) = false := beq_false_of_ne other
      simp only [List.length_cons, List.count_cons, List.length_append, List.count_append, none, letters, mark,
        Bool.false_eq_true, if_false, String.length_utf8EncodeChar]
      rcases ih with strict | ⟨-, equal⟩
      · exact .inl (by omega)
      · exact .inl (by omega)

end SwitchLanPlay.Library.Toml
