import SwitchLanPlay.Library.BasicStrings
import SwitchLanPlay.Library.Lines
import SwitchLanPlay.Rpc.Commands

/-!
# Quoted texts in replies

A reply of the RPC server (`rpc/rpc-server.cpp`) is TOML, and its texts are written as
basic strings.  `escape` puts a backslash in front of the quotation marks and leaves every
other byte alone.  The text can be read again if it has no backslash and no control
character; a text with one can end its string, or its line, too early.
-/

namespace SwitchLanPlay.Rpc.Lifecycle

open Library Library.Toml

/-! ## `stringReplace` -/

/-- `str.find(src)` -/
def findText (src str : Bytes) : Option Nat := str.tails.findIdx? src.isPrefixOf

/-- Behind a text that was found there is less. -/
theorem length_drop_found {src str : Bytes} {pos : Nat} (filled : src ≠ []) (found : findText src str = some pos) :
    (str.drop (pos + src.length)).length < str.length := by
  have length := List.length_pos_of_ne_nil filled
  cases str with
  | nil =>
      cases src with
      | nil => exact absurd rfl filled
      | cons first more => cases found
  | cons first more =>
      rw [List.length_drop, List.length_cons]
      omega

/-- `stringReplace` of a text that is not empty.  The argument is the string from `pos` on:
a search begins behind what was put in last. -/
def stringReplace {src : Bytes} (filled : src ≠ []) (dst str : Bytes) : Bytes :=
  match _found : findText src str with
  | none => str
  | some pos => str.take pos ++ dst ++ stringReplace filled dst (str.drop (pos + src.length))
termination_by str.length
decreasing_by exact length_drop_found filled ‹_›

/-- `stringReplace(value, "\"", "\\\"")` -/
def escaped (value : Bytes) : Bytes :=
  value.flatMap fun byte => if byte = quotation then [backslash, quotation] else [byte]

theorem escape_eq (value : Bytes) : escape value = quotation :: escaped value ++ [quotation] := rfl

theorem escaped_append (first second : Bytes) : escaped (first ++ second) = escaped first ++ escaped second :=
  List.flatMap_append

theorem escaped_quotation (rest : Bytes) : escaped (quotation :: rest) = backslash :: quotation :: escaped rest := rfl

theorem escaped_of_notMem {text : Bytes} (free : quotation ∉ text) : escaped text = text := by
  induction text with
  | nil => rfl
  | cons byte rest ih =>
      obtain ⟨other, later⟩ := List.ne_and_not_mem_of_not_mem_cons free
      rw [escaped, List.flatMap_cons, if_neg (Ne.symm other)]
      exact congrArg (byte :: ·) (ih later)

theorem findText_singleton (byte : UInt8) (str : Bytes) : findText [byte] str = str.findIdx? (· = byte) := by
  induction str with
  | nil => rfl
  | cons first more ih =>
      have head : [byte].isPrefixOf (first :: more) = decide (first = byte) := by
        simp [List.isPrefixOf, beq_eq_decide, eq_comm]
      rw [findText, List.tails_cons, List.findIdx?_cons, List.findIdx?_cons, head, ← ih]
      rfl

/-- The loop puts a backslash in front of each quotation mark. -/
theorem stringReplace_quotation (value : Bytes) :
    stringReplace (List.cons_ne_nil quotation []) [backslash, quotation] value = escaped value := by
  induction length : value.length using Nat.strongRecOn generalizing value with
  | ind n ih =>
      rw [stringReplace]
      split
      next none =>
          rw [findText_singleton, List.findIdx?_eq_none_iff] at none
          have free : quotation ∉ value := fun member => absurd (none _ member) (by decide)
          rw [escaped_of_notMem free]
      next pos found =>
          rw [findText_singleton, findIdx?_eq_some_iff_cut] at found
          obtain ⟨front, rest, rfl, free, rfl⟩ := found
          -- cut at the first quotation mark; the loop goes on with what is behind it
          have shorter : rest.length < n := by
            rw [← length, List.length_append, List.length_cons]
            omega
          have behind : (front ++ quotation :: rest).drop (front.length + [quotation].length) = rest := by
            rw [List.drop_length_add_append]
            rfl
          rw [behind, ih _ shorter rest rfl, List.take_left, escaped_append, escaped_quotation, escaped_of_notMem free]
          simp

theorem escape_eq_stringReplace (value : Bytes) :
    escape value = ascii "\"" ++ stringReplace (List.cons_ne_nil quotation []) (ascii "\\\"") value ++ ascii "\"" := by
  have replaced := stringReplace_quotation value
  change _ = quotation :: stringReplace (List.cons_ne_nil quotation []) [backslash, quotation] value ++ [quotation]
  rw [replaced, escape_eq]

/-! ## Texts -/

theorem length_escaped (value : Bytes) : (escaped value).length = value.length + value.count quotation := by
  induction value with
  | nil => rfl
  | cons byte rest ih =>
      rw [← List.singleton_append, escaped_append, List.length_append, ih, List.count_append, List.length_append]
      by_cases mark : byte = quotation
      · subst mark
        simp [escaped]
        omega
      · have free : quotation ∉ [byte] := by simpa using Ne.symm mark
        rw [escaped_of_notMem free, List.count_eq_zero_of_not_mem free]
        omega

theorem count_escaped (value : Bytes) : (escaped value).count quotation = value.count quotation := by
  induction value with
  | nil => rfl
  | cons byte rest ih =>
      rw [← List.singleton_append, escaped_append, List.count_append, ih, List.count_append]
      by_cases mark : byte = quotation
      · subst mark
        rfl
      · have free : quotation ∉ [byte] := by simpa using Ne.symm mark
        rw [escaped_of_notMem free]

/-- What `escape` writes means the text that it was given, if that one is plain. -/
theorem body_escaped_iff (value : Bytes) : Body (escaped value) value ↔ Plain value := by
  constructor
  · intro body
    -- `escape` adds one byte for each quotation mark: there is no room for another escape
    rcases body.slack with strict | ⟨plain, -⟩
    · rw [length_escaped, count_escaped] at strict
      exact absurd strict (lt_irrefl _)
    · exact plain
  · rintro ⟨chars, rfl, each⟩
    induction chars with
    | nil => exact .nil
    | cons c rest ih =>
        obtain ⟨⟨printable, noBackslash⟩, others⟩ := List.forall_mem_cons.mp each
        rw [List.flatMap_cons, escaped_append]
        by_cases mark : c = '"'
        · subst mark
          exact .short (by decide) (ih others)
        · have free : quotation ∉ String.utf8EncodeChar c :=
            notMem_utf8EncodeChar (by decide) fun same => mark (Char.toNat_inj.mp same.symm)
          rw [escaped_of_notMem free]
          exact .char printable mark noBackslash (ih others)

theorem basicString_escape_iff (value : Bytes) : BasicString (escape value) value ↔ Plain value := by
  rw [← body_escaped_iff, escape_eq]
  constructor
  · rintro ⟨body, same, means⟩
    have bodies := List.append_cancel_right (List.cons.inj same).2
    rwa [bodies]
  · exact fun means => ⟨_, rfl, means⟩

theorem newline_notMem_escape {value : Bytes} (plain : Plain value) : newline ∉ escape value := by
  have body := ((body_escaped_iff value).mpr plain).newline_notMem
  rw [escape_eq]
  exact List.not_mem_append (List.not_mem_cons_of_ne_of_not_mem (by decide) body) (by decide)

/-! ## Lines -/

/-- The text is a single line: the key, and a basic string that means the value. -/
structure TextLine (key value text quoted : Bytes) : Prop where
  text_eq : text = key ++ ascii "=" ++ quoted ++ [newline]
  single : newline ∉ key ++ ascii "=" ++ quoted
  means : BasicString quoted value

theorem kvText_reads_iff (key : String) (value : Bytes) :
    (∃ quoted, TextLine (ascii key) value (kvText key value) quoted) ↔ newline ∉ ascii key ∧ Plain value := by
  constructor
  · rintro ⟨quoted, text_eq, single, means⟩
    have same : escape value = quoted := List.append_cancel_left (List.append_cancel_right text_eq)
    rw [← same, basicString_escape_iff] at means
    refine ⟨fun member => single ?_, means⟩
    exact List.mem_append_left _ (List.mem_append_left _ member)
  · rintro ⟨free, plain⟩
    refine ⟨escape value, rfl, ?_, (basicString_escape_iff value).mpr plain⟩
    exact List.not_mem_append (List.not_mem_append free (by decide)) (newline_notMem_escape plain)

/-! ## Tables -/

inductive Value where
  | text (bytes : Bytes)
  | int (number : Int)
  | bool (flag : Bool)

/-- A value as it stands in TOML. -/
inductive ValueText : Bytes → Value → Prop where
  | text {quoted value : Bytes} (means : BasicString quoted value) : ValueText quoted (.text value)
  | int (number : Int) : ValueText (ascii (toString number)) (.int number)
  | bool (flag : Bool) : ValueText (ascii (if flag then "true" else "false")) (.bool flag)

/-- A line with a key and a value. -/
def EntryLine (line : Bytes) (entry : String × Value) : Prop :=
  ∃ text, line = ascii entry.1 ++ ascii "=" ++ text ∧ ValueText text entry.2

def headerLine (title : String) : Bytes := ascii "[" ++ ascii title ++ ascii "]"

/-- A table: the line with its title, and one line for each entry. -/
def TableText (text : Bytes) (title : String) (entries : List (String × Value)) : Prop :=
  ∃ lines, text = terminated newline (headerLine title :: lines) ∧
    (∀ line ∈ headerLine title :: lines, newline ∉ line) ∧ List.Forall₂ EntryLine lines entries

/-- The configuration as a table. -/
def LanPlayConfig.entries (config : LanPlayConfig) : List (String × Value) :=
  [("relayServer", .text config.relayServer), ("socks5Server", .text config.socks5Server),
    ("pmtu", .int config.pmtu), ("fakeInternet", .bool config.fakeInternet), ("broadcast", .bool config.broadcast)]

/-- The value as the overloads of `kv` write it. -/
def Value.written : Value → Bytes
  | .text bytes => escape bytes
  | .int number => ascii (toString number)
  | .bool flag => ascii (if flag then "true" else "false")

def writtenLine (entry : String × Value) : Bytes := ascii entry.1 ++ ascii "=" ++ entry.2.written

theorem ascii_append (first second : String) : ascii (first ++ second) = ascii first ++ ascii second := by
  simp [ascii]

theorem getConfig_eq (title : String) (config : LanPlayConfig) :
    getConfig title config = terminated newline (headerLine title :: config.entries.map writtenLine) := by
  have header : ascii ("[" ++ title ++ "]\n") = headerLine title ++ [newline] := by
    rw [ascii_append, ascii_append, headerLine, List.append_assoc, List.append_assoc, List.append_assoc]
    rfl
  have feed : ascii "\n" = [newline] := rfl
  simp only [getConfig, header, terminated, kvText, kvInt, kvBool, keyed, feed, LanPlayConfig.entries, List.map_cons,
    List.map_nil, List.flatMap_cons, List.flatMap_nil, writtenLine, Value.written, List.append_assoc,
    List.append_nil]

/-- The texts among the values are plain. -/
def Value.PlainText : Value → Prop
  | .text bytes => Plain bytes
  | _ => True

theorem valueText_text_iff {quoted value : Bytes} : ValueText quoted (.text value) ↔ BasicString quoted value := by
  constructor
  · intro text
    cases text with
    | text means => exact means
  · exact .text

theorem valueText_written_iff (value : Value) : ValueText value.written value ↔ value.PlainText := by
  cases value with
  | text bytes => exact valueText_text_iff.trans (basicString_escape_iff bytes)
  | int number => exact iff_of_true (.int number) trivial
  | bool flag => exact iff_of_true (.bool flag) trivial

theorem newline_notMem_decimal (number : Int) : newline ∉ ascii (toString number) := by
  have digits (n : Nat) : ∀ c ∈ (Nat.repr n).toList, newline ≠ UInt8.ofNat c.toNat := by
    intro c member same
    rw [Nat.repr, String.toList_ofList] at member
    have digit := Nat.isDigit_of_mem_toDigits (by decide) (by decide) member
    simp only [Char.isDigit, Bool.and_eq_true, decide_eq_true_eq, ge_iff_le, UInt32.le_iff_toNat_le] at digit
    have code := congrArg UInt8.toNat same
    rw [UInt8.toNat_ofNat'] at code
    have upper : c.toNat ≤ 57 := digit.2
    have lower : 48 ≤ c.toNat := digit.1
    change 10 = c.toNat % 2 ^ 8 at code
    omega
  intro member
  obtain ⟨c, inside, same⟩ := List.mem_map.mp member
  cases number with
  | ofNat n => exact digits n c inside same.symm
  | negSucc n =>
      rw [show toString (Int.negSucc n) = "-" ++ Nat.repr (n + 1) from rfl, String.toList_append,
        List.mem_append] at inside
      rcases inside with sign | digit
      · obtain rfl : c = '-' := by simpa using sign
        cases same
      · exact digits _ c digit same.symm

theorem newline_notMem_written {value : Value} (plain : value.PlainText) : newline ∉ value.written := by
  cases value with
  | text bytes => exact newline_notMem_escape plain
  | int number => exact newline_notMem_decimal number
  | bool flag => cases flag <;> decide

theorem entryLine_written_iff (entry : String × Value) : EntryLine (writtenLine entry) entry ↔ entry.2.PlainText := by
  rw [← valueText_written_iff]
  constructor
  · rintro ⟨text, same, means⟩
    rw [writtenLine, List.append_cancel_left_eq] at same
    rwa [same]
  · exact fun means => ⟨_, rfl, means⟩

/-- What is written is a table with the entries, if its lines stay lines and its texts are plain. -/
theorem tableText_written_iff (title : String) (entries : List (String × Value)) :
    TableText (terminated newline (headerLine title :: entries.map writtenLine)) title entries ↔
      newline ∉ headerLine title ∧ ∀ entry ∈ entries, newline ∉ ascii entry.1 ∧ entry.2.PlainText := by
  constructor
  · rintro ⟨lines, text_eq, free, each⟩
    have lengths := each.length_eq
    have same := terminated_inj_of_length (by simp [lengths]) free text_eq
    obtain rfl : entries.map writtenLine = lines := (List.cons.inj same).2
    obtain ⟨header, others⟩ := List.forall_mem_cons.mp free
    rw [List.forall₂_map_left_iff, List.forall₂_same] at each
    refine ⟨header, fun entry member => ⟨fun inside => ?_, (entryLine_written_iff entry).mp (each entry member)⟩⟩
    exact others _ (List.mem_map_of_mem member) (List.mem_append_left _ (List.mem_append_left _ inside))
  · rintro ⟨header, each⟩
    refine ⟨_, rfl, List.forall_mem_cons.mpr ⟨header, List.forall_mem_map.mpr fun entry member => ?_⟩, ?_⟩
    · obtain ⟨key, plain⟩ := each entry member
      exact List.not_mem_append (List.not_mem_append key (by decide)) (newline_notMem_written plain)
    · rw [List.forall₂_map_left_iff, List.forall₂_same]
      exact fun entry member => (entryLine_written_iff entry).mpr (each entry member).2

/-! ## Replies -/

/-- The configuration can be read in the text that `getConfig` writes. -/
def LanPlayConfig.Readable (title : String) (config : LanPlayConfig) : Prop :=
  TableText (getConfig title config) title config.entries

theorem LanPlayConfig.readable_iff (title : String) (config : LanPlayConfig) :
    config.Readable title ↔ newline ∉ ascii title ∧ Plain config.relayServer ∧ Plain config.socks5Server := by
  rw [Readable, getConfig_eq, tableText_written_iff]
  refine and_congr ?_ ?_
  · rw [headerLine]
    constructor
    · exact fun free inside => free (List.mem_append_left _ (List.mem_append_right _ inside))
    · exact fun free => List.not_mem_append (List.not_mem_append (by decide) free) (by decide)
  · have relay : newline ∉ ascii "relayServer" := by decide
    have socks5 : newline ∉ ascii "socks5Server" := by decide
    have pmtu : newline ∉ ascii "pmtu" := by decide
    have fake : newline ∉ ascii "fakeInternet" := by decide
    have broadcast : newline ∉ ascii "broadcast" := by decide
    simp only [entries, List.forall_mem_cons, relay, socks5, pmtu, fake, broadcast, Value.PlainText, not_false_eq_true,
      true_and, List.not_mem_nil, false_implies, implies_true, and_true]

/-- A text survives `kv` if it is plain, and the configuration `getConfig` if its texts are. -/
theorem quoting_reads_iff (key title : String) (value : Bytes) (config : LanPlayConfig) :
    ((∃ quoted, TextLine (ascii key) value (kvText key value) quoted) ↔ newline ∉ ascii key ∧ Plain value) ∧
      (config.Readable title ↔ newline ∉ ascii title ∧ Plain config.relayServer ∧ Plain config.socks5Server) :=
  ⟨kvText_reads_iff key value, config.readable_iff title⟩

/-- A backslash takes the closing quotation mark with it; and a text of two lines puts a
line of its own choice into the reply. -/
theorem quoting_backslash_newline :
    kvText "relayServer" (ascii "\\") = ascii "relayServer=\"\\\"\n" ∧
      (¬ ∃ quoted, TextLine (ascii "relayServer") (ascii "\\") (kvText "relayServer" (ascii "\\")) quoted) ∧
      kvText "relayServer" (ascii "a\nbroadcast=true") = ascii "relayServer=\"a\nbroadcast=true\"\n" ∧
      ¬ LanPlayConfig.Readable "config" { relayServer := ascii "a\nbroadcast=true" } := by
  refine ⟨by decide, ?_, by decide, ?_⟩
  · rw [kvText_reads_iff]
    rintro ⟨-, plain⟩
    have one : backslash ∈ ascii "\\" := by decide
    exact (plain.of_mem one (by decide)).2 rfl
  · rw [LanPlayConfig.readable_iff]
    rintro ⟨-, plain, -⟩
    have one : newline ∈ ascii "a\nbroadcast=true" := by decide
    exact absurd (plain.of_mem one (by decide)).1 (by decide)

/-! ## Conversations -/

/-- The message does not set a text that is not plain. -/
def SetsPlain (message : Bytes) : Prop :=
  (splitMessage message).1 = ascii "relayServer" ∨ (splitMessage message).1 = ascii "socks5Server" →
    Plain (splitMessage message).2

theorem SetsPlain.configuredBy {message : Bytes} (sets : SetsPlain message) {config : LanPlayConfig}
    (readable : config.Readable "config") : (configuredBy message config).Readable "config" := by
  rw [LanPlayConfig.readable_iff] at readable ⊢
  obtain ⟨title, relay, socks5⟩ := readable
  refine ⟨title, ?_⟩
  unfold Lifecycle.configuredBy
  cases found : Key.find (splitMessage message).1 with
  | none => exact ⟨relay, socks5⟩
  | some key =>
      have name := Key.find_eq_some.mp found
      cases key with
      | relayServer => exact ⟨sets (.inl name), socks5⟩
      | socks5Server => exact ⟨relay, sets (.inr name)⟩
      | pmtu =>
          dsimp only [configured]
          cases stoi (splitMessage message).2 with
          | ok number => exact ⟨relay, socks5⟩
          | error e => exact ⟨relay, socks5⟩
      | _ => exact ⟨relay, socks5⟩

theorem answer_readable {answers : Answers} {message reply : Bytes} {s after : LanPlay} (sets : SetsPlain message)
    (readable : s.config.Readable "config") (returned : answer answers message s = .ok (reply, after)) :
    after.config.Readable "config" := by
  have answered : ¬ Unanswered answers s message := by
    intro unanswered
    obtain ⟨ending, failed⟩ := unanswered.answer_eq_error
    cases failed.symm.trans returned
  obtain ⟨_, _, same, kept⟩ := answer_replies answered
  cases same.symm.trans returned
  rcases kept with kept | ⟨set, -⟩
  · rwa [kept]
  · rw [set]
    exact sets.configuredBy readable

/-- As long as clients set plain texts only, the configuration can be read. -/
theorem converse_readable {history : List (Answers × Bytes)} (sets : ∀ entry ∈ history, SetsPlain entry.2)
    {s after : LanPlay} {replies : List Bytes} (readable : s.config.Readable "config")
    (returned : converse history s = .ok (replies, after)) : after.config.Readable "config" := by
  induction history generalizing s replies with
  | nil =>
      cases returned
      exact readable
  | cons entry rest ih =>
      obtain ⟨now, later⟩ := List.forall_mem_cons.mp sets
      rw [converse] at returned
      cases first : answer entry.1 entry.2 s with
      | error ending =>
          rw [first] at returned
          cases returned
      | ok result =>
          have between := answer_readable now readable first
          rw [first] at returned
          change (converse rest result.2 >>= fun others => pure (result.1 :: others.1, others.2)) = _ at returned
          cases others : converse rest result.2 with
          | error ending =>
              rw [others] at returned
              cases returned
          | ok final =>
              rw [others] at returned
              cases returned
              exact ih later between others

end SwitchLanPlay.Rpc.Lifecycle
