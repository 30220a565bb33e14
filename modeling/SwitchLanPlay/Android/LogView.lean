import SwitchLanPlay.Library.Lines
import SwitchLanPlay.Library.Posting

/-!
# The log on the screen

`MainViewModel.log` reads the text of a `LiveData`, appends a line, cuts the text to its
last lines and posts it.  The text is that of the last 999 lines logged as long as each
line is dispatched before the next one is logged; a line that is not is lost.
-/

namespace SwitchLanPlay.Android

open Library

/-! ## Lines of a text -/

abbrev Text := List Char

def lineBreak (c : Char) : Bool := c = '\n' || c = '\r'

/-- `String.lines()`: a line ends at `\r\n`, `\n` or `\r`. -/
def lines : Text → List Text
  | [] => [[]]
  | '\r' :: '\n' :: rest => [] :: lines rest
  | c :: rest =>
      if lineBreak c then [] :: lines rest
      else
        match lines rest with
        | [] => [[c]]
        | line :: others => (c :: line) :: others

/-- A text without line breaks. -/
structure Line where
  text : Text
  unbroken : ∀ c ∈ text, lineBreak c = false
  deriving DecidableEq

/-- A message on one line, and the time at which it is logged. -/
structure Message where
  timestamp : Line
  message : Line
  deriving DecidableEq

/-- The line that is logged: `[timestamp] message`. -/
def Message.text (m : Message) : Text := ['['] ++ m.timestamp.text ++ [']', ' '] ++ m.message.text

/-! ## `log` -/

/-- The value that `log` posts when it has read `currentLogs`. -/
def log (currentLogs : Text) (m : Message) : Text :=
  let newLog := currentLogs ++ m.text ++ ['\n']
  let lines := lines newLog
  if 1000 < lines.length then ['\n'].intercalate (lines.rtake 1000) else newLog

/-- The text after a run of calls of `log` and dispatches, and once what waits then is
dispatched as well. -/
def logsAfter (turns : List (Turn Message)) : Text := (runTurns log ⟨[], none⟩ turns).latest

/-! ## Lines and their text -/

theorem lines_newline (rest : Text) : lines ('\n' :: rest) = [] :: lines rest := by
  rw [lines, if_pos (by decide)]
  nofun

theorem lines_cons {c : Char} (unbroken : lineBreak c = false) {rest line : Text} {others : List Text}
    (split : lines rest = line :: others) : lines (c :: rest) = (c :: line) :: others := by
  rw [lines, if_neg (by rw [unbroken]; decide), split]
  rintro rest' rfl
  cases unbroken

theorem lines_append {line : Text} (unbroken : ∀ c ∈ line, lineBreak c = false) (rest : Text) :
    lines (line ++ '\n' :: rest) = line :: lines rest := by
  induction line with
  | nil => exact lines_newline rest
  | cons c line ih =>
    apply lines_cons (unbroken c List.mem_cons_self)
    exact ih fun other member => unbroken other (List.mem_cons_of_mem _ member)

theorem lines_terminated (history : List Line) :
    lines (terminated '\n' (history.map Line.text)) = history.map Line.text ++ [[]] := by
  induction history with
  | nil => rfl
  | cons line rest ih =>
    rw [List.map_cons, terminated_cons, lines_append line.unbroken, ih]
    rfl

theorem Line.newline_notMem (line : Line) : '\n' ∉ line.text := by
  intro member
  cases line.unbroken _ member

/-- The line of a message has no line break either. -/
def Message.line (m : Message) : Line where
  text := m.text
  unbroken c member := by
    simp only [Message.text, List.mem_append, List.mem_cons, List.not_mem_nil, or_false] at member
    obtain ((rfl | stamp) | rfl | rfl) | message := member
    · rfl
    · exact m.timestamp.unbroken c stamp
    · rfl
    · rfl
    · exact m.message.unbroken c message

/-! ## The text is that of the last lines -/

/-- The text that shows a history of lines. -/
def shown (history : List Line) : Text := terminated '\n' ((history.rtake 999).map Line.text)

theorem shown_inj {first second : List Line} (same : shown first = shown second) :
    first.rtake 999 = second.rtake 999 := by
  have texts : (first.rtake 999).map Line.text = (second.rtake 999).map Line.text := by
    apply terminated_inj ?_ ?_ same
    · intro text member
      obtain ⟨line, -, rfl⟩ := List.mem_map.mp member
      exact line.newline_notMem
    · intro text member
      obtain ⟨line, -, rfl⟩ := List.mem_map.mp member
      exact line.newline_notMem
  apply List.map_injective_iff.mpr ?_ texts
  rintro ⟨text, unbroken⟩ ⟨text', unbroken'⟩ rfl
  rfl

/-- `log` on the text of a history is the text of the history with one more line:
the cut keeps the line break at the end, so of the thousand lines that it counts the
last one is empty. -/
theorem log_shown (history : List Line) (m : Message) : log (shown history) m = shown (history ++ [m.line]) := by
  have appended : shown history ++ m.text ++ ['\n'] =
      terminated '\n' ((history.rtake 999 ++ [m.line]).map Line.text) := by
    rw [List.map_append, List.map_singleton, terminated_concat]
    rfl
  have taken : (history.rtake 999 ++ [m.line]).rtake 999 = (history ++ [m.line]).rtake 999 := by
    rw [List.rtake_concat_succ, List.rtake_concat_succ, rtake_rtake (by decide)]
  have length : (history.rtake 999).length = min 999 history.length := length_rtake _ _
  unfold log
  dsimp only
  rw [appended, lines_terminated, List.length_append, List.length_map, List.length_append, length]
  split
  case isTrue long =>
    rw [List.rtake_concat_succ, intercalate_concat_nil, shown, ← taken, map_rtake]
  case isFalse short =>
    have few : history.length ≤ 998 := by
      rw [List.length_singleton, List.length_singleton] at short
      omega
    have fewer : (history ++ [m.line]).length ≤ 999 := by
      rw [List.length_append, List.length_singleton]
      omega
    rw [shown, rtake_of_length_le fewer, rtake_of_length_le (Nat.le_succ_of_le few)]

/-! ## Lines that are lost -/

/-- The lines logged in a run, in the order in which they were. -/
def logged (turns : List (Turn Message)) : List Line := (inputsOf turns).map Message.line

/-- The history that the text at the end shows. -/
def keptLines (turns : List (Turn Message)) : List Line :=
  (runTurns (fun history m => history ++ [Message.line m]) ⟨[], none⟩ turns).latest

theorem logsAfter_eq_shown (turns : List (Turn Message)) : logsAfter turns = shown (keptLines turns) := by
  have refines := runTurns_map log_shown turns ⟨[], none⟩
  change (runTurns log (Posted.map shown ⟨[], none⟩) turns).latest = _
  rw [refines, Posted.latest_map]
  rfl

theorem fork_keptLines (turns : List (Turn Message)) :
    Fork (keptLines turns) (logged turns) (currents false turns) :=
  (histories_runTurns Message.line turns .empty).fork

/-- Of the last 999 messages, each but the first was logged after everything before it
had been dispatched. -/
def KeepsUp (turns : List (Turn Message)) : Prop := ∀ current ∈ (currents false turns).rtake 998, current = true

instance (turns : List (Turn Message)) : Decidable (KeepsUp turns) :=
  inferInstanceAs (Decidable (∀ current ∈ (currents false turns).rtake 998, current = true))

/-- Once everything is dispatched, the text is that of the last 999 messages (of all, if
they are fewer) when the dispatches keep up with them.  When they do not, it is not,
unless the same line was logged twice. -/
theorem logsAfter_last_messages (turns : List (Turn Message)) :
    (KeepsUp turns → logsAfter turns = terminated '\n' (((inputsOf turns).rtake 999).map Message.text)) ∧
      (((inputsOf turns).map Message.text).Nodup →
        logsAfter turns = terminated '\n' (((inputsOf turns).rtake 999).map Message.text) → KeepsUp turns) := by
  have fork := fork_keptLines turns
  have expected : terminated '\n' (((inputsOf turns).rtake 999).map Message.text) = shown (logged turns) := by
    rw [shown, logged, ← map_rtake, List.map_map]
    rfl
  rw [logsAfter_eq_shown, expected]
  constructor
  · intro keepsUp
    rw [shown, shown, fork.rtake_eq keepsUp]
  · intro distinct same
    have distinctLines : (logged turns).Nodup := by
      apply List.Nodup.of_map Line.text
      rw [logged, List.map_map]
      exact distinct
    exact fork.current_of_rtake_eq distinctLines (shown_inj same)

theorem unbroken_nil : ∀ c ∈ ([] : Text), lineBreak c = false := List.forall_mem_nil _

theorem unbroken_replicate (count : Nat) : ∀ c ∈ List.replicate count 'x', lineBreak c = false := by
  intro c member
  rw [List.eq_of_mem_replicate member]
  rfl

/-- A message of some letters. -/
def sample (count : Nat) : Message := ⟨⟨[], unbroken_nil⟩, ⟨List.replicate count 'x', unbroken_replicate count⟩⟩

/-- The first of two messages is dispatched before the second is logged, which happens
on another thread than the next dispatch. -/
theorem logsAfter_last_messages_two :
    logsAfter [.update (sample 1) false, .dispatch, .update (sample 2) true] = "[] x\n[] xx\n".toList :=
  (logsAfter_last_messages _).1 (by decide)

/-- Two messages before a dispatch: the first one is lost. -/
theorem logsAfter_loses_first :
    logsAfter [.update (sample 1) false, .update (sample 2) false] = "[] xx\n".toList ∧
      logsAfter [.update (sample 1) false, .update (sample 2) false] ≠
        terminated '\n' (([sample 1, sample 2].rtake 999).map Message.text) := by
  decide

end SwitchLanPlay.Android
