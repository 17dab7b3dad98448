import Mathlib.Data.List.TakeWhile
import LineBasic.Token.Scanner

/-!
# Lexemes as they are written

The text of a token is bound to its kind: keywords, operators and marks have one spelling, numbers are
digits with at most one point, names are letters that do not make up a keyword, strings hold what can
stand between quotes. A lexeme stands at the head of a text as it is written, and goes on as long as it
can: `read_heads` says all that is known of a lexeme that was read.
-/

namespace LineBasic

set_option autoImplicit false

/-- An operator as it is written. -/
def Operator.spelling : Operator → String
  | .assign => "="
  | .equal => "=="
  | .plus => "+"
  | .minus => "-"
  | .times => "*"
  | .divide => "/"
  | .greater => ">"
  | .atLeast => ">="
  | .less => "<"
  | .atMost => "<="
  | .notEqual => "!="

/-- At least one digit, and nothing else. -/
def Digits (text : List Char) : Prop := text ≠ [] ∧ ∀ c ∈ text, Lexeme.isDigit c = true

/-- A number as it is written, with decimal places or without. -/
inductive Numeral : List Char → Prop where
  | whole {digits : List Char} (written : Digits digits) : Numeral digits
  | decimal {digits places : List Char} (written : Digits digits) (fraction : Digits places) :
      Numeral (digits ++ '.' :: places)

/-- The texts that a token of a kind can have. -/
def Spelled : Kind → List Char → Prop
  | .newline, text => text = ['\n']
  | .eof, text => text = []
  | .unknown, _ => False
  | .number, text => Numeral text
  | .ident, text =>
      text ≠ [] ∧ (∀ c ∈ text, Lexeme.isLetter c = true) ∧ Keyword.ofWord? (String.ofList text) = none
  | .string, text => ∀ c ∈ text, Lexeme.isStringChar c = true
  | .keyword word, text => text = word.spelling.toList
  | .operator op, text => text = op.spelling.toList

namespace Kind

/-- A token as it stands in a source: the quotes of a string are no part of its text. -/
def written : Kind → List Char → List Char
  | .string, text => '"' :: text ++ ['"']
  | _, text => text

/-- A character that would have become part of a token, had it followed. -/
def takes : Kind → Char → Bool
  | .ident, c | .keyword _, c => Lexeme.isLetter c
  | .number, c => Lexeme.isDigit c
  | .operator .assign, c | .operator .greater, c | .operator .less, c => c == '='
  | _, _ => false

/-- A token of a kind is complete before a text: it cannot go on, and the end has nothing behind it. -/
def Complete (kind : Kind) (rest : List Char) : Prop :=
  (∀ c ∈ rest.head?, kind.takes c = false) ∧ (kind = .eof → rest = [])

theorem written_of_ne_string {kind : Kind} (other : kind ≠ .string) (text : List Char) :
    kind.written text = text := by
  unfold written
  split
  · exact absurd rfl other
  · rfl

theorem ofWord_takes (word : String) (c : Char) : (ofWord word).takes c = Lexeme.isLetter c := by
  unfold ofWord
  split <;> rfl

theorem ofWord_ne_eof (word : String) : ofWord word ≠ .eof := by
  unfold ofWord
  split <;> simp

theorem ofWord_ne_string (word : String) : ofWord word ≠ .string := by
  unfold ofWord
  split <;> simp

end Kind

namespace Lexeme

/-- A lexeme stands at the head of a text, before the rest of it. -/
structure Heads (lexeme : Lexeme) (text rest : List Char) : Prop where
  written : text = lexeme.kind.written lexeme.text ++ rest
  width : lexeme.width = (lexeme.kind.written lexeme.text).length
  spelled : Spelled lexeme.kind lexeme.text
  complete : lexeme.kind.Complete rest

theorem isDigit_of_letter {c : Char} (letter : isLetter c = true) : isDigit c = false := by
  simp only [isLetter, Bool.or_eq_true, Bool.and_eq_true, decide_eq_true_eq, Char.le_def,
    UInt32.le_iff_toNat_le] at letter
  simp only [isDigit, Bool.and_eq_false_iff, decide_eq_false_iff_not, Char.le_def,
    UInt32.le_iff_toNat_le]
  right
  have high : '9'.val.toNat = 57 := rfl
  have upper : 'A'.val.toNat = 65 := rfl
  have lower : 'a'.val.toNat = 97 := rfl
  omega

/-- No character of a class follows the longest run of the class. -/
theorem head?_dropWhile_false {p : Char → Bool} {text : List Char} :
    ∀ c ∈ (text.dropWhile p).head?, p c = false := by
  intro c first
  have stopped := List.head?_dropWhile_not p text
  rw [first] at stopped
  simpa using stopped

theorem takeWhile_cons_ne_nil {p : Char → Bool} {c : Char} (holds : p c = true) (rest : List Char) :
    (c :: rest).takeWhile p ≠ [] := by
  rw [List.takeWhile_cons_of_pos holds]
  exact List.cons_ne_nil _ _

theorem digits_takeWhile {c : Char} {rest : List Char} (digit : isDigit c = true) :
    Digits ((c :: rest).takeWhile isDigit) :=
  ⟨takeWhile_cons_ne_nil digit rest, fun _ member => List.mem_takeWhile_imp member⟩

theorem readWord_spelled {c : Char} {rest : List Char} (letter : isLetter c = true) :
    Spelled (readWord (c :: rest)).kind (readWord (c :: rest)).text := by
  unfold readWord Kind.ofWord
  dsimp only
  split
  · rename_i found isKeyword
    have spelling := List.find?_some isKeyword
    rw [decide_eq_true_iff] at spelling
    simp only [Spelled]
    rw [spelling, String.toList_ofList]
  · rename_i noKeyword
    exact ⟨takeWhile_cons_ne_nil letter rest, fun _ member => List.mem_takeWhile_imp member, noKeyword⟩

theorem readWord_heads {c : Char} {rest : List Char} (letter : isLetter c = true) :
    (readWord (c :: rest)).Heads (c :: rest) ((c :: rest).dropWhile isLetter) := by
  have same := Kind.written_of_ne_string
    (Kind.ofWord_ne_string (String.ofList ((c :: rest).takeWhile isLetter)))
    ((c :: rest).takeWhile isLetter)
  refine ⟨?_, ?_, readWord_spelled letter, fun d first => ?_, fun isEnd => ?_⟩
  · simp only [readWord, same, List.takeWhile_append_dropWhile]
  · simp only [readWord, same]
  · simp only [readWord, Kind.ofWord_takes]
    exact head?_dropWhile_false d first
  · exact absurd isEnd (Kind.ofWord_ne_eof _)

theorem readNumber_heads {c : Char} {rest : List Char} {lexeme : Lexeme} (digit : isDigit c = true)
    (found : readNumber (c :: rest) = .ok lexeme) : ∃ behind, lexeme.Heads (c :: rest) behind := by
  have whole : Digits ((c :: rest).takeWhile isDigit) := digits_takeWhile digit
  have cut := List.takeWhile_append_dropWhile (p := isDigit) (l := c :: rest)
  unfold readNumber at found
  dsimp only at found
  split at found
  · rename_i fraction behind
    split at found <;> cases found
    rename_i some
    rw [Bool.not_eq_true, List.isEmpty_eq_false_iff] at some
    have places : Digits (fraction.takeWhile isDigit) :=
      ⟨some, fun _ member => List.mem_takeWhile_imp member⟩
    refine ⟨fraction.dropWhile isDigit, ?_, rfl, .decimal whole places, head?_dropWhile_false, by simp⟩
    simp only [Kind.written, List.append_assoc, List.cons_append, List.takeWhile_append_dropWhile,
      ← behind, cut]
  · cases found
    exact ⟨_, cut.symm, rfl, .whole whole, head?_dropWhile_false, by simp⟩

theorem readString_heads {text : List Char} {lexeme : Lexeme} (found : readString text = .ok lexeme) :
    ∃ behind, lexeme.Heads ('"' :: text) behind := by
  have cut := List.takeWhile_append_dropWhile (p := isStringChar) (l := text)
  unfold readString at found
  dsimp only at found
  split at found <;> cases found
  rename_i rest behind
  refine ⟨rest, ?_, by simp [Kind.written], fun _ member => List.mem_takeWhile_imp member,
    fun _ _ => rfl, by simp⟩
  simp only [Kind.written, List.cons_append, List.append_assoc, List.nil_append, ← behind, cut]

theorem read_heads {text : List Char} {lexeme : Lexeme} (found : read text = .ok lexeme) :
    ∃ rest, lexeme.Heads text rest := by
  unfold read at found
  split at found
  case h_1 => cases found; exact ⟨[], rfl, rfl, rfl, by simp, by simp⟩
  case h_15 => exact readString_heads found
  case h_16 =>
    split at found
    · exact readNumber_heads ‹_› found
    · split at found <;> cases found
      exact ⟨_, readWord_heads ‹_›⟩
  all_goals cases found
  -- The marks. One that could have gone on was not followed by an equals sign.
  all_goals refine ⟨_, rfl, rfl, rfl, fun c first => ?_, by simp⟩
  all_goals obtain ⟨tail, rfl⟩ := List.head?_eq_some_iff.1 first
  all_goals simp_all [Kind.takes]

/-- Only the end of a text is read as the end. -/
theorem read_eof {text : List Char} {lexeme : Lexeme} (found : read text = .ok lexeme)
    (isEnd : lexeme.kind = .eof) : text = [] := by
  obtain ⟨rest, written, -, spelled, complete⟩ := read_heads found
  rw [isEnd] at written spelled
  rw [written, complete.2 isEnd, show lexeme.text = [] from spelled]
  rfl

end Lexeme

end LineBasic
