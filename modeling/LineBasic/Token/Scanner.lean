import LineBasic.Source.Cursor
import LineBasic.Text.Lines
import LineBasic.Token.Basic
import LineBasic.Token.Lexeme

/-!
# The scanner

A scanner walks a cursor through a source text and hands out its tokens one by one. Before each token
it passes blanks and at most one comment, which runs up to the newline. A newline is put after the
source, so that every line has one.

A fault does not lose the scanner: the step returns it where reading stopped, and it can be asked
again. At the end of the text every further step hands out the same end token. The end is not
counted as a token.

`next_rest_length` is the progress measure: a step never lengthens the text that is left, and every
token but the end shortens it.
-/

namespace LineBasic

set_option autoImplicit false

structure Scanner where
  file : String
  /-- The whole text, with the newline put after it. -/
  text : List Char
  cursor : Cursor
  /-- The tokens handed out so far. -/
  count : Nat
  deriving DecidableEq

/-- A step of a scanner, which ends in a value or in a diagnostic, and in a scanner either way. -/
abbrev Scan := EStateM Diagnostic Scanner

namespace Scanner

/-- The scanner at the start of a source. -/
def start (file source : String) : Scanner :=
  let text := source.toList ++ ['\n']
  ⟨file, text, .start text, 0⟩

def isBlank (c : Char) : Bool := c == ' ' || c == '\t' || c == '\r'

/-- Passes a comment, if the cursor is at one, up to the end of the line. -/
def skipComment (c : Cursor) : Cursor :=
  if c.current? = some '#' then c.skipWhile (· ≠ '\n') else c

def skipBlanks (c : Cursor) : Cursor := c.skipWhile isBlank

/-- Passes what may stand before a token. -/
def skipGap (c : Cursor) : Cursor := skipComment (skipBlanks c)

def locate (sc : Scanner) (c : Cursor) : Location := ⟨sc.file, c.line, c.column⟩

/-- The place of the cursor. -/
def location (sc : Scanner) : Location := sc.locate sc.cursor

/-- A line of the text by its number. -/
def line? (sc : Scanner) (number : Int) : Option String :=
  (Text.line? sc.text number).map String.ofList

/-- Hands out the next token. -/
def next : Scan Token := fun sc =>
  let here := skipGap sc.cursor
  match Lexeme.read here.rest with
  | .ok lexeme =>
      .ok ⟨lexeme.kind, String.ofList lexeme.text, sc.locate here⟩
        { sc with
          cursor := here.skip lexeme.width
          count := if lexeme.kind = .eof then sc.count else sc.count + 1 }
  | .error misread =>
      let stop := here.skip misread.width
      .error
        { cause := misread.cause
          location := some (sc.locate (if misread.atStop then stop else here))
          sourceLine := some (String.ofList stop.lineText) }
        { sc with cursor := stop }

end Scanner

/-! ## Progress -/

namespace Lexeme

theorem readString_width {text : List Char} {lexeme : Lexeme}
    (found : readString text = .ok lexeme) : 0 < lexeme.width := by
  unfold readString at found
  dsimp only at found
  split at found <;> cases found
  exact Nat.succ_pos _

theorem readNumber_width {c : Char} {rest : List Char} {lexeme : Lexeme} (digit : isDigit c = true)
    (found : readNumber (c :: rest) = .ok lexeme) : 0 < lexeme.width := by
  unfold readNumber at found
  dsimp only at found
  split at found
  · split at found <;> cases found
    simp only [List.length_append, List.length_cons]
    omega
  · cases found
    simp [digit]

theorem readWord_width {c : Char} {rest : List Char} (letter : isLetter c = true) :
    0 < (readWord (c :: rest)).width := by
  simp [readWord, letter]

/-- Every lexeme but the end takes a character, so there is one to take. -/
theorem read_width {text : List Char} {lexeme : Lexeme} (found : read text = .ok lexeme) :
    lexeme.kind = .eof ∨ (0 < lexeme.width ∧ 0 < text.length) := by
  cases text with
  | nil => cases found; exact .inl rfl
  | cons c rest =>
    refine .inr ⟨?_, Nat.succ_pos _⟩
    unfold read at found
    split at found
    case h_1 same => cases same
    case h_15 => exact readString_width found
    case h_16 first _ _ _ _ _ _ _ _ _ _ _ _ _ _ _ _ same =>
      cases same
      split at found
      · exact readNumber_width ‹_› found
      · split at found
        · cases found; exact readWord_width ‹_›
        · cases found
    all_goals cases found
    all_goals simp

end Lexeme

namespace Scanner

theorem skipGap_rest_length_le (c : Cursor) : (skipGap c).rest.length ≤ c.rest.length := by
  have blanks := Cursor.skipWhile_rest_length_le isBlank c
  unfold skipGap skipComment
  split
  · exact Nat.le_trans (Cursor.skipWhile_rest_length_le _ _) blanks
  · exact blanks

/-- The weight of a token in progress measures: only the end weighs nothing. -/
def weight (token : Token) : Nat := if token.kind = .eof then 0 else 1

/-- A step that hands out a token pays for it with text. -/
theorem next_rest_length {sc sc' : Scanner} {token : Token} (step : next sc = .ok token sc') :
    sc'.cursor.rest.length + weight token ≤ sc.cursor.rest.length := by
  have gap := skipGap_rest_length_le sc.cursor
  unfold next at step
  dsimp only at step
  split at step
  · rename_i lexeme found
    cases step
    rcases Lexeme.read_width found with isEnd | ⟨wide, text⟩
    · have := Cursor.skip_rest_length_le lexeme.width (skipGap sc.cursor)
      simp only [weight, isEnd, if_pos]
      omega
    · simp only [Cursor.skip_rest, List.length_drop, weight]
      split <;> omega
  · cases step

/-- A token that is not the end leaves less text. -/
theorem next_rest_length_lt {sc sc' : Scanner} {token : Token} (step : next sc = .ok token sc')
    (more : ¬ token.kind = .eof) : sc'.cursor.rest.length < sc.cursor.rest.length := by
  have := next_rest_length step
  simp only [weight, more, if_neg, not_false_iff] at this
  omega

/-! ## All tokens at once -/

/-- The tokens of a text up to its end or the first fault, and the scanner after them. -/
structure Listing where
  tokens : List Token
  fault : Option Diagnostic
  scanner : Scanner

/-- Hands out tokens until the end is among them or a fault is met. -/
def drain (sc : Scanner) : Listing :=
  match _ : next sc with
  | .error fault sc' => ⟨[], some fault, sc'⟩
  | .ok token sc' =>
      if _ : token.kind = .eof then ⟨[token], none, sc'⟩
      else
        let later := drain sc'
        ⟨token :: later.tokens, later.fault, later.scanner⟩
termination_by sc.cursor.rest.length
decreasing_by exact next_rest_length_lt ‹_› ‹_›

end Scanner

end LineBasic
