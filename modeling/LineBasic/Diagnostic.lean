import LineBasic.Source.Location
import LineBasic.Text.Hex
import LineBasic.Text.Quoted

/-!
# Diagnostics

A diagnostic is a cause, the place it was met at and the line of the source that holds the place.
The wording of each cause stands in `Cause.message`, the advice that goes with it in `Cause.hint`;
`Diagnostic.render` puts them together as they are shown.
-/

namespace LineBasic

set_option autoImplicit false

/-- The part of the work that a cause belongs to. -/
inductive Phase where
  | scanning
  | parsing
  deriving DecidableEq

/-- Why a source was refused. -/
inductive Cause where
  /-- No token begins with this character. -/
  | invalidCharacter (char : Char) (advice : Option String)
  /-- A string without its closing quote. -/
  | unterminatedString
  /-- A character that a string cannot hold. -/
  | illegalStringCharacter (char : String)
  /-- A decimal point without a digit after it. -/
  | malformedNumber (text : String)
  /-- Another token was needed here. -/
  | unexpectedToken (expected found : String) (advice : Option String)
  /-- No statement begins with this token. -/
  | invalidStatement (text kind : String)
  /-- A variable read before it was set; `similar` are names it may be a slip for. -/
  | undeclaredVariable (name : String) (similar : List String)
  /-- A label defined before, at `first`. -/
  | duplicateLabel (name : String) (first : Option Location)
  /-- A jump to a label that the program does not define. -/
  | undefinedLabel (name : String)
  /-- A name that means something else in the C program. -/
  | reservedName (name : String)
  /-- A cause of no special kind. -/
  | other (phase : Option Phase) (text : String) (advice : Option String)
  deriving DecidableEq

namespace Cause

def phase : Cause → Option Phase
  | .invalidCharacter .. | .unterminatedString | .illegalStringCharacter _ | .malformedNumber _ =>
      some .scanning
  | .unexpectedToken .. | .invalidStatement .. | .undeclaredVariable .. | .duplicateLabel ..
  | .undefinedLabel _ | .reservedName _ => some .parsing
  | .other phase _ _ => phase

/-- A text between apostrophes, as it is. -/
def inApostrophes (text : String) : String := s!"'{text}'"

def message : Cause → String
  | .invalidCharacter char _ =>
      s!"unknown token '{char}' (0x" ++ String.ofList (Text.hexUpper char.toNat) ++ ")"
  | .unterminatedString => "unterminated string literal"
  | .illegalStringCharacter char => s!"illegal character {Text.quoted char} in string literal"
  | .malformedNumber text => s!"malformed number '{text}'"
  | .unexpectedToken expected found _ => s!"expected {expected}, got {found}"
  | .invalidStatement text kind => s!"invalid statement at '{text}' ({kind})"
  | .undeclaredVariable name _ => s!"variable '{name}' referenced before assignment"
  | .duplicateLabel name _ => s!"label already exists: '{name}'"
  | .undefinedLabel name => s!"label '{name}' referenced but not declared"
  | .reservedName name => s!"'{name}' is reserved in the generated C code"
  | .other _ text _ => text

/-- The most names that a hint shows. -/
def maxSuggestions : Nat := 3

def hint : Cause → Option String
  | .invalidCharacter _ advice => advice
  | .unterminatedString => some "add closing '\"' to complete the string"
  | .illegalStringCharacter _ => some "strings cannot contain control characters, '\\' or '%'"
  | .malformedNumber _ => some "a decimal point must be followed by at least one digit"
  | .unexpectedToken _ _ advice => advice
  | .invalidStatement _ _ =>
      some "statements start with PRINT, IF, WHILE, LABEL, GOTO, LET or INPUT"
  | .undeclaredVariable _ [] => none
  | .undeclaredVariable _ similar =>
      some ("did you mean "
        ++ ", ".intercalate ((similar.take maxSuggestions).map inApostrophes) ++ "?")
  | .duplicateLabel name first =>
      first.map fun place => s!"'{name}' was first defined at {place.text}"
  | .undefinedLabel name => some s!"add 'LABEL {name}' somewhere in the program"
  | .reservedName _ => some "choose another name"
  | .other _ _ advice => advice

end Cause

structure Diagnostic where
  cause : Cause
  location : Option Location := none
  sourceLine : Option String := none
  deriving DecidableEq

namespace Diagnostic

/-- The blanks before the source line and before its caret. -/
def margin : Nat := 4

def spaces (n : Nat) : String := String.ofList (List.replicate n ' ')

/-- What is wrong, after the place if there is one. -/
def headline (d : Diagnostic) : String :=
  match d.location with
  | some place => s!"{place.text}: error: {d.cause.message}"
  | none => s!"error: {d.cause.message}"

/-- The source line and a caret under the place. A column before the line has no caret. -/
def excerpt (d : Diagnostic) : List String :=
  match d.location, d.sourceLine with
  | some place, some text =>
      (spaces margin ++ text)
        :: if 0 < place.column then [spaces (margin + (place.column - 1).toNat) ++ "^"] else []
  | _, _ => []

/-- The hint, unless it is empty. -/
def hintLine (d : Diagnostic) : List String :=
  match d.cause.hint with
  | none | some "" => []
  | some text => [s!"hint: {text}"]

/-- A diagnostic as it is shown. -/
def render (d : Diagnostic) : String :=
  "\n".intercalate (d.headline :: (d.excerpt ++ d.hintLine))

end Diagnostic

end LineBasic
