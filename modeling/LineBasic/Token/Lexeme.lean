import LineBasic.Diagnostic
import LineBasic.Token.Kind

/-!
# The lexeme at the head of a text

`Lexeme.read` looks at a text from its first character on and says which token stands there and how
many characters it takes, or why none does. It is a function of the text alone: blanks, comments,
positions and counting are the scanner's.

A word is a run of letters and a number a run of digits, with a point and more digits or without;
both are taken as far as they go. Letters and digits are those of ASCII. A string runs to the next
double quote on its line and holds no control character, no backslash and no percent sign, so that it
can stand in a C format string as it is.
-/

namespace LineBasic

set_option autoImplicit false

/-- A token without its place. `width` counts its characters in the source. -/
structure Lexeme where
  kind : Kind
  text : List Char
  width : Nat
  deriving DecidableEq

/-- Why no token could be read. `width` counts the characters that were passed; the place of the
fault is where reading stopped if `atStop` holds, and the start of the token otherwise. -/
structure Misread where
  cause : Cause
  width : Nat
  atStop : Bool
  deriving DecidableEq

namespace Lexeme

def isDigit (c : Char) : Bool := '0' ≤ c && c ≤ '9'

def isLetter (c : Char) : Bool := ('A' ≤ c && c ≤ 'Z') || ('a' ≤ c && c ≤ 'z')

/-- Characters that a string cannot hold. -/
def isIllegalInString (c : Char) : Bool :=
  c.toNat < 0x20 || c.toNat == 0x7f || c == '\\' || c == '%'

/-- Characters that a string can hold. -/
def isStringChar (c : Char) : Bool := !(c == '"' || isIllegalInString c)

/-- The word at the head of a text. -/
def readWord (text : List Char) : Lexeme :=
  let word := text.takeWhile isLetter
  ⟨.ofWord (String.ofList word), word, word.length⟩

/-- The number at the head of a text. -/
def readNumber (text : List Char) : Except Misread Lexeme :=
  let whole := text.takeWhile isDigit
  match text.dropWhile isDigit with
  | '.' :: rest =>
      let places := rest.takeWhile isDigit
      let number := whole ++ '.' :: places
      if places.isEmpty then .error ⟨.malformedNumber (String.ofList number), number.length, false⟩
      else .ok ⟨.number, number, number.length⟩
  | _ => .ok ⟨.number, whole, whole.length⟩

/-- The string whose opening quote stands before a text. -/
def readString (text : List Char) : Except Misread Lexeme :=
  let content := text.takeWhile isStringChar
  match text.dropWhile isStringChar with
  | [] | '\n' :: _ => .error ⟨.unterminatedString, content.length + 1, false⟩
  | '"' :: _ => .ok ⟨.string, content, content.length + 2⟩
  | c :: _ => .error ⟨.illegalStringCharacter (String.singleton c), content.length + 1, true⟩

/-- The token at the head of a text. -/
def read : List Char → Except Misread Lexeme
  | [] => .ok ⟨.eof, [], 0⟩
  | '\n' :: _ => .ok ⟨.newline, ['\n'], 1⟩
  | '+' :: _ => .ok ⟨.operator .plus, ['+'], 1⟩
  | '-' :: _ => .ok ⟨.operator .minus, ['-'], 1⟩
  | '*' :: _ => .ok ⟨.operator .times, ['*'], 1⟩
  | '/' :: _ => .ok ⟨.operator .divide, ['/'], 1⟩
  | '=' :: '=' :: _ => .ok ⟨.operator .equal, ['=', '='], 2⟩
  | '=' :: _ => .ok ⟨.operator .assign, ['='], 1⟩
  | '>' :: '=' :: _ => .ok ⟨.operator .atLeast, ['>', '='], 2⟩
  | '>' :: _ => .ok ⟨.operator .greater, ['>'], 1⟩
  | '<' :: '=' :: _ => .ok ⟨.operator .atMost, ['<', '='], 2⟩
  | '<' :: _ => .ok ⟨.operator .less, ['<'], 1⟩
  | '!' :: '=' :: _ => .ok ⟨.operator .notEqual, ['!', '='], 2⟩
  | '!' :: _ => .error ⟨.invalidCharacter '!' (some "did you mean '!='?"), 0, false⟩
  | '"' :: rest => readString rest
  | c :: rest =>
      if isDigit c then readNumber (c :: rest)
      else if isLetter c then .ok (readWord (c :: rest))
      else .error ⟨.invalidCharacter c none, 0, false⟩

end Lexeme

end LineBasic
