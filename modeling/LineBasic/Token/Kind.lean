/-!
# Kinds of tokens

A token is a mark between lines, a literal, a name, one of eleven keywords or one of eleven
operators. Keywords are written in capitals, exactly.
-/

namespace LineBasic

set_option autoImplicit false

inductive Keyword where
  | label
  | goto
  | print
  | input
  | let_
  | if_
  | then_
  | endif
  | while_
  | repeat_
  | endwhile
  deriving DecidableEq

inductive Operator where
  | assign
  | equal
  | plus
  | minus
  | times
  | divide
  | greater
  | atLeast
  | less
  | atMost
  | notEqual
  deriving DecidableEq

inductive Kind where
  | newline
  | eof
  /-- A kind that the scanner never makes. -/
  | unknown
  | number
  | ident
  | string
  | keyword (word : Keyword)
  | operator (op : Operator)
  deriving DecidableEq

namespace Keyword

def all : List Keyword :=
  [.label, .goto, .print, .input, .let_, .if_, .then_, .endif, .while_, .repeat_, .endwhile]

/-- A keyword as it is written, which is also its name. -/
def spelling : Keyword → String
  | .label => "LABEL"
  | .goto => "GOTO"
  | .print => "PRINT"
  | .input => "INPUT"
  | .let_ => "LET"
  | .if_ => "IF"
  | .then_ => "THEN"
  | .endif => "ENDIF"
  | .while_ => "WHILE"
  | .repeat_ => "REPEAT"
  | .endwhile => "ENDWHILE"

/-- The keyword that a word is. -/
def ofWord? (word : String) : Option Keyword := all.find? (·.spelling = word)

end Keyword

namespace Operator

def all : List Operator :=
  [.assign, .equal, .plus, .minus, .times, .divide, .greater, .atLeast, .less, .atMost, .notEqual]

def name : Operator → String
  | .assign => "EQ"
  | .equal => "EQEQ"
  | .plus => "PLUS"
  | .minus => "MINUS"
  | .times => "ASTERISK"
  | .divide => "SLASH"
  | .greater => "GT"
  | .atLeast => "GTEQ"
  | .less => "LT"
  | .atMost => "LTEQ"
  | .notEqual => "NOTEQ"

/-- An operator that may stand between two expressions in a condition. -/
def isComparison : Operator → Bool
  | .equal | .notEqual | .greater | .atLeast | .less | .atMost => true
  | .assign | .plus | .minus | .times | .divide => false

end Operator

namespace Kind

/-- Every kind, in the order of their ordinals. -/
def all : List Kind :=
  [.newline, .eof, .unknown, .number, .ident, .string] ++ Keyword.all.map .keyword
    ++ Operator.all.map .operator

def name : Kind → String
  | .newline => "NEWLINE"
  | .eof => "EOF"
  | .unknown => "UNKNOWN"
  | .number => "NUMBER"
  | .ident => "IDENT"
  | .string => "STRING"
  | .keyword word => word.spelling
  | .operator op => op.name

/-- The kind of a name. -/
def ofName? (name : String) : Option Kind := all.find? (·.name = name)

/-- The position of a kind among all, from one. -/
def ordinal (kind : Kind) : Nat := all.idxOf kind + 1

def isKeyword : Kind → Bool
  | .keyword _ => true
  | _ => false

def isOperator : Kind → Bool
  | .operator _ => true
  | _ => false

def isComparison : Kind → Bool
  | .operator op => op.isComparison
  | _ => false

/-- A plus or a minus, between terms or before an operand. -/
def isSign : Kind → Bool
  | .operator .plus | .operator .minus => true
  | _ => false

/-- A multiplication or a division. -/
def isScale : Kind → Bool
  | .operator .times | .operator .divide => true
  | _ => false

/-- The kind of a word: a keyword, or else a name. -/
def ofWord (word : String) : Kind :=
  match Keyword.ofWord? word with
  | some found => .keyword found
  | none => .ident

end Kind

end LineBasic
