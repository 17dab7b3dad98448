import LineBasic.Text.Blank
import LineBasic.Text.Digit

/-!
# Reading an integer

An integer is written with decimal digits of any script, single underscores between digits, one
sign in front, and white space around it. A number of more than 4300 digits is refused.
-/

namespace LineBasic.Text

set_option autoImplicit false

/-- The longest run of digits that is read as a number. -/
def maxDigits : Nat := 4300

/-- The values of a run of digits with single underscores between them. -/
def digitValues? : List Char → Option (List Nat)
  | [] => none
  | [c] => (digitValue? c).map ([·])
  | c :: '_' :: rest => do
      let value ← digitValue? c
      let values ← digitValues? rest
      return value :: values
  | c :: rest => do
      let value ← digitValue? c
      let values ← digitValues? rest
      return value :: values

def natOfDigits (values : List Nat) : Nat :=
  values.foldl (fun total value => total * 10 + value) 0

def unsigned? (text : List Char) : Option Nat := do
  let values ← digitValues? text
  if values.length ≤ maxDigits then some (natOfDigits values) else none

/-- The integer that a text stands for. -/
def integer? (text : String) : Option Int :=
  match trim isWhiteSpace text.toList with
  | '-' :: digits => (unsigned? digits).map fun (n : Nat) => -(n : Int)
  | '+' :: digits => (unsigned? digits).map fun (n : Nat) => (n : Int)
  | digits => (unsigned? digits).map fun (n : Nat) => (n : Int)

end LineBasic.Text
