import LineBasic.Text.Integer
import LineBasic.Text.Lower

/-!
# Options of a compilation

How many decimal places a printed number has, and whether each statement is preceded by a comment
with its line. Options are checked when they are made from a caller's numbers; the environment can
only set them within their bounds.
-/

namespace LineBasic

set_option autoImplicit false

structure Options where
  precision : Int := 2
  lineComments : Bool := false
  deriving DecidableEq

namespace Options

def maxPrecision : Nat := 10

def allowsPrecision (precision : Int) : Bool := 0 ≤ precision && precision ≤ maxPrecision

/-- Options within their bounds, or what is wrong with them. -/
def checked (options : Options) : Except String Options :=
  if allowsPrecision options.precision then .ok options
  else
    .error s!"print_precision must be between 0 and {maxPrecision}, got {options.precision}"

/-- The words that turn a switch on. -/
def onWords : List String := ["1", "true", "yes"]

/-- A switch is on if its value is one of the words for it, in any letter case. -/
def isOn (value : String) : Bool :=
  onWords.contains (String.ofList (Text.lower (Text.trim Text.isWordBlank value.toList)))

def precisionVariable : String := "TEENY_PRINT_PRECISION"

def lineCommentsVariable : String := "TEENY_LINE_COMMENTS"

/-- The precision that a value of the environment asks for, if it is a number within the bounds. -/
def precision? (value : String) : Option Int :=
  (Text.integer? value).filter allowsPrecision

/-- The options that the environment sets. A value that cannot be used changes nothing. -/
def ofEnvironment (lookup : String → Option String) : Options where
  precision := ((lookup precisionVariable).bind precision?).getD ({} : Options).precision
  lineComments := ((lookup lineCommentsVariable).map isOn).getD ({} : Options).lineComments

end Options

end LineBasic
