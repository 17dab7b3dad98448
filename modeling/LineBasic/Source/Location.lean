/-!
# Places in a source text

A place is a file name, a line and a column, both counted from one. The numbers are integers, since
a place can be made up by a caller; the scanner only makes places with positive ones.
-/

namespace LineBasic

set_option autoImplicit false

structure Location where
  file : String
  line : Int
  column : Int
  deriving DecidableEq

/-- A place as `file:line:column`. -/
def Location.text (place : Location) : String :=
  s!"{place.file}:{place.line}:{place.column}"

/-- The name of a source that is not a file. -/
def unnamedSource : String := "<input>"

end LineBasic
