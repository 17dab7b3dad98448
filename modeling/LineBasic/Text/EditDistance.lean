/-!
# Edit distance

The least number of single-character insertions, deletions and substitutions that turn one text into
another, computed row by row: row `i` holds the distances of the first `i` characters of the longer text
from every beginning of the other.
-/

namespace LineBasic.Text

set_option autoImplicit false

/-- The entries of the next row for the characters `others`, from the entry to the `left`, the entry
`diagonal` to it in the row above, and the entries `above`. -/
def rowTail (c : Char) : (others : List Char) → (left diagonal : Nat) → (above : List Nat) → List Nat
  | other :: others, left, diagonal, up :: above =>
      let here := if c = other then diagonal else 1 + min diagonal (min up left)
      here :: rowTail c others here up above
  | _, _, _, _ => []

/-- The row after `row`, for one more character. -/
def nextRow (others : List Char) (row : List Nat) (c : Char) : List Nat :=
  match row with
  | [] => []
  | diagonal :: above => (diagonal + 1) :: rowTail c others (diagonal + 1) diagonal above

/-- The last entry of the last row, for rows that run along the second text. -/
def lastEntry (a b : List Char) : Nat :=
  (a.foldl (nextRow b) (List.range (b.length + 1))).getLast?.getD 0

/-- The edit distance of two texts. -/
def editDistance (a b : List Char) : Nat :=
  if a.length < b.length then lastEntry b a else lastEntry a b

end LineBasic.Text
