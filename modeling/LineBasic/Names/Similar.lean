import LineBasic.Text.EditDistance
import LineBasic.Text.Lower

/-!
# Similar names

Names that a misspelt name may stand for: the same name in other letter case, or a name of nearly the
same length that two edits, letter case apart, turn into it.
-/

namespace LineBasic

set_option autoImplicit false

/-- The most edits between two similar names. -/
def maxEdits : Nat := 2

/-- The most names suggested for one. -/
def maxSimilar : Nat := 3

/-- Two lengths that differ by one at most. -/
def nearLengths (m n : Nat) : Bool := m ≤ n + 1 && n ≤ m + 1

def isSimilar (name candidate : String) : Bool :=
  let loweredName := Text.lower name.toList
  let loweredCandidate := Text.lower candidate.toList
  loweredCandidate == loweredName
    || (nearLengths candidate.length name.length
      && Text.editDistance loweredName loweredCandidate ≤ maxEdits)

/-- The first similar names among the candidates, in the order of code points. -/
def similarNames (name : String) (candidates : List String) : List String :=
  ((candidates.mergeSort fun a b => decide (a ≤ b)).filter (isSimilar name)).take maxSimilar

end LineBasic
