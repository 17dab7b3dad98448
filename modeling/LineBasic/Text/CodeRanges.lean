/-!
# Sets of characters given by ranges of code points

Character classes of the Unicode standard are long but regular. A class is kept as the list of its
closed ranges, and a character belongs to the class when some range holds its code point.
-/

namespace LineBasic.Text

set_option autoImplicit false

/-- Closed ranges of code points, in increasing order. -/
abbrev CodeRanges := List (Nat × Nat)

def CodeRanges.has (ranges : CodeRanges) (c : Char) : Bool :=
  ranges.any fun range => range.1 ≤ c.toNat && c.toNat ≤ range.2

theorem CodeRanges.has_iff (ranges : CodeRanges) (c : Char) :
    ranges.has c = true ↔ ∃ range ∈ ranges, range.1 ≤ c.toNat ∧ c.toNat ≤ range.2 := by
  simp [CodeRanges.has]

end LineBasic.Text
