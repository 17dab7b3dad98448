/-!
# Resemblance of texts

How much two texts have in common is counted by blocks. The longest block that stands in both texts is
taken, then the longest ones in what is left and right of it, and so on. The characters of all blocks,
against the characters of both texts, tell how close the texts are.

The count depends on which of several longest blocks is taken: it is the one that comes first in the
first text, and of those the one that comes first in the second.
-/

namespace LineBasic.Text

set_option autoImplicit false

/-- The length of the longest common beginning of two texts. -/
def commonBeginning : List Char → List Char → Nat
  | a :: as, b :: bs => if a = b then commonBeginning as bs + 1 else 0
  | _, _ => 0

theorem commonBeginning_le (a b : List Char) : commonBeginning a b ≤ a.length := by
  fun_induction commonBeginning a b with
  | case1 => simp_all
  | case2 => simp
  | case3 => simp

/-! ## Blocks -/

/-- A run of characters that stands in two texts: at `left` in the first, at `right` in the second. -/
structure CommonBlock where
  left : Nat
  right : Nat
  length : Nat
  deriving DecidableEq

/-- The longer of two blocks, or the first if they are equally long. -/
def CommonBlock.longer (first second : CommonBlock) : CommonBlock :=
  if first.length < second.length then second else first

/-- The longest of a block and those at the beginning of `a` and in `b`. The texts are what is left of
longer ones from the places `left` and `right` on. -/
def CommonBlock.longestAt (a : List Char) (left : Nat) (best : CommonBlock) (right : Nat) :
    List Char → CommonBlock
  | [] => best
  | b :: bs =>
      longestAt a left (best.longer ⟨left, right, commonBeginning a (b :: bs)⟩) (right + 1) bs

/-- The longest of a block and those in `a`, from the place `left` of its text on, and `b`. -/
def CommonBlock.longestFrom (b : List Char) (best : CommonBlock) (left : Nat) :
    List Char → CommonBlock
  | [] => best
  | a :: as => longestFrom b (longestAt (a :: as) left best 0 b) (left + 1) as

/-- The first longest block of two texts. -/
def longestBlock (a b : List Char) : CommonBlock := CommonBlock.longestFrom b ⟨0, 0, 0⟩ 0 a

/-- A block that ends within the first `size` characters of the first text. -/
def CommonBlock.Within (size : Nat) (block : CommonBlock) : Prop := block.left + block.length ≤ size

theorem CommonBlock.longer_within {size : Nat} {first second : CommonBlock} (one : first.Within size)
    (two : second.Within size) : (first.longer second).Within size := by
  unfold longer
  split
  · exact two
  · exact one

theorem CommonBlock.longestAt_within {size : Nat} (a : List Char) (left : Nat)
    (best : CommonBlock) (right : Nat) (b : List Char) (fits : left + a.length ≤ size) (start : best.Within size) :
    (longestAt a left best right b).Within size := by
  induction b generalizing best right with
  | nil => exact start
  | cons c b ih =>
      refine ih _ _ (longer_within start ?_)
      have := commonBeginning_le a (c :: b)
      simp only [Within]
      omega

theorem CommonBlock.longestFrom_within {size : Nat} (b : List Char) (best : CommonBlock) (left : Nat)
    (a : List Char) (fits : left + a.length ≤ size) (start : best.Within size) :
    (longestFrom b best left a).Within size := by
  induction a generalizing best left with
  | nil => exact start
  | cons c a ih =>
      refine ih _ _ ?_ (longestAt_within _ _ _ _ _ fits start)
      simp only [List.length_cons] at fits
      omega

theorem longestBlock_within (a b : List Char) : (longestBlock a b).Within a.length :=
  CommonBlock.longestFrom_within _ _ _ _ (by omega) (Nat.zero_le _)

/-- The characters in the common blocks of two texts. -/
def charactersInCommon (a b : List Char) : Nat :=
  let block := longestBlock a b
  if block.length = 0 then 0
  else
    charactersInCommon (a.take block.left) (b.take block.right)
      + block.length
      + charactersInCommon (a.drop (block.left + block.length)) (b.drop (block.right + block.length))
termination_by a.length
decreasing_by
  all_goals
    have within : (longestBlock a b).left + (longestBlock a b).length ≤ a.length :=
      longestBlock_within a b
    have positive : (longestBlock a b).length ≠ 0 := by assumption
  · rw [List.length_take]
    omega
  · rw [List.length_drop]
    omega

/-! ## The closest texts -/

/-- How close a text comes to another: the characters of the blocks they have in common, and the
characters of both together. -/
structure Likeness where
  text : String
  common : Nat
  total : Nat
  deriving DecidableEq

namespace Likeness

def of (name candidate : String) : Likeness where
  text := candidate
  common := charactersInCommon candidate.toList name.toList
  total := candidate.length + name.length

/-- Close texts have three fifths of their characters in common blocks; a block counts in both. -/
def isClose (likeness : Likeness) : Bool := 3 * likeness.total ≤ 5 * (2 * likeness.common)

/-- The order of likeness: the greater share first, and among equal shares the greater text. -/
def before (first second : Likeness) : Bool :=
  second.common * first.total < first.common * second.total
    || (second.common * first.total = first.common * second.total && second.text ≤ first.text)

end Likeness

/-- The most texts named as close to one. -/
def maxClosest : Nat := 3

/-- The closest of some texts to a name, in the order of code points. -/
def closest (name : String) (candidates : List String) : List String :=
  let close := (candidates.map (Likeness.of name)).filter Likeness.isClose
  let best := (close.mergeSort Likeness.before).take maxClosest
  (best.map (·.text)).mergeSort fun a b => decide (a ≤ b)

end LineBasic.Text
