import Mathlib.Data.List.DropRight
import LineBasic.Source.Cursor

/-!
# A cursor is a place where a text is cut

What a cursor counts is a function of the text it has passed: the line is one more than the newlines
behind it, and the column one more than the characters since the last of them. `Cursor.after` is the
cursor that stands between two halves of a text, and every move of a cursor only shifts the cut.
-/

namespace LineBasic

set_option autoImplicit false

/-- The end of a text from its last line start on. -/
def openLine (text : List Char) : List Char := text.rtakeWhile (· ≠ '\n')

@[simp] theorem openLine_newline (text : List Char) : openLine (text ++ ['\n']) = [] :=
  List.rtakeWhile_concat_neg _ _ _ (by simp)

theorem openLine_concat {c : Char} (inside : c ≠ '\n') (text : List Char) :
    openLine (text ++ [c]) = openLine text ++ [c] :=
  List.rtakeWhile_concat_pos _ _ _ (by simpa using inside)

namespace Cursor

/-- The cursor that has passed one text and has another before it. -/
def after (passed rest : List Char) : Cursor :=
  ⟨rest, openLine passed ++ rest, passed.length, 1 + passed.count '\n', 1 + (openLine passed).length⟩

@[simp] theorem after_rest (passed rest : List Char) : (after passed rest).rest = rest := rfl

theorem start_eq_after (text : List Char) : start text = after [] text := rfl

theorem advance_after (passed : List Char) (c : Char) (rest : List Char) :
    (after passed (c :: rest)).advance = after (passed ++ [c]) rest := by
  by_cases newline : c = '\n'
  · subst newline
    simp [after, advance, List.count_append, Nat.add_assoc]
  · have same : (passed ++ [c]).count '\n' = passed.count '\n' := by
      simp [List.count_append, newline]
    unfold advance after
    split
    · rename_i empty
      cases empty
    · rename_i broken
      cases broken
      exact absurd rfl newline
    · rename_i broken
      cases broken
      simp [same, openLine_concat newline, Nat.add_assoc]

theorem advance_of_end {c : Cursor} (ended : c.rest = []) : c.advance = c := by
  simp [advance, ended]

theorem skip_of_end {c : Cursor} (ended : c.rest = []) (n : Nat) : c.skip n = c := by
  induction n with
  | zero => rfl
  | succ n ih => rw [skip, advance_of_end ended, ih]

theorem skip_skip (m n : Nat) (c : Cursor) : (c.skip m).skip n = c.skip (m + n) := by
  induction m generalizing c with
  | zero => rw [skip, Nat.zero_add]
  | succ m ih => rw [skip, ih, Nat.succ_add, skip]

/-- Moving on shifts the cut, up to the end of the text. -/
theorem skip_after_take (passed rest : List Char) (n : Nat) :
    (after passed rest).skip n = after (passed ++ rest.take n) (rest.drop n) := by
  induction n generalizing passed rest with
  | zero => simp [skip]
  | succ n ih =>
    cases rest with
    | nil => rw [skip_of_end (after_rest passed [])]; simp
    | cons c rest => rw [skip, advance_after, ih]; simp

theorem skip_after (passed front rest : List Char) :
    (after passed (front ++ rest)).skip front.length = after (passed ++ front) rest := by
  rw [skip_after_take, List.take_left, List.drop_left]

theorem skipWhile_after (p : Char → Bool) (passed rest : List Char) :
    (after passed rest).skipWhile p = after (passed ++ rest.takeWhile p) (rest.dropWhile p) := by
  have shift := skip_after passed (rest.takeWhile p) (rest.dropWhile p)
  rw [List.takeWhile_append_dropWhile] at shift
  exact shift

end Cursor

end LineBasic
