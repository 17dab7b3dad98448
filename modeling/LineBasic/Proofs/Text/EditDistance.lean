import Mathlib.Order.Bounds.Defs
import LineBasic.Text.EditDistance

/-!
# The edit distance counts edits

An edit puts one character into a text, takes one out or replaces one, anywhere in it (`Edit`). The edit
distance is the length of the shortest sequence of edits between two texts (`isLeast_editDistance`), and
from that alone follows that it is a metric (`editDistance_metric`).

In between stands `distance`, which compares two texts from their first characters on. A row of
`lastEntry` holds the distances of one beginning of the first text from all beginnings of the second;
since these are compared from their last characters on, they are turned around (`cells`,
`foldl_nextRow`). Equal characters are passed at no cost and without looking at the neighbouring entries:
those differ by one at most from the entry at the diagonal (`distance_neighbours`), so none of them could
be better. That is also why one edit moves the distance from a third text by one at most
(`Edit.distance_le`).
-/

namespace LineBasic.Text

set_option autoImplicit false

/-! ## Sequences of edits -/

/-- One character is put in, taken out or replaced. -/
inductive Edit : List Char → List Char → Prop where
  | insert (before after : List Char) (c : Char) : Edit (before ++ after) (before ++ c :: after)
  | delete (before after : List Char) (c : Char) : Edit (before ++ c :: after) (before ++ after)
  | replace (before after : List Char) (c d : Char) :
      Edit (before ++ c :: after) (before ++ d :: after)

/-- So many edits, one after the other. -/
inductive Edits : Nat → List Char → List Char → Prop where
  | refl (a : List Char) : Edits 0 a a
  | step {n : Nat} {a b c : List Char} (first : Edit a b) (rest : Edits n b c) : Edits (n + 1) a c

variable {a b c : List Char} {m n : Nat}

theorem Edit.symm (edit : Edit a b) : Edit b a := by
  cases edit with
  | insert before after c => exact .delete before after c
  | delete before after c => exact .insert before after c
  | replace before after c d => exact .replace before after d c

theorem Edit.cons (edit : Edit a b) (c : Char) : Edit (c :: a) (c :: b) := by
  cases edit with
  | insert before after d => exact .insert (c :: before) after d
  | delete before after d => exact .delete (c :: before) after d
  | replace before after d e => exact .replace (c :: before) after d e

theorem Edit.reverse (edit : Edit a b) : Edit a.reverse b.reverse := by
  cases edit with
  | insert before after c => simpa using Edit.insert after.reverse before.reverse c
  | delete before after c => simpa using Edit.delete after.reverse before.reverse c
  | replace before after c d => simpa using Edit.replace after.reverse before.reverse c d

theorem Edit.length_le (edit : Edit a b) : a.length ≤ b.length + 1 := by
  cases edit <;> simp <;> omega

namespace Edits

theorem single (edit : Edit a b) : Edits 1 a b := .step edit (.refl b)

theorem trans (first : Edits m a b) (second : Edits n b c) : Edits (m + n) a c := by
  induction first with
  | refl a => rwa [Nat.zero_add]
  | step edit _ ih =>
    rw [Nat.succ_add]
    exact .step edit (ih second)

theorem symm (edits : Edits n a b) : Edits n b a := by
  induction edits with
  | refl a => exact .refl a
  | step edit _ ih => exact ih.trans (.single edit.symm)

theorem cons (edits : Edits n a b) (c : Char) : Edits n (c :: a) (c :: b) := by
  induction edits with
  | refl a => exact .refl (c :: a)
  | step edit _ ih => exact .step (edit.cons c) ih

theorem reverse (edits : Edits n a b) : Edits n a.reverse b.reverse := by
  induction edits with
  | refl a => exact .refl a.reverse
  | step edit _ ih => exact .step edit.reverse ih

theorem reverse_iff : Edits n a.reverse b.reverse ↔ Edits n a b :=
  ⟨fun edits => by simpa using edits.reverse, reverse⟩

theorem length_le (edits : Edits n a b) : a.length ≤ b.length + n := by
  induction edits with
  | refl a => exact Nat.le_refl _
  | step edit _ ih =>
    have := edit.length_le
    omega

theorem zero_iff : Edits 0 a b ↔ a = b := by
  constructor
  · rintro ⟨⟩
    rfl
  · rintro rfl
    exact .refl a

end Edits

/-! ## Comparing two texts from their beginnings -/

/-- The edits between two texts, counted character by character. -/
def distance : List Char → List Char → Nat
  | [], b => b.length
  | a, [] => a.length
  | c :: a, d :: b =>
      if c = d then distance a b
      else 1 + min (distance a b) (min (distance a (d :: b)) (distance (c :: a) b))
termination_by a b => a.length + b.length

theorem distance_nil_left (b : List Char) : distance [] b = b.length := by
  rw [distance]

theorem distance_nil_right (a : List Char) : distance a [] = a.length := by
  cases a <;> simp [distance]

theorem distance_cons_self (c : Char) (a b : List Char) : distance (c :: a) (c :: b) = distance a b := by
  rw [distance, if_pos rfl]

theorem distance_cons_of_ne {c d : Char} (differ : c ≠ d) (a b : List Char) :
    distance (c :: a) (d :: b) =
      1 + min (distance a b) (min (distance a (d :: b)) (distance (c :: a) b)) := by
  rw [distance, if_neg differ]

theorem distance_le_max (a b : List Char) : distance a b ≤ max a.length b.length := by
  fun_induction distance a b with
  | case1 b => exact Nat.le_max_right _ _
  | case2 a => exact Nat.le_max_left _ _
  | case3 a d b ih => simp only [List.length_cons]; omega
  | case4 c a d b differ ih₁ ih₂ ih₃ => simp only [List.length_cons] at *; omega

theorem distance_comm (a b : List Char) : distance a b = distance b a := by
  fun_induction distance a b with
  | case1 b => rw [distance_nil_right]
  | case2 a => rw [distance_nil_left]
  | case3 a d b ih => rw [distance_cons_self, ih]
  | case4 c a d b differ ih₁ ih₂ ih₃ =>
    rw [distance_cons_of_ne (Ne.symm differ), ih₁, ih₂, ih₃, Nat.min_comm (distance (d :: b) a)]

/-- One character more moves a distance by one at most. -/
theorem distance_neighbours : (c : Char) → (a b : List Char) →
    distance (c :: a) b ≤ distance a b + 1 ∧ distance a b ≤ distance (c :: a) b + 1
  | c, a, [] => by
    rw [distance_nil_right, distance_nil_right, List.length_cons]
    omega
  | c, a, d :: b => by
    have across := distance_neighbours d b a
    rw [distance_comm (d :: b) a, distance_comm b a] at across
    by_cases same : c = d
    · subst same
      rw [distance_cons_self]
      exact across.symm
    · have behind := distance_neighbours c a b
      rw [distance_cons_of_ne same]
      omega
termination_by _ a b => a.length + b.length

theorem distance_cons_le (c d : Char) (a b : List Char) :
    distance (c :: a) (d :: b) ≤ distance a b + 1 := by
  by_cases same : c = d
  · subst same
    rw [distance_cons_self]
    omega
  · rw [distance_cons_of_ne same]
    omega

theorem distance_replace_le (c d : Char) (a b : List Char) :
    distance (c :: a) b ≤ distance (d :: a) b + 1 := by
  induction b with
  | nil =>
    rw [distance_nil_right, distance_nil_right]
    exact Nat.le_succ _
  | cons e b ih =>
    by_cases passed : d = e
    · subst passed
      rw [distance_cons_self]
      exact distance_cons_le c d a b
    · have shorter := (distance_neighbours d a b).2
      have across := (distance_neighbours e b a).2
      rw [distance_comm b a, distance_comm (e :: b) a] at across
      rw [distance_cons_of_ne passed]
      by_cases same : c = e
      · subst same
        rw [distance_cons_self]
        omega
      · rw [distance_cons_of_ne same]
        omega

/-- A character before both texts is compared with whatever the third text begins with, before the rest
of them is. -/
theorem distance_cons_mono {a a' : List Char} (near : ∀ b, distance a b ≤ distance a' b + 1) (c : Char)
    (b : List Char) : distance (c :: a) b ≤ distance (c :: a') b + 1 := by
  induction b with
  | nil =>
    have := near []
    rw [distance_nil_right, distance_nil_right] at this ⊢
    simpa using this
  | cons d b ih =>
    by_cases same : c = d
    · subst same
      rw [distance_cons_self, distance_cons_self]
      exact near b
    · have := near b
      have := near (d :: b)
      rw [distance_cons_of_ne same, distance_cons_of_ne same]
      omega

theorem distance_append_mono {a a' : List Char} (near : ∀ b, distance a b ≤ distance a' b + 1)
    (before : List Char) : ∀ b, distance (before ++ a) b ≤ distance (before ++ a') b + 1 := by
  induction before with
  | nil => exact near
  | cons c before ih => exact distance_cons_mono ih c

/-- An edit moves the distance from any text by one at most. -/
theorem Edit.distance_le (edit : Edit a b) (other : List Char) :
    distance a other ≤ distance b other + 1 := by
  -- Whatever both texts begin with, the edit is at the head of the rest.
  cases edit with
  | insert before after c =>
    exact distance_append_mono (fun b => (distance_neighbours c after b).2) before other
  | delete before after c =>
    exact distance_append_mono (fun b => (distance_neighbours c after b).1) before other
  | replace before after c d =>
    exact distance_append_mono (distance_replace_le c d after) before other

theorem distance_self (a : List Char) : distance a a = 0 := by
  induction a with
  | nil => rw [distance_nil_left, List.length_nil]
  | cons c a ih => rw [distance_cons_self, ih]

theorem Edits.distance_le (edits : Edits n a b) : distance a b ≤ n := by
  induction edits with
  | refl a => exact Nat.le_of_eq (distance_self a)
  | step edit _ ih => exact Nat.le_trans (edit.distance_le _) (Nat.succ_le_succ ih)

theorem edits_nil (b : List Char) : Edits b.length [] b := by
  induction b with
  | nil => exact .refl []
  | cons c b ih => exact ih.trans (.single (.insert [] b c))

/-- As many edits as counted are enough. -/
theorem edits_distance (a b : List Char) : Edits (distance a b) a b := by
  fun_induction distance a b with
  | case1 b => exact edits_nil b
  | case2 a => exact (edits_nil a).symm
  | case3 a d b ih => exact ih.cons d
  | case4 c a d b differ ih₁ ih₂ ih₃ =>
    have replaced : Edits (1 + distance a b) (c :: a) (d :: b) :=
      (Edits.single (.replace [] a c d)).trans (ih₁.cons d)
    have deleted : Edits (1 + distance a (d :: b)) (c :: a) (d :: b) :=
      (Edits.single (.delete [] a c)).trans ih₂
    have inserted : Edits (1 + distance (c :: a) b) (c :: a) (d :: b) :=
      (Edits.single (.insert [] (c :: a) d)).trans (ih₃.cons d)
    rcases Nat.le_total (distance a b) (min (distance a (d :: b)) (distance (c :: a) b)) with least | least
    · rwa [Nat.min_eq_left least]
    · rw [Nat.min_eq_right least]
      rcases Nat.le_total (distance a (d :: b)) (distance (c :: a) b) with least | least
      · rwa [Nat.min_eq_left least]
      · rwa [Nat.min_eq_right least]

theorem isLeast_distance (a b : List Char) : IsLeast {n | Edits n a b} (distance a b) :=
  ⟨edits_distance a b, fun _ edits => edits.distance_le⟩

/-! ## Rows -/

/-- The distances of `a` from `passed`, and from what it becomes as each of the characters `others` is
put before it. -/
def cells (a passed : List Char) : (others : List Char) → List Nat
  | [] => [distance a passed]
  | d :: others => distance a passed :: cells a (d :: passed) others

theorem cells_eq_cons (a passed others : List Char) :
    cells a passed others = distance a passed :: (cells a passed others).tail := by
  cases others <;> rfl

theorem cells_nil (passed others : List Char) :
    cells [] passed others = List.range' passed.length (others.length + 1) := by
  induction others generalizing passed with
  | nil => simp [cells, distance_nil_left]
  | cons d others ih =>
    rw [cells, ih, distance_nil_left, List.length_cons, List.length_cons]
    exact List.range'_succ.symm

theorem getLast?_cells (a passed others : List Char) :
    (cells a passed others).getLast? = some (distance a (others.reverse ++ passed)) := by
  induction others generalizing passed with
  | nil => rfl
  | cons d others ih =>
    rw [cells, cells_eq_cons, List.getLast?_cons_cons, ← cells_eq_cons, ih, List.reverse_cons,
      List.append_assoc, List.singleton_append]

theorem rowTail_cells (c : Char) (a passed others : List Char) :
    rowTail c others (distance (c :: a) passed) (distance a passed) (cells a passed others).tail =
      (cells (c :: a) passed others).tail := by
  induction others generalizing passed with
  | nil => rfl
  | cons d others ih =>
    rw [cells, cells, List.tail_cons, List.tail_cons, cells_eq_cons a, cells_eq_cons (c :: a), rowTail,
      ← ih, distance]

theorem nextRow_cells (b : List Char) (c : Char) (a : List Char) :
    nextRow b (cells a [] b) c = cells (c :: a) [] b := by
  have first : distance (c :: a) [] = distance a [] + 1 := by
    rw [distance_nil_right, distance_nil_right, List.length_cons]
  rw [cells_eq_cons a, cells_eq_cons (c :: a), nextRow, ← rowTail_cells, first]

/-- After every character of a text the row holds the distances of what was passed of it. -/
theorem foldl_nextRow (a b passed : List Char) :
    a.foldl (nextRow b) (cells passed [] b) = cells (a.reverse ++ passed) [] b := by
  induction a generalizing passed with
  | nil => rfl
  | cons c a ih =>
    rw [List.foldl_cons, nextRow_cells, ih, List.reverse_cons, List.append_assoc, List.singleton_append]

theorem lastEntry_eq_distance (a b : List Char) : lastEntry a b = distance a.reverse b.reverse := by
  have first : List.range (b.length + 1) = cells [] [] b := by
    rw [cells_nil, List.range_eq_range', List.length_nil]
  rw [lastEntry, first, foldl_nextRow, getLast?_cells, List.append_nil, List.append_nil,
    Option.getD_some]

/-- Along which of the two texts the rows run does not matter. -/
theorem editDistance_eq_distance (a b : List Char) :
    editDistance a b = distance a.reverse b.reverse := by
  rw [editDistance, lastEntry_eq_distance, lastEntry_eq_distance, distance_comm b.reverse, ite_self]

theorem isLeast_editDistance (a b : List Char) : IsLeast {n | Edits n a b} (editDistance a b) := by
  have turned := isLeast_distance a.reverse b.reverse
  simp only [Edits.reverse_iff] at turned
  rwa [editDistance_eq_distance]

theorem editDistance_le_iff : editDistance a b ≤ n ↔ ∃ m ≤ n, Edits m a b := by
  constructor
  · intro few
    exact ⟨_, few, (isLeast_editDistance a b).1⟩
  · rintro ⟨m, few, edits⟩
    exact Nat.le_trans ((isLeast_editDistance a b).2 edits) few

theorem editDistance_comm (a b : List Char) : editDistance a b = editDistance b a := by
  rw [editDistance_eq_distance, editDistance_eq_distance, distance_comm]

/-- The edit distance is the length of the shortest sequence of edits. So it is symmetric, zero between
equal texts only and never longer on a detour, and it is bounded by the lengths of the texts. -/
theorem editDistance_metric (a b : List Char) :
    IsLeast {n | Edits n a b} (editDistance a b) ∧
      editDistance a b = editDistance b a ∧
      (editDistance a b = 0 ↔ a = b) ∧
      (∀ c, editDistance a c ≤ editDistance a b + editDistance b c) ∧
      ((a.length : Int) - b.length).natAbs ≤ editDistance a b ∧
      editDistance a b ≤ max a.length b.length := by
  have shortest (a b : List Char) : Edits (editDistance a b) a b := (isLeast_editDistance a b).1
  refine ⟨isLeast_editDistance a b, editDistance_comm a b, ?_, fun c => ?_, ?_, ?_⟩
  · rw [← Nat.le_zero, editDistance_le_iff]
    constructor
    · rintro ⟨m, nothing, edits⟩
      rw [Nat.le_zero] at nothing
      subst nothing
      exact Edits.zero_iff.1 edits
    · rintro rfl
      exact ⟨0, Nat.le_refl 0, .refl a⟩
  · exact (isLeast_editDistance a c).2 ((shortest a b).trans (shortest b c))
  · have forth := (shortest a b).length_le
    have back := (shortest a b).symm.length_le
    omega
  · rw [editDistance_eq_distance]
    simpa using distance_le_max a.reverse b.reverse

end LineBasic.Text
