import LineBasic.Text.Lines
import LineBasic.Proofs.Source.Passed

/-!
# Lines of a text, cut and put together

Cutting a text at its newlines undoes putting lines together: with a newline after each of them
(`lines_unlines`) or between them (`lines_intercalate`). The line that a place of a text is in is what
stands open before the place and what follows up to the next newline (`line?_passed`).
-/

namespace LineBasic

set_option autoImplicit false

namespace Text

/-- A text of whole lines. -/
def unlines (lines : List (List Char)) : List Char := lines.flatMap (· ++ ['\n'])

theorem unlines_concat (parts : List (List Char)) (part : List Char) :
    unlines (parts ++ [part]) = unlines parts ++ (part ++ ['\n']) := by
  simp [unlines]

theorem split_eq_splitOn (mark : Char) (text : List Char) : split mark text = text.splitOn mark := by
  induction text with
  | nil => exact (List.splitOn_nil mark).symm
  | cons c text ih =>
    rw [split, List.splitOn_cons_eq_if_modifyHead, ih]
    by_cases same : c = mark
    · simp [same]
    · cases rest : text.splitOn mark with
      | nil => exact absurd rest (List.splitOn_ne_nil mark text)
      | cons first more => simp [same]

theorem split_intercalate {mark : Char} {parts : List (List Char)} (inside : ∀ part ∈ parts, mark ∉ part)
    (some : parts ≠ []) : split mark ([mark].intercalate parts) = parts := by
  rw [split_eq_splitOn, List.splitOn_intercalate mark inside some]

theorem lines_line {line : List Char} (inside : '\n' ∉ line) (rest : List Char) :
    lines (line ++ '\n' :: rest) = line :: lines rest := by
  rw [lines, lines, split_eq_splitOn, split_eq_splitOn,
    List.splitOn_append_cons_self_of_not_mem inside]

theorem lines_unlines {parts : List (List Char)} (inside : ∀ part ∈ parts, '\n' ∉ part) :
    lines (unlines parts) = parts ++ [[]] := by
  induction parts with
  | nil => rfl
  | cons part parts ih =>
    obtain ⟨first, later⟩ := List.forall_mem_cons.1 inside
    have cut : unlines (part :: parts) = part ++ '\n' :: unlines parts := by simp [unlines]
    rw [cut, lines_line first, ih later, List.cons_append]

theorem lines_intercalate {first : List Char} {more : List (List Char)}
    (inside : ∀ part ∈ first :: more, '\n' ∉ part) :
    lines (['\n'].intercalate (first :: more)) = first :: more :=
  split_intercalate inside (List.cons_ne_nil first more)

theorem head?_lines (text : List Char) : (lines text).head? = some (text.takeWhile (· ≠ '\n')) := by
  induction text with
  | nil => rfl
  | cons c text ih =>
    by_cases newline : c = '\n'
    · simp [lines, split, newline]
    · simp only [lines] at ih ⊢
      rw [split, if_neg newline, List.takeWhile_cons_of_pos (by simpa using newline)]
      cases rest : split '\n' text with
      | nil => simp [rest] at ih
      | cons first more =>
        rw [rest, List.head?_cons, Option.some_inj] at ih
        rw [List.head?_cons, ih]

theorem int_toList {number : Int} (natural : 0 ≤ number) :
    (toString number).toList = Nat.toDigits 10 number.toNat := by
  rw [Int.toString_eq_repr, Int.repr_eq_if, if_pos natural, Nat.toList_repr]

/-- A number is written with digits, after a sign if it is negative. -/
theorem mem_int {number : Int} {c : Char} (member : c ∈ (toString number).toList) :
    c.isDigit = true ∨ c = '-' := by
  have digits {n : Nat} (member : c ∈ Nat.toDigits 10 n) : c.isDigit = true :=
    Nat.isDigit_of_mem_toDigits (by decide) (by decide) member
  by_cases natural : 0 ≤ number
  · rw [int_toList natural] at member
    exact .inl (digits member)
  · rw [Int.toString_eq_repr, Int.repr_eq_if, if_neg natural, String.toList_append, Nat.toList_repr]
      at member
    rcases List.mem_append.1 member with sign | inside
    · exact .inr (by simpa using sign)
    · exact .inl (digits inside)

theorem ne_of_mem_int {number : Int} {c d : Char} (member : c ∈ (toString number).toList)
    (other : ¬ (d.isDigit = true ∨ d = '-')) : c ≠ d := by
  rintro rfl
  exact other (mem_int member)

theorem newline_not_mem_int (number : Int) : '\n' ∉ (toString number).toList := fun member =>
  ne_of_mem_int member (by decide) rfl

end Text

/-! ## The line of a place -/

theorem ne_newline_of_not_mem {text : List Char} (inside : '\n' ∉ text) :
    ∀ c ∈ text, decide (c ≠ '\n') = true := by
  intro c member
  simpa using fun same : c = '\n' => inside (same ▸ member)

theorem newline_not_mem_openLine (text : List Char) : '\n' ∉ openLine text := by
  intro member
  simpa using List.mem_rtakeWhile_imp member

theorem openLine_append_newline (front back : List Char) :
    openLine (front ++ '\n' :: back) = openLine back := by
  induction back using List.reverseRecOn with
  | nil => rw [openLine_newline]; rfl
  | append_singleton back c ih =>
    rw [← List.cons_append, ← List.append_assoc]
    by_cases newline : c = '\n'
    · rw [newline, openLine_newline, openLine_newline]
    · rw [openLine_concat newline, openLine_concat newline, ih]

theorem openLine_append {front : List Char} (inside : '\n' ∉ front) (text : List Char) :
    openLine (text ++ front) = openLine text ++ front := by
  induction front using List.reverseRecOn with
  | nil => simp
  | append_singleton front c ih =>
    rw [List.mem_append, not_or] at inside
    have last : c ≠ '\n' := fun same => inside.2 (by simp [same])
    rw [← List.append_assoc, openLine_concat last, ih inside.1, List.append_assoc]

/-- The line that a text is cut in. -/
def lineAt (passed rest : List Char) : List Char := openLine passed ++ rest.takeWhile (· ≠ '\n')

theorem newline_not_mem_lineAt (passed rest : List Char) : '\n' ∉ lineAt passed rest := by
  rw [lineAt, List.mem_append, not_or]
  refine ⟨newline_not_mem_openLine passed, fun member => ?_⟩
  simpa using List.mem_takeWhile_imp member

/-- A line is the same, wherever it is cut. -/
theorem lineAt_append {front : List Char} (inside : '\n' ∉ front) (passed rest : List Char) :
    lineAt (passed ++ front) rest = lineAt passed (front ++ rest) := by
  rw [lineAt, lineAt, openLine_append inside,
    List.takeWhile_append_of_pos (ne_newline_of_not_mem inside), List.append_assoc]

theorem lines_passed (passed rest : List Char) :
    (Text.lines (passed ++ rest))[passed.count '\n']? = some (lineAt passed rest) := by
  by_cases newline : '\n' ∈ passed
  · obtain ⟨line, behind, rfl, inside⟩ := List.eq_append_cons_of_mem newline
    have later := lines_passed behind rest
    have count : (line ++ '\n' :: behind).count '\n' = behind.count '\n' + 1 := by
      rw [List.count_append, List.count_cons_self, List.count_eq_zero.2 inside, Nat.zero_add]
    rw [count, List.append_assoc, List.cons_append, Text.lines_line inside, List.getElem?_cons_succ,
      later, lineAt, lineAt, openLine_append_newline]
  · rw [List.count_eq_zero.2 newline, ← List.head?_eq_getElem?, Text.head?_lines]
    exact congrArg some (lineAt_append newline [] rest).symm
termination_by passed.length

theorem line?_passed (passed rest : List Char) :
    Text.line? (passed ++ rest) (1 + passed.count '\n') = some (lineAt passed rest) := by
  rw [Text.line?, if_pos (by omega), ← lines_passed]
  congr 1
  omega

theorem Cursor.lineText_after (passed rest : List Char) :
    (Cursor.after passed rest).lineText = lineAt passed rest :=
  List.takeWhile_append_of_pos (ne_newline_of_not_mem (newline_not_mem_openLine passed))

end LineBasic
