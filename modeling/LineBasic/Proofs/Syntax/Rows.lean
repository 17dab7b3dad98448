import LineBasic.Proofs.Source.Replace
import LineBasic.Proofs.Syntax.Lines

/-!
# What the options change in a body

The body of a C program is made of the lines of its statements and, if the options ask for them, a
comment before each statement. The number of decimal places stands in the formats of printed numbers and
nowhere else, so one number is put for another by replacing these formats (`Code.body_precision`). The
comments are lines of a form of their own, so they can be taken out again (`Code.body_delete`).
-/

namespace LineBasic.Syntax

set_option autoImplicit false

/-! ## Formats -/

/-- The format for a number with decimal places. -/
def placesFormat (precision : Int) : List Char := s!"%.{precision}f".toList

theorem placesFormat_eq (precision : Int) :
    placesFormat precision = '%' :: '.' :: ((toString precision).toList ++ ['f']) := by
  rw [placesFormat, String.toList_append, String.toList_append]
  rfl

/-- No expression holds a percent sign. -/
theorem textClass_percent : TextClass fun text => '%' ∉ text where
  leaf well := by
    intro member
    rcases well.chars.2 _ member with letter | digit | point
    · cases letter
    · cases digit
    · cases point
  signed sign text inner := by
    have outside : '%' ∉ sign.operator.spelling.toList := by cases sign <;> decide
    simp [outside, inner]
  joined op text more first second := by
    have outside : '%' ∉ op.spelling.toList := by cases op <;> decide
    simp [outside, first, second]

theorem Line.print_toList (precision : Int) (value : Expression) :
    ((Line.print value).text precision).toList =
      "printf(\"".toList ++ (placesFormat precision ++
        ("\\n\", (float)(".toList ++ (value.text.toList ++ "));".toList))) := by
  rw [Line.text, framed_toList, String.toList_append, String.toList_append, placesFormat_eq]
  simp only [List.append_assoc, List.cons_append, List.nil_append]
  rfl

/-- Replacing one format by the other makes one text of the other. -/
def Reformatted (precision precision' : Int) (text text' : List Char) : Prop :=
  Text.Replaced (placesFormat precision) (placesFormat precision') text text'

section Reformatting

variable {precision precision' : Int}

theorem reformatted_self {text : List Char} (outside : '%' ∉ text) :
    Reformatted precision precision' text text :=
  Text.replaced_self (placesFormat_eq precision) outside

theorem reformatted_framed {before before' inner after : String}
    (first : Reformatted precision precision' before.toList before'.toList)
    (second : '%' ∉ inner.toList) (third : '%' ∉ after.toList) :
    Reformatted precision precision' (framed before inner after).toList
      (framed before' inner after).toList := by
  rw [framed_toList, framed_toList]
  exact first.append ((reformatted_self second).append (reformatted_self third))

theorem Line.reformatted {line : Line} (well : line.WellSpelled) :
    Reformatted precision precision' (line.text precision).toList (line.text precision').toList := by
  have named {name : String} (letters : Letters name) : '%' ∉ name.toList := fun member =>
    absurd (letters.2 _ member) (by decide)
  have fixed {text : String} (outside : '%' ∉ text.toList) :
      Reformatted precision precision' text.toList text.toList := reformatted_self outside
  have other (c : Char) (point : c ≠ '.') (mark : c ≠ '%') :
      Reformatted precision precision' ['%', c] ['%', c] :=
    Text.replaced_mark (placesFormat_eq precision) point mark
  cases line with
  | printText text =>
    exact reformatted_framed (fixed (by decide)) (fun member => absurd (well _ member) (by decide))
      (by decide)
  | print value =>
    have format : Reformatted precision precision' (placesFormat precision) (placesFormat precision') :=
      Text.replaced_old (by rw [placesFormat_eq]; nofun)
    have shown : Reformatted precision precision' value.text.toList value.text.toList :=
      reformatted_self (textClass_percent.expression well)
    rw [print_toList, print_toList]
    exact (fixed (by decide)).append
      (format.append ((fixed (by decide)).append (shown.append (fixed (by decide)))))
  | label name => exact reformatted_framed (fixed (by decide)) (named well) (by decide)
  | goto name => exact reformatted_framed (fixed (by decide)) (named well) (by decide)
  | assign name value =>
    have target : '%' ∉ (name ++ " = ").toList := by simp [named well.1]
    exact reformatted_framed (fixed target) (textClass_percent.expression well.2) (by decide)
  | read name =>
    have scans : Reformatted precision precision' "if(0 == scanf(\"%f\", &".toList
        "if(0 == scanf(\"%f\", &".toList :=
      (fixed (by decide : '%' ∉ "if(0 == scanf(\"".toList)).append
        ((other 'f' (by decide) (by decide)).append (fixed (by decide : '%' ∉ "\", &".toList)))
    exact reformatted_framed scans (named well) (by decide)
  | discard =>
    have scans : Reformatted precision precision' "scanf(\"%*s\");".toList "scanf(\"%*s\");".toList :=
      (fixed (by decide : '%' ∉ "scanf(\"".toList)).append
        ((other '*' (by decide) (by decide)).append (fixed (by decide : '%' ∉ "s\");".toList)))
    exact scans
  | opens block condition =>
    exact reformatted_framed (fixed (by cases block <;> decide)) (textClass_percent.condition well)
      (by decide)
  | close => exact fixed (by decide : '%' ∉ "\x7d".toList)
  | leave => exact fixed (by decide : '%' ∉ "return 0;".toList)
  | declare name => exact reformatted_framed (fixed (by decide)) (named well) (by decide)

end Reformatting

/-! ## Comments -/

/-- The comment before a statement that begins on a line. -/
def commentText (number : Int) : List Char := s!"/* line {number} */".toList

theorem commentText_eq (number : Int) :
    commentText number = "/* line ".toList ++ ((toString number).toList ++ " */".toList) := by
  rw [commentText, String.toList_append, String.toList_append, List.append_assoc]
  rfl

/-- The form of a comment before a statement: a numeral in a fixed frame. -/
def isLineComment (text : List Char) : Bool :=
  let numeral := (text.drop 8).takeWhile Char.isDigit
  decide (numeral ≠ [] ∧ text = "/* line ".toList ++ (numeral ++ " */".toList))

theorem isLineComment_commentText {number : Int} (natural : 0 ≤ number) :
    isLineComment (commentText number) = true := by
  have digits : ∀ c ∈ (toString number).toList, c.isDigit = true := by
    rw [Text.int_toList natural]
    exact fun c member => Nat.isDigit_of_mem_toDigits (by decide) (by decide) member
  have some : (toString number).toList ≠ [] := by
    rw [Text.int_toList natural]
    exact Nat.toDigits_ne_nil
  have numeral : ((commentText number).drop 8).takeWhile Char.isDigit = (toString number).toList := by
    rw [commentText_eq]
    show ((toString number).toList ++ " */".toList).takeWhile Char.isDigit = _
    rw [List.takeWhile_append_of_pos digits]
    simp
  unfold isLineComment
  rw [numeral]
  exact decide_eq_true ⟨some, commentText_eq number⟩

theorem not_isLineComment {text : List Char} (other : text.head? ≠ some '/') :
    isLineComment text = false := by
  refine decide_eq_false fun found => other ?_
  rw [found.2]
  rfl

theorem isLineComment_nil : isLineComment [] = false := not_isLineComment nofun

/-- No line of a statement begins as a comment does. -/
theorem Line.head?_ne_slash (precision : Int) {line : Line} (well : line.WellSpelled) :
    (line.text precision).toList.head? ≠ some '/' := by
  have begun (c : Char) {before inner after : String} (begins : before.toList.head? = some c)
      (other : c ≠ '/') : (framed before inner after).toList.head? ≠ some '/' := by
    rw [framed_toList, List.head?_append, begins, Option.some_or]
    simpa using other
  cases line with
  | printText text => exact begun 'p' rfl (by decide)
  | print value =>
    rw [print_toList]
    nofun
  | label name =>
    have begins : (name.toList ++ ":;".toList).head? ≠ some '/' :=
      head?_ne_of_all well.2 (by decide) (by decide)
    rwa [text, framed_toList]
  | goto name => exact begun 'g' rfl (by decide)
  | assign name value =>
    rw [assign_toList]
    exact head?_ne_of_all well.1.2 (by decide) (by simp)
  | read name => exact begun 'i' rfl (by decide)
  | discard => exact (by decide : "scanf(\"%*s\");".toList.head? ≠ some '/')
  | opens block condition =>
    cases block with
    | choice => exact begun 'i' rfl (by decide)
    | loop => exact begun 'w' rfl (by decide)
  | close => exact (by decide : "\x7d".toList.head? ≠ some '/')
  | leave => exact (by decide : "return 0;".toList.head? ≠ some '/')
  | declare name => exact begun 'f' rfl (by decide)

/-! ## Bodies with comments -/

/-- A line of a body. -/
inductive Row where
  | comment (number : Int)
  | plain (line : Line)

namespace Row

def text (precision : Int) : Row → List Char
  | .comment number => commentText number
  | .plain line => (line.text precision).toList

def number? : Row → Option Int
  | .comment number => some number
  | .plain _ => none

def line? : Row → Option Line
  | .comment _ => none
  | .plain line => some line

def WellSpelled : Row → Prop
  | .comment number => 0 ≤ number
  | .plain line => line.WellSpelled

variable {row : Row}

theorem newline_not_mem (precision : Int) (well : row.WellSpelled) : '\n' ∉ row.text precision := by
  cases row with
  | comment number =>
    rw [text, commentText_eq]
    simpa using Text.newline_not_mem_int number
  | plain line => exact line.newline_not_mem precision well

theorem reformatted {precision precision' : Int} (well : row.WellSpelled) :
    Reformatted precision precision' (row.text precision) (row.text precision') := by
  cases row with
  | comment number =>
    refine reformatted_self fun member => ?_
    rw [text, commentText_eq] at member
    have inside : '%' ∈ (toString number).toList := by simpa using member
    exact Text.ne_of_mem_int inside (by decide) rfl
  | plain line => exact line.reformatted well

theorem isLineComment_text (precision : Int) (well : row.WellSpelled) :
    isLineComment (row.text precision) = row.number?.isSome := by
  cases row with
  | comment number => exact isLineComment_commentText well
  | plain line => exact not_isLineComment (line.head?_ne_slash precision well)

theorem filter_isLineComment (precision : Int) {rows : List Row}
    (well : ∀ row ∈ rows, row.WellSpelled) :
    (rows.map (text precision)).filter isLineComment = (rows.filterMap number?).map commentText := by
  induction rows with
  | nil => rfl
  | cons row rows ih =>
    obtain ⟨first, later⟩ := List.forall_mem_cons.1 well
    have form := isLineComment_text precision first
    cases row with
    | comment number =>
      rw [List.map_cons, List.filter_cons_of_pos form, ih later]
      rfl
    | plain line =>
      rw [List.map_cons, List.filter_cons_of_neg (by simp [form, number?]), ih later]
      rfl

theorem filter_not_isLineComment (precision : Int) {rows : List Row}
    (well : ∀ row ∈ rows, row.WellSpelled) :
    (rows.map (text precision)).filter (fun text => !isLineComment text) =
      (rows.filterMap line?).map fun line => (line.text precision).toList := by
  induction rows with
  | nil => rfl
  | cons row rows ih =>
    obtain ⟨first, later⟩ := List.forall_mem_cons.1 well
    have form := isLineComment_text precision first
    cases row with
    | comment number =>
      rw [List.map_cons, List.filter_cons_of_neg (by simp [form, number?]), ih later]
      rfl
    | plain line =>
      rw [List.map_cons, List.filter_cons_of_pos (by simp [form, number?]), ih later]
      rfl

end Row

/-- The rows of statements, each with its comment before it. -/
def Code.rows : Code → List Row
  | .done => []
  | .simple number statement next =>
      .comment number :: (statement.lines.map Row.plain ++ next.rows)
  | .block number kind condition body next =>
      .comment number :: .plain (.opens kind condition) :: (body.rows ++ .plain .close :: next.rows)

theorem Row.filterMap_number?_plain (lines : List Line) :
    (lines.map Row.plain).filterMap Row.number? = [] := by
  rw [List.filterMap_map]
  exact List.filterMap_eq_nil_iff.2 fun _ _ => rfl

theorem Row.filterMap_line?_plain (lines : List Line) :
    (lines.map Row.plain).filterMap Row.line? = lines := by
  rw [List.filterMap_map, show Row.line? ∘ Row.plain = some from rfl, List.filterMap_some]

theorem Code.rows_numbers (code : Code) : code.rows.filterMap Row.number? = code.starts := by
  induction code with
  | done => rfl
  | simple number statement next ih =>
    rw [rows, List.filterMap_cons, List.filterMap_append, Row.filterMap_number?_plain, ih]
    rfl
  | block number kind condition body next ihBody ihNext =>
    simp [rows, List.filterMap_cons, Row.number?, starts, ihBody, ihNext]

theorem Code.rows_lines (code : Code) : code.rows.filterMap Row.line? = code.lines := by
  induction code with
  | done => rfl
  | simple number statement next ih =>
    rw [rows, List.filterMap_cons, List.filterMap_append, Row.filterMap_line?_plain, ih]
    rfl
  | block number kind condition body next ihBody ihNext =>
    simp [rows, List.filterMap_cons, Row.line?, lines, ihBody, ihNext]

/-- The lines of a body that ends the program. -/
def Code.bodyLines (code : Code) : List Line := code.lines ++ [.leave, .close]

/-- The rows of a body, with comments or without them. -/
def Code.bodyRows (comments : Bool) (code : Code) : List Row :=
  if comments then code.rows ++ [.plain .leave, .plain .close] else code.bodyLines.map Row.plain

theorem Code.bodyRows_numbers (comments : Bool) (code : Code) :
    (code.bodyRows comments).filterMap Row.number? = if comments then code.starts else [] := by
  cases comments with
  | true =>
    rw [bodyRows, if_pos rfl, List.filterMap_append, rows_numbers]
    exact List.append_nil _
  | false =>
    rw [bodyRows, if_neg Bool.false_ne_true, Row.filterMap_number?_plain]
    rfl

theorem Code.bodyRows_lines (comments : Bool) (code : Code) :
    (code.bodyRows comments).filterMap Row.line? = code.bodyLines := by
  cases comments with
  | true =>
    rw [bodyRows, if_pos rfl, List.filterMap_append, rows_lines]
    rfl
  | false => rw [bodyRows, if_neg Bool.false_ne_true, Row.filterMap_line?_plain]

section Bodies

variable {code : Code}

theorem Code.text_eq_rows (precision : Int) (code : Code) :
    (code.text ⟨precision, true⟩).toList = Text.unlines (code.rows.map (Row.text precision)) := by
  have note (number : Int) :
      (lineComment ⟨precision, true⟩ number).toList = commentText number ++ ['\n'] := by
    rw [lineComment, if_pos rfl, line, String.toList_append]
    rfl
  induction code with
  | done => rfl
  | simple number statement next ih =>
    simp only [text, String.toList_append, note, statement.text_eq_lines, linesText_toList, ih, rows,
      List.map_cons, List.map_append, List.map_map, Text.unlines, List.flatMap_cons,
      List.flatMap_append, List.append_assoc]
    rfl
  | block number kind condition body next ihBody ihNext =>
    simp only [text, String.toList_append, note, ihBody, ihNext, rows, Row.text, Line.text, framed,
      List.map_cons, List.map_append, Text.unlines, List.flatMap_cons, List.flatMap_append,
      List.append_assoc, line]
    rfl

theorem Code.body_eq_rows (options : Options) (code : Code) :
    (code.text options ++ epilogue).toList =
      Text.unlines ((code.bodyRows options.lineComments).map (Row.text options.precision)) := by
  obtain ⟨precision, comments⟩ := options
  cases comments with
  | true =>
    rw [String.toList_append, text_eq_rows, epilogue_eq_lines precision, linesText_toList, bodyRows,
      if_pos rfl, List.map_append]
    exact List.flatMap_append.symm
  | false =>
    rw [code.text_eq_lines rfl, epilogue_eq_lines precision, ← linesText_append, linesText_toList,
      bodyRows, if_neg Bool.false_ne_true, List.map_map]
    rfl

theorem Code.bodyRows_wellSpelled (well : ∀ line ∈ code.lines, line.WellSpelled)
    (natural : ∀ start ∈ code.starts, 0 ≤ start) (comments : Bool) :
    ∀ row ∈ code.bodyRows comments, row.WellSpelled := by
  intro row member
  cases row with
  | comment number =>
    have listed : number ∈ if comments then code.starts else [] := by
      rw [← code.bodyRows_numbers]
      exact List.mem_filterMap.2 ⟨_, member, rfl⟩
    cases comments with
    | true => exact natural number listed
    | false => cases listed
  | plain line =>
    have listed : line ∈ code.bodyLines := by
      rw [← code.bodyRows_lines comments]
      exact List.mem_filterMap.2 ⟨_, member, rfl⟩
    rcases List.mem_append.1 listed with inside | last
    · exact well line inside
    · simp only [List.mem_cons, List.not_mem_nil, or_false] at last
      rcases last with rfl | rfl <;> trivial

/-- Another number of decimal places is put into a body by replacing formats. -/
theorem Code.body_precision (precision precision' : Int) {comments : Bool}
    (well : ∀ row ∈ code.bodyRows comments, row.WellSpelled) :
    Text.replaceAll (placesFormat precision) (placesFormat precision')
        (code.text ⟨precision, comments⟩ ++ epilogue).toList =
      (code.text ⟨precision', comments⟩ ++ epilogue).toList := by
  have newline : Reformatted precision precision' ['\n'] ['\n'] := reformatted_self (by decide)
  rw [body_eq_rows, body_eq_rows]
  exact (Text.replaced_unlines newline fun row member => Row.reformatted (well row member)).whole

theorem newline_not_mem_rows (precision : Int) {rows : List Row}
    (well : ∀ row ∈ rows, row.WellSpelled) : ∀ part ∈ rows.map (Row.text precision), '\n' ∉ part := by
  intro part member
  obtain ⟨row, listed, rfl⟩ := List.mem_map.1 member
  exact Row.newline_not_mem precision (well row listed)

/-- A body without its comments is the body that has none. -/
theorem Code.body_delete (precision : Int) (well : ∀ row ∈ code.bodyRows true, row.WellSpelled) :
    Text.deleteLines isLineComment (code.text ⟨precision, true⟩ ++ epilogue).toList =
      (code.text ⟨precision, false⟩ ++ epilogue).toList := by
  rw [body_eq_rows, body_eq_rows,
    Text.deleteLines_unlines (newline_not_mem_rows precision well) isLineComment_nil,
    Row.filter_not_isLineComment precision well, bodyRows_lines, bodyRows, if_neg Bool.false_ne_true,
    List.map_map]
  rfl

/-- The comments of a body are one for each statement, with the line on which it begins. -/
theorem Code.body_comments (precision : Int) (well : ∀ row ∈ code.bodyRows true, row.WellSpelled) :
    (Text.lines (code.text ⟨precision, true⟩ ++ epilogue).toList).filter isLineComment =
      code.starts.map commentText := by
  rw [body_eq_rows, Text.lines_unlines (newline_not_mem_rows precision well),
    List.filter_append, Row.filter_isLineComment precision well, bodyRows_numbers]
  simp [isLineComment_nil]

end Bodies

end LineBasic.Syntax
