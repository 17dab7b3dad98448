import LineBasic.Proofs.C.Lines
import LineBasic.Proofs.Translation.Options

/-!
# Strings are printed as they are written

A string is put into a C program between quotes, and there it is at once a string literal and a format.
A reader of C comes to the line in code, finds the literal between the quotes that were written around
the text, and each character of the text stands for itself, in the literal and in the format
(`strings_printed`).
-/

namespace LineBasic

set_option autoImplicit false

open Lexeme (isStringChar)

namespace Syntax

/-! ## The strings of a program -/

/-- The strings that are printed, in the order of the source. -/
def Code.strings : Code → List String
  | .done => []
  | .simple _ (.printText text) next => text :: next.strings
  | .simple _ _ next => next.strings
  | .block _ _ _ body next => body.strings ++ next.strings

theorem Code.strings_simple (line : Int) (statement : Simple) (next : Code) :
    (simple line statement next).strings = (simple line statement .done).strings ++ next.strings := by
  cases statement <;> rfl

theorem Code.lines_strings (code : Code) : code.lines.filterMap Line.string? = code.strings := by
  induction code with
  | done => rfl
  | simple line statement next ih =>
    have first : statement.lines.filterMap Line.string? = (simple line statement .done).strings := by
      cases statement <;> rfl
    rw [lines, List.filterMap_append, first, ih, ← strings_simple]
  | block line kind condition body next ihBody ihNext =>
    simp [lines, List.filterMap_cons, Line.string?, strings, ihBody, ihNext]

/-- The strings among tokens. -/
def quoted (tokens : List Token) : List Token := tokens.filter fun token => token.kind = .string

theorem quoted_append (tokens more : List Token) :
    quoted (tokens ++ more) = quoted tokens ++ quoted more := List.filter_append ..

theorem quoted_eq_nil {tokens : List Token} (plain : ∀ token ∈ tokens, token.kind ≠ .string) :
    quoted tokens = [] :=
  List.filter_eq_nil_iff.2 fun token member => by simpa using plain token member

theorem ne_string_of_inExpression {tokens : List Token}
    (kinds : ∀ token ∈ tokens, inExpression token.kind = true) :
    ∀ token ∈ tokens, token.kind ≠ .string := by
  intro token member quotes
  have kind := kinds token member
  rw [quotes] at kind
  cases kind

theorem LineEnd.quoted {tokens : List Token} (ends : LineEnd tokens) : quoted tokens = [] :=
  quoted_eq_nil fun token member => by simp [ends.2 token member]

theorem HeadReads.quoted {block : Pass.Block} {tokens : List Token} {condition : Condition}
    (reads : HeadReads block tokens condition) : quoted tokens = [] := by
  obtain ⟨compared, opens, ends⟩ := reads
  refine quoted_eq_nil (List.forall_mem_append.2 ⟨ne_string_of_inExpression compared.kinds, ?_⟩)
  exact List.forall_mem_cons.2 ⟨by simp [opens], fun token member => by simp [ends.2 token member]⟩

theorem Simple.Reads.quoted {keyword : Token} {tokens : List Token} {statement : Simple}
    (reads : statement.Reads keyword tokens) (line : Int) :
    (quoted (keyword :: tokens)).map (·.text) = (Code.simple line statement .done).strings := by
  have none {tokens : List Token} (plain : ∀ token ∈ tokens, token.kind ≠ .string) :
      (Syntax.quoted tokens).map (·.text) = [] := by rw [quoted_eq_nil plain]; rfl
  cases reads with
  | printText begins kind => simp [Syntax.quoted, begins, kind, Code.strings]
  | print begins reads =>
    exact none (List.forall_mem_cons.2 ⟨by simp [begins], ne_string_of_inExpression reads.kinds⟩)
  | label begins kind => exact none (by simp [begins, kind])
  | goto begins kind => exact none (by simp [begins, kind])
  | assign begins kind equals reads =>
    have value := ne_string_of_inExpression reads.kinds
    exact none (by simpa [begins, kind, equals] using value)
  | input begins kind => exact none (by simp [begins, kind])

theorem Code.Reads.quoted {tokens : List Token} {code : Code} (reads : code.Reads tokens) :
    (quoted tokens).map (·.text) = code.strings := by
  induction reads with
  | done => rfl
  | @simple keyword tokens newlines later statement next first ends _ ih =>
    rw [quoted_append, quoted_append, ends.quoted, List.append_nil, List.map_append,
      first.quoted keyword.location.line, ih, ← strings_simple]
  | @block keyword closer head inner newlines later block condition body next begins opens _ closes
      ends _ ihBody ihNext =>
    have first : Syntax.quoted [keyword] = [] := quoted_eq_nil (by simp [begins])
    have last : Syntax.quoted [closer] = [] := quoted_eq_nil (by simp [closes])
    have cut : keyword :: head ++ inner ++ closer :: newlines ++ later =
        [keyword] ++ head ++ inner ++ ([closer] ++ newlines) ++ later := rfl
    simp only [cut, quoted_append, first, last, opens.quoted, ends.quoted, List.nil_append,
      List.append_nil, List.map_append, ihBody, ihNext, strings]

theorem Code.ReadsProgram.quoted {tokens : List Token} {code : Code} (reads : code.ReadsProgram tokens) :
    (quoted tokens).map (·.text) = code.strings := by
  obtain ⟨blanks, reads, ends⟩ := reads
  rw [quoted_append, quoted_append, quoted_eq_nil fun token member => by simp [blanks token member],
    quoted_eq_nil (List.forall_mem_singleton.2 (by simp [ends])), List.nil_append, List.append_nil,
    reads.quoted]

/-! ## Whole programs -/

/-- The first lines of every program. -/
def headLines : List (List Char) := ["#include <stdio.h>".toList, "int main(void)\x7b".toList]

/-- The rows of a program behind its first lines. -/
def Code.programRows (comments : Bool) (code : Code) : List Row :=
  code.targets.eraseDups.map (fun name => .plain (.declare name)) ++ code.bodyRows comments

theorem Code.program_eq_rows (options : Options) (code : Code) :
    (prologue ++ declarations code.targets.eraseDups ++ (code.text options ++ epilogue)).toList =
      Text.unlines (headLines ++
        (code.programRows options.lineComments).map (Row.text options.precision)) := by
  rw [String.toList_append, String.toList_append, code.body_eq_rows,
    declarations_eq_lines options.precision, linesText_toList, programRows, Text.unlines, Text.unlines,
    Text.unlines, List.map_append, List.flatMap_append, List.flatMap_append, List.map_map, List.map_map,
    List.append_assoc]
  rfl

theorem Code.programRows_lines (comments : Bool) (code : Code) :
    (code.programRows comments).filterMap Row.line? = code.programLines := by
  have declared (names : List String) :
      (names.map fun name => Row.plain (.declare name)).filterMap Row.line? = names.map .declare := by
    rw [← Row.filterMap_line?_plain (names.map .declare), List.map_map]
    rfl
  rw [programRows, List.filterMap_append, declared, bodyRows_lines]
  rfl

theorem Code.programRows_strings (comments : Bool) (code : Code) :
    (code.programRows comments).filterMap Row.string? = code.strings := by
  have declared (names : List String) : (names.map Line.declare).filterMap Line.string? = [] := by
    rw [List.filterMap_map]
    exact List.filterMap_eq_nil_iff.2 fun _ _ => rfl
  calc
    _ = ((code.programRows comments).filterMap Row.line?).filterMap Line.string? :=
      List.filterMap_filterMap.symm
    _ = code.lines.filterMap Line.string? ++ [] := by
      rw [programRows_lines, programLines, List.filterMap_append, List.filterMap_append, declared]
      rfl
    _ = code.strings := by rw [lines_strings, List.append_nil]

end Syntax

open Syntax

variable {options : Options} {file source : String} {result : Compiled}

/-- The text of a compiled program, row by row. -/
theorem exists_unlines_of_compile (compiled : compile options file source = .ok result) :
    ∃ code : Code, code.ReadsProgram (Scanner.start file source).drain.tokens ∧
      result.output.text.toList = Text.unlines (headLines ++
        (code.programRows options.lineComments).map (Row.text options.precision)) ∧
      ∀ row ∈ code.programRows options.lineComments, row.WellSpelled := by
  obtain ⟨code, reads, header, body, -⟩ := exists_tree_of_compile compiled
  obtain ⟨other, again, -, well, -⟩ := exists_rows_of_compile compiled
  obtain rfl := again.eq reads
  refine ⟨other, reads, ?_, ?_⟩
  · rw [← other.program_eq_rows, ← header, ← body]
    rfl
  · refine List.forall_mem_append.2 ⟨List.forall_mem_map.2 fun name member => ?_, well _⟩
    have lines := reads.wellSpelled (Scanner.stream_spelled _)
    exact other.letters_targets lines name (List.mem_eraseDups.1 member)

/-- The lines of a compiled program. The last one is empty, as the program ends with a newline. -/
theorem exists_lines_of_compile (compiled : compile options file source = .ok result) :
    ∃ code : Code, code.ReadsProgram (Scanner.start file source).drain.tokens ∧
      Text.lines result.output.text.toList =
        headLines ++ (code.programRows options.lineComments).map (Row.text options.precision) ++ [[]] ∧
      ∀ row ∈ code.programRows options.lineComments, row.WellSpelled := by
  obtain ⟨code, reads, text, rows⟩ := exists_unlines_of_compile compiled
  refine ⟨code, reads, ?_, rows⟩
  rw [text, Text.lines_unlines]
  exact List.forall_mem_append.2 ⟨by decide, newline_not_mem_rows options.precision rows⟩

theorem Row.eq_of_string? {row : Row} {text : String} (found : row.string? = some text) :
    row = .plain (.printText text) := by
  cases row with
  | comment number => cases found
  | plain line =>
    cases line with
    | printText text' =>
      cases found
      rfl
    | _ => cases found

/-- Rows that print the strings of some tokens have one row for each string. -/
theorem exists_row_of_quoted {rows : List Row} {front back : List Token} {token : Token}
    (strings : rows.filterMap Row.string? = (quoted (front ++ token :: back)).map (·.text))
    (kind : token.kind = .string) :
    ∃ earlier later, rows = earlier ++ .plain (.printText token.text) :: later ∧
      earlier.filterMap Row.string? = (quoted front).map (·.text) := by
  have listed : quoted (front ++ token :: back) = quoted front ++ token :: quoted back := by
    rw [quoted_append]
    exact congrArg (quoted front ++ ·) (List.filter_cons_of_pos (by simpa using kind))
  rw [listed, List.map_append, List.map_cons] at strings
  obtain ⟨earlier, behind, rfl, first, second⟩ := List.filterMap_eq_append_iff.1 strings
  obtain ⟨silent, row, later, rfl, none, found, -⟩ := List.filterMap_eq_cons_iff.1 second
  obtain rfl := Row.eq_of_string? found
  refine ⟨earlier ++ silent, later, (List.append_assoc ..).symm, ?_⟩
  rw [List.filterMap_append, first, List.filterMap_eq_nil_iff.2 none, List.append_nil]

/-- What lines print that make a program with the first ones. -/
theorem filterMap_printed? (precision : Int) {rows : List Row} (well : ∀ row ∈ rows, row.WellSpelled) :
    (headLines ++ rows.map (Row.text precision)).filterMap C.printed? =
      (rows.filterMap Row.string?).map printedBytes := by
  have silent : headLines.filterMap C.printed? = [] := by decide
  rw [List.filterMap_append, silent, List.nil_append]
  induction rows with
  | nil => rfl
  | cons row rows ih =>
    obtain ⟨first, later⟩ := List.forall_mem_cons.1 well
    rw [List.map_cons, List.filterMap_cons, List.filterMap_cons, Row.printed?_text precision first,
      ih later]
    cases row.string? <;> rfl

theorem scan_program (precision : Int) {rows : List Row} (well : ∀ row ∈ rows, row.WellSpelled) :
    C.scan .code (Text.unlines (headLines ++ rows.map (Row.text precision))) = .code := by
  refine C.scan_unlines (List.forall_mem_append.2 ⟨by decide, List.forall_mem_map.2 ?_⟩)
  exact fun row member => Row.scan_text precision (well row member)

/-- How C takes a line that is to print a text, behind the text of a program before it: the line is
reached in code, its literal begins and ends with the quotes around the text, and each character of the
text stands for itself, in the literal and in the format. -/
structure PrintsAsWritten (before line : List Char) (text : String) : Prop where
  written : line = "printf(\"".toList ++ (text.toList ++ "\\n\");".toList)
  oneLine : '\n' ∉ line
  reached : C.scan .code before = .code
  inside : ∀ part, part <+: text.toList →
    C.scan .code (before ++ ("printf(\"".toList ++ part)) = .literal
  closed : C.scan .code (before ++ ("printf(\"".toList ++ (text.toList ++ "\\n\"".toList))) = .code
  literal : C.literal? (text.toList ++ "\\n\");".toList) =
    some (text.toList.map C.Item.plain ++ [C.Item.byte 10], ");".toList)
  printed : C.formatted ((text.toList.map C.Item.plain ++ [C.Item.byte 10]).flatMap C.Item.bytes) =
    some (printedBytes text)
  noConversion : C.percent ∉ Text.Utf8.encode text

theorem printsAsWritten {before : List Char} {text : String} (precision : Int)
    (reached : C.scan .code before = .code) (held : ∀ c ∈ text.toList, isStringChar c = true) :
    PrintsAsWritten before ((Line.printText text).text precision).toList text := by
  have stands : ∀ c ∈ text.toList, C.isLiteral c = true := fun c member =>
    (isStringChar_cases (held c member)).1
  have opened : C.scan .code "printf(\"".toList = .literal := by decide
  refine ⟨?_, ?_, reached, ?_, ?_, C.literal?_line stands ");".toList, ?_, ?_⟩
  · rw [Line.text, framed_toList]
  · exact (Line.printText text).newline_not_mem precision held
  · intro part ahead
    rw [C.scan_append, reached, C.scan_append, opened]
    exact C.scan_literal fun c member => stands c (ahead.subset member)
  · rw [C.scan_append, reached, C.scan_append, opened, C.scan_append, C.scan_literal stands]
    decide
  · rw [bytes_line, formatted_line held]
  · intro member
    rw [C.encode_eq_flatMap] at member
    obtain ⟨c, inside, byte⟩ := List.mem_flatMap.1 member
    obtain ⟨-, printable, sign⟩ := isStringChar_cases (held c inside)
    exact (C.utf8EncodeChar_plain printable sign _ byte).2 rfl

/-- The lines of a program that print literals print the strings of the source, in their order, and each
of them as it is written. -/
theorem strings_printed (compiled : compile options file source = .ok result) :
    let tokens := (Scanner.start file source).drain.tokens
    let lines := Text.lines result.output.text.toList
    lines.filterMap C.printed? = (quoted tokens).map (fun token => printedBytes token.text) ∧
    ∀ front token back, tokens = front ++ token :: back → token.kind = .string →
      ∃ before line after, lines = before ++ line :: after ∧ after ≠ [] ∧
        before.filterMap C.printed? = (quoted front).map (fun token => printedBytes token.text) ∧
        PrintsAsWritten (Text.unlines before) line token.text := by
  intro tokens lines
  obtain ⟨code, reads, cut, well⟩ := exists_lines_of_compile compiled
  have strings := (code.programRows_strings options.lineComments).trans reads.quoted.symm
  constructor
  · have last : [([] : List Char)].filterMap C.printed? = [] := by decide
    show (Text.lines result.output.text.toList).filterMap C.printed? = _
    rw [cut, List.filterMap_append, filterMap_printed? options.precision well, strings, last,
      List.append_nil, List.map_map]
    rfl
  · intro front token back split kind
    rw [show (Scanner.start file source).drain.tokens = _ from split] at strings
    obtain ⟨earlier, later, rows, before⟩ := exists_row_of_quoted strings kind
    rw [rows] at well cut
    obtain ⟨wellBefore, wellBehind⟩ := List.forall_mem_append.1 well
    refine ⟨headLines ++ earlier.map (Row.text options.precision),
      ((Line.printText token.text).text options.precision).toList,
      later.map (Row.text options.precision) ++ [[]], ?_, by simp, ?_, ?_⟩
    · show Text.lines result.output.text.toList = _
      rw [cut, List.map_append, List.map_cons]
      simp only [List.append_assoc, List.cons_append]
      rfl
    · rw [filterMap_printed? options.precision wellBefore, before, List.map_map]
      rfl
    · refine printsAsWritten options.precision (scan_program options.precision wellBefore) ?_
      exact (List.forall_mem_cons.1 wellBehind).1

/-- A string that looks like a comment, a character constant and a trigraph, before an empty one. -/
theorem strings_printed_lookalikes :
    let text := "/* don\x27t ??/ é"
    let source := "PRINT \"" ++ text ++ "\"\nINPUT n\nIF n > 0 THEN\nPRINT n\nPRINT \"\"\nENDIF"
    ∃ result before line after, compile ⟨2, true⟩ "demo" source = .ok result ∧
      (Text.lines result.output.text.toList).filterMap C.printed? =
        [Text.Utf8.encode (text ++ "\n"), [10]] ∧
      Text.lines result.output.text.toList = before ++ line :: after ∧
      PrintsAsWritten (Text.unlines before) line text := by
  intro text source
  obtain ⟨result, compiled, -⟩ := @compile_ok_of_any ⟨2, true⟩ "demo" source
    (fun _ => true) (by decide +kernel)
  have texts : (quoted (Scanner.start "demo" source).drain.tokens).map (·.text) = [text, ""] := by
    decide +kernel
  obtain ⟨printed, each⟩ := strings_printed compiled
  obtain ⟨token, rest, listed, same, -⟩ := List.map_eq_cons_iff.1 texts
  obtain ⟨member, kind⟩ := List.mem_filter.1 (listed ▸ List.mem_cons_self : token ∈ quoted _)
  obtain ⟨front, back, split⟩ := List.append_of_mem member
  obtain ⟨before, line, after, cut, -, -, prints⟩ := each front token back split (by simpa using kind)
  rw [same] at prints
  refine ⟨result, before, line, after, compiled, ?_, cut, prints⟩
  calc _ = _ := printed
    _ = ((quoted (Scanner.start "demo" source).drain.tokens).map (·.text)).map printedBytes := by
      rw [List.map_map]
      rfl
    _ = _ := by
      rw [texts]
      rfl

end LineBasic
