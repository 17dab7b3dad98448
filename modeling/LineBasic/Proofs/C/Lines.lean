import LineBasic.Proofs.C.Words
import LineBasic.Proofs.Syntax.Rows

/-!
# How C reads the lines of a program

Each line of a program is read from code to code: the quotes in it pair up, and no mark in an expression
opens a comment (`Row.scan_text`). Of the lines that call `printf` with a literal alone, each was written
for a string, and it prints the string and a newline (`Row.printed?_text`).
-/

namespace LineBasic

set_option autoImplicit false

open Lexeme (isStringChar)

/-! ## Lines of C leave a reader in code -/

theorem isStringChar_cases {c : Char} (held : isStringChar c = true) :
    C.isLiteral c = true ∧ 0x20 ≤ c.toNat ∧ c ≠ '%' := by
  simp only [isStringChar, Lexeme.isIllegalInString, Bool.not_eq_true', Bool.or_eq_false_iff,
    decide_eq_false_iff_not, beq_eq_false_iff_ne, Nat.not_lt] at held
  obtain ⟨quote, ⟨⟨printable, -⟩, backslash⟩, sign⟩ := held
  refine ⟨?_, printable, sign⟩
  have newline : c ≠ '\n' := by
    rintro rfl
    exact absurd printable (by decide)
  simp [C.isLiteral, quote, newline, backslash]

namespace Syntax

/-- An expression is all code, also behind a slash. -/
theorem textClass_code : TextClass fun text => C.AllCode .code text ∧ C.AllCode .slash text where
  leaf {primary} well := by
    obtain ⟨some, chars⟩ := well.chars
    obtain ⟨c, more, same⟩ := List.exists_cons_of_ne_nil some
    rw [same] at chars ⊢
    obtain ⟨first, later⟩ := List.forall_mem_cons.1 chars
    have rest : C.AllCode .code more := C.allCode_plain fun d member => (C.isCode_of_word (later d member)).1
    exact ⟨.cons (.inl rfl) (C.next_code (C.isCode_of_word first).1) rest,
      .cons (.inr rfl) (C.next_slash_of_word first) rest⟩
  signed sign text inner := by
    have mark : C.AllCode .code sign.operator.spelling.toList := by
      constructor <;> cases sign <;> decide
    have close : C.AllCode .code [')'] := ⟨by decide, by decide⟩
    have body := mark.append (inner.1.append close)
    exact ⟨.cons (.inl rfl) (by decide) body, .cons (.inr rfl) (by decide) body⟩
  joined op text more first second := by
    have same : C.codeOf .code op.spelling.toList = op.spelling.toList := by cases op <;> decide
    have leads : C.scan .code op.spelling.toList = .code ∨ C.scan .code op.spelling.toList = .slash := by
      cases op <;> decide
    have joined : C.AllCode .code (op.spelling.toList ++ more) := by
      rcases leads with code | slash
      · exact .behind code same second.1
      · exact .behind slash same second.2
    exact ⟨first.1.append joined, first.2.append joined⟩

theorem isLiteral_placesFormat (precision : Int) :
    ∀ c ∈ placesFormat precision, C.isLiteral c = true := by
  rw [placesFormat_eq]
  refine List.forall_mem_cons.2 ⟨by decide, List.forall_mem_cons.2 ⟨by decide, ?_⟩⟩
  refine List.forall_mem_append.2 ⟨fun c member => ?_, List.forall_mem_singleton.2 (by decide)⟩
  have apart {d : Char} (other : ¬ (d.isDigit = true ∨ d = '-')) : c ≠ d := Text.ne_of_mem_int member other
  simp [C.isLiteral, @apart '"' (by decide), @apart '\n' (by decide), @apart '\\' (by decide)]

theorem Letters.allCode {name : String} (letters : Letters name) : C.AllCode .code name.toList :=
  C.allCode_plain fun c member => (C.isCode_of_word (.inl (letters.2 c member))).1

theorem Line.scan_text (precision : Int) {line : Line} (well : line.WellSpelled) :
    C.scan .code (line.text precision).toList = .code := by
  have framed_scan {before inner after : String} (first : C.scan .code before.toList = .code)
      (second : C.scan .code inner.toList = .code) (third : C.scan .code after.toList = .code) :
      C.scan .code (framed before inner after).toList = .code := by
    rw [framed_toList, C.scan_append, first, C.scan_append, second, third]
  cases line with
  | printText text =>
    have held : C.scan .literal text.toList = .literal :=
      C.scan_literal fun c member => (isStringChar_cases (well c member)).1
    have opened : C.scan .code "printf(\"".toList = .literal := by decide
    rw [Line.text, framed_toList, C.scan_append, opened, C.scan_append, held]
    decide
  | print value =>
    have held := C.scan_literal (isLiteral_placesFormat precision)
    have opened : C.scan .code "printf(\"".toList = .literal := by decide
    have closed : C.scan .literal "\\n\", (float)(".toList = .code := by decide
    rw [print_toList, C.scan_append, opened, C.scan_append, held, C.scan_append, closed, C.scan_append,
      (textClass_code.expression well).1.ends]
    decide
  | label name => exact framed_scan (by decide) well.allCode.ends (by decide)
  | goto name => exact framed_scan (by decide) well.allCode.ends (by decide)
  | assign name value =>
    have target : C.scan .code (name ++ " = ").toList = .code := by
      rw [String.toList_append, C.scan_append, well.1.allCode.ends]
      decide
    exact framed_scan target (textClass_code.expression well.2).1.ends (by decide)
  | read name => exact framed_scan (by decide) well.allCode.ends (by decide)
  | discard => exact (by decide : C.scan .code "scanf(\"%*s\");".toList = .code)
  | opens block condition =>
    exact framed_scan (by cases block <;> decide) (textClass_code.condition well).1.ends (by decide)
  | close => exact (by decide : C.scan .code "\x7d".toList = .code)
  | leave => exact (by decide : C.scan .code "return 0;".toList = .code)
  | declare name => exact framed_scan (by decide) well.allCode.ends (by decide)

theorem Row.scan_text (precision : Int) {row : Row} (well : row.WellSpelled) :
    C.scan .code (row.text precision) = .code := by
  cases row with
  | comment number =>
    have opened : C.scan .code "/* line ".toList = .comment := by decide
    have inside : C.scan .comment (toString number).toList = .comment := by
      refine C.scan_comment fun c member => ?_
      exact ⟨Text.ne_of_mem_int member (by decide), Text.ne_of_mem_int member (by decide)⟩
    rw [text, commentText_eq, C.scan_append, opened, C.scan_append, inside]
    decide
  | plain line => exact line.scan_text precision well

/-! ## Lines that print a string -/

def Line.string? : Line → Option String
  | .printText text => some text
  | _ => none

def Row.string? (row : Row) : Option String := row.line?.bind Line.string?

end Syntax

/-- What is printed for a string. -/
def printedBytes (text : String) : List UInt8 := Text.Utf8.encode (text ++ "\n")

theorem bytes_line (text : String) :
    (text.toList.map C.Item.plain ++ [C.Item.byte 10]).flatMap C.Item.bytes = printedBytes text := by
  rw [printedBytes, C.encode_eq_flatMap, String.toList_append, List.flatMap_append, List.flatMap_append,
    List.flatMap_map]
  rfl

theorem formatted_line {text : String} (held : ∀ c ∈ text.toList, isStringChar c = true) :
    C.formatted (printedBytes text) = some (printedBytes text) := by
  have newline : "\n".toList.flatMap String.utf8EncodeChar = [10] := rfl
  refine C.formatted_plain ?_
  rw [printedBytes, C.encode_eq_flatMap, String.toList_append, List.flatMap_append, newline]
  refine List.forall_mem_append.2
    ⟨fun byte member => ?_, List.forall_mem_singleton.2 ⟨by decide, by decide⟩⟩
  obtain ⟨c, inside, member⟩ := List.mem_flatMap.1 member
  obtain ⟨-, printable, sign⟩ := isStringChar_cases (held c inside)
  exact C.utf8EncodeChar_plain printable sign byte member

namespace Syntax

/-- A call of `printf` begins two kinds of lines. -/
theorem shapeOf_call {text : List Char} (called : "printf(\"".toList <+: text) :
    shapeOf text = .print ∨ shapeOf text = .printText := by
  obtain ⟨rest, rfl⟩ := called
  have cut : "printf(\"".toList ++ rest = "printf".toList ++ '(' :: '"' :: rest := rfl
  rw [cut, shapeOf_append (by decide) (by decide)]
  simp only [shapeAfter]
  by_cases sign : rest.head? = some '%'
  · simp [sign]
  · simp [sign]

theorem Line.printed?_text (precision : Int) {line : Line} (well : line.WellSpelled) :
    C.printed? (line.text precision).toList = line.string?.map printedBytes := by
  have silent (print : line.shape ≠ .print) (printText : line.shape ≠ .printText) :
      C.printed? (line.text precision).toList = none := by
    refine if_neg fun called => ?_
    have shape := shapeOf_call (List.isPrefixOf_iff_prefix.1 called)
    rw [shapeOf_text precision well] at shape
    rcases shape with same | same
    · exact print same
    · exact printText same
  cases line with
  | printText text =>
    have cut : ((Line.printText text).text precision).toList =
        "printf(\"".toList ++ (text.toList ++ '\\' :: 'n' :: '"' :: ");".toList) := by
      rw [Line.text, framed_toList]
      rfl
    have stands : ∀ c ∈ text.toList, C.isLiteral c = true := fun c member =>
      (isStringChar_cases (well c member)).1
    rw [cut, C.printed?_literal stands, if_pos rfl, bytes_line, formatted_line well]
    rfl
  | print value =>
    have cut : ((Line.print value).text precision).toList =
        "printf(\"".toList ++ (placesFormat precision ++ '\\' :: 'n' :: '"' ::
          (", (float)(".toList ++ (value.text.toList ++ "));".toList))) := by
      rw [print_toList]
      rfl
    rw [cut, C.printed?_literal (isLiteral_placesFormat precision), if_neg (by simp)]
    rfl
  | _ => exact silent (by simp [shape]) (by simp [shape])

theorem Row.printed?_text (precision : Int) {row : Row} (well : row.WellSpelled) :
    C.printed? (row.text precision) = row.string?.map printedBytes := by
  cases row with
  | comment number =>
    rw [text, commentText_eq]
    rfl
  | plain line => exact line.printed?_text precision well

end Syntax

end LineBasic
