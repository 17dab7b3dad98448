import LineBasic.Proofs.Pass.Independence
import LineBasic.Proofs.Syntax.Rows
import LineBasic.Proofs.Translation.Program

/-!
# What the options change

The options change the layout of a body and nothing else. Whether a source compiles, the diagnostic if it
does not, and the header, the names and the figures if it does are the same under all options. The
bodies can be made of one another: another number of decimal places by replacing formats, a body without
comments by deleting them (`options_change_layout`).
-/

namespace LineBasic

set_option autoImplicit false

open Syntax

variable {options options' : Options} {file source : String} {result result' : Compiled}

def Compiled.bodyText (result : Compiled) : List Char := result.output.body.text.toList

/-- The tree of a source that compiles, with what its body needs to be taken apart. -/
theorem exists_rows_of_compile (compiled : compile options file source = .ok result) :
    ∃ code : Code, code.ReadsProgram (Scanner.start file source).drain.tokens ∧
      result.bodyText = (code.text options ++ epilogue).toList ∧
      (∀ comments, ∀ row ∈ code.bodyRows comments, row.WellSpelled) ∧
      code.starts.Pairwise (· < ·) := by
  obtain ⟨code, reads, -, body, -⟩ := exists_tree_of_compile compiled
  obtain ⟨_, _, _, _, _, accepted⟩ := accepted_of_compile compiled
  obtain ⟨increase, positive⟩ := reads.starts_increase (Scanner.drain_lined accepted.whole)
  have well := reads.wellSpelled (Scanner.stream_spelled _)
  refine ⟨code, reads, congrArg String.toList body, ?_, increase⟩
  exact Code.bodyRows_wellSpelled well fun start member => Int.le_of_lt (positive start member)

/-- What a relation between the bodies of one tree says of compiling. -/
theorem map_bodyText {change : List Char → List Char}
    (changed : ∀ code : Code, (∀ comments, ∀ row ∈ code.bodyRows comments, row.WellSpelled) →
      change (code.text options ++ epilogue).toList = (code.text options' ++ epilogue).toList) :
    (compile options' file source).map Compiled.bodyText =
      (compile options file source).map fun result => change result.bodyText := by
  have same := compile_withoutBody options options' file source
  cases compiled : compile options file source with
  | error fault =>
    cases compiled' : compile options' file source with
    | error fault' =>
      rw [compiled, compiled'] at same
      cases same
      rfl
    | ok result' =>
      rw [compiled, compiled'] at same
      cases same
  | ok result =>
    cases compiled' : compile options' file source with
    | error fault' =>
      rw [compiled, compiled'] at same
      cases same
    | ok result' =>
      obtain ⟨code, reads, body, well, -⟩ := exists_rows_of_compile compiled
      obtain ⟨code', reads', body', -⟩ := exists_rows_of_compile compiled'
      obtain rfl := reads'.eq reads
      show Except.ok result'.bodyText = Except.ok (change result.bodyText)
      rw [body, body', changed _ well]

/-- Options change the layout of the body and nothing else, and they change it by replacing formats and
by comments that can be deleted again. -/
theorem options_change_layout (file source : String) :
    (∀ options options',
      (compile options file source).map Compiled.withoutBody =
        (compile options' file source).map Compiled.withoutBody) ∧
    (∀ precision precision' comments,
      (compile ⟨precision', comments⟩ file source).map Compiled.bodyText =
        (compile ⟨precision, comments⟩ file source).map fun result =>
          Text.replaceAll (placesFormat precision) (placesFormat precision') result.bodyText) ∧
    (∀ precision,
      (compile ⟨precision, false⟩ file source).map Compiled.bodyText =
        (compile ⟨precision, true⟩ file source).map fun result =>
          Text.deleteLines isLineComment result.bodyText) ∧
    ∀ precision result, compile ⟨precision, true⟩ file source = .ok result →
      let numbers := (starters (Scanner.start file source).drain.tokens).map (·.location.line)
      (Text.lines result.bodyText).filter isLineComment = numbers.map commentText ∧
        numbers.length = result.statements ∧ numbers.Pairwise (· < ·) := by
  refine ⟨fun options options' => compile_withoutBody options options' file source,
    fun precision precision' comments => ?_, fun precision => ?_, fun precision result compiled => ?_⟩
  · exact map_bodyText fun code well => code.body_precision precision precision' (well comments)
  · exact map_bodyText fun code well => code.body_delete precision (well true)
  · obtain ⟨code, reads, body, well, increase⟩ := exists_rows_of_compile compiled
    rw [reads.starts_eq, body]
    exact ⟨code.body_comments precision (well true), (statements_of_compile compiled reads).symm, increase⟩

/-- A text that looks like a format, an empty line, and a block with two statements in it. -/
theorem options_change_layout_block :
    let source := "LET x = 1\n\nIF x > 0 THEN\nPRINT \"line .2f\"\nPRINT x\nENDIF"
    ∃ commented plain,
      compile ⟨2, true⟩ "demo" source = .ok commented ∧
      compile ⟨2, false⟩ "demo" source = .ok plain ∧
      plain.bodyText = Text.deleteLines isLineComment commented.bodyText ∧
      (Text.lines commented.bodyText).filter isLineComment = [1, 3, 4, 5].map commentText ∧
      commented.statements = 4 ∧
      (compile ⟨-7, false⟩ "demo" source).map Compiled.bodyText =
        .ok (Text.replaceAll "%.2f".toList "%.-7f".toList plain.bodyText) := by
  intro source
  obtain ⟨commented, compiled, -⟩ := @compile_ok_of_any ⟨2, true⟩ "demo" source
    (fun _ => true) (by decide +kernel)
  obtain ⟨plain, compiledPlain, -⟩ := @compile_ok_of_any ⟨2, false⟩ "demo" source
    (fun _ => true) (by decide +kernel)
  obtain ⟨-, precision, comments, deleted⟩ := options_change_layout "demo" source
  have numbers : (starters (Scanner.start "demo" source).drain.tokens).map (·.location.line) =
      [1, 3, 4, 5] := by decide +kernel
  obtain ⟨lines, statements, -⟩ := deleted 2 commented compiled
  rw [numbers] at lines statements
  have without := comments 2
  rw [compiled, compiledPlain] at without
  refine ⟨commented, plain, compiled, compiledPlain, Except.ok.inj without, lines, statements.symm, ?_⟩
  rw [precision 2 (-7) false, compiledPlain]
  rfl

end LineBasic
