import LineBasic.Proofs.Concat.Program
import LineBasic.Proofs.Token.Returns

/-!
# Line ends do not matter

A source with a carriage return before every newline has the tokens of the source without them, on the same
lines. The grammar sees the kinds of the tokens and the rules of names their texts; what is written depends on
the tree, which knows the lines but not the columns. So both sources compile or neither does, and what is
written for them and counted in them is the same (`compile_with_returns`). The argument is about any two sources that
are alike, also where only some newlines have a carriage return before them.
-/

namespace LineBasic

set_option autoImplicit false

open Grammar Syntax

theorem relocates_lined : Relocates Token.lined id := ⟨fun _ => rfl, fun _ => rfl, fun _ => rfl⟩

/-- Two compiled sources have the same texts, names and figures. -/
structure Compiled.Matches (one other : Compiled) : Prop where
  output : other.output.text = one.output.text
  header : other.output.header.text = one.output.header.text
  body : other.output.body.text = one.output.body.text
  vars : other.vars = one.vars
  labels : other.labels = one.labels
  tokens : other.tokens = one.tokens
  statements : other.statements = one.statements

variable {options : Options} {file source source' : String} {result result' : Compiled}

/-- Of two sources that are alike, the second compiles if the first does. -/
theorem exists_compile_of_alike (alike : Alike source.toList source'.toList)
    (compiled : compile options file source = .ok result) :
    ∃ result', compile options file source' = .ok result' := by
  obtain ⟨same, faults⟩ := Scanner.stream_abreast _ _ (Scanner.start_abreast alike file)
  obtain ⟨-, _, -, -, -, accepted⟩ := accepted_of_compile compiled
  rw [accepted.whole, Option.isSome_none, Option.isSome_eq_false_iff, Option.isNone_iff_eq_none] at faults
  have kinds : (Scanner.start file source').stream.tokens.map (·.kind) =
      (Scanner.start file source).stream.tokens.map (·.kind) := by
    have := congrArg (List.map (·.kind)) same
    rwa [List.map_map, List.map_map] at this
  refine exists_compile_of_wellNamed faults ?_ ?_
  · rw [kinds]
    exact (derives_iff_run _).2 ⟨[], accepted.leads⟩
  · rw [← wellNamed_map relocates_lined, same, wellNamed_map relocates_lined]
    exact wellNamed_of_compile compiled

/-- What is written for two sources that are alike, and counted in them, is the same. -/
theorem matches_of_alike (alike : Alike source.toList source'.toList)
    (compiled : compile options file source = .ok result)
    (compiled' : compile options file source' = .ok result') : result.Matches result' := by
  have same := (Scanner.stream_abreast _ _ (Scanner.start_abreast alike file)).1
  obtain ⟨code, reads, header, body, vars⟩ := exists_tree_of_compile compiled
  obtain ⟨code', reads', header', body', vars'⟩ := exists_tree_of_compile compiled'
  have statements := statements_of_compile compiled reads
  have statements' := statements_of_compile compiled' reads'
  -- Both trees are the tree of the tokens without their columns.
  have lined := reads.relocated relocates_lined
  have lined' := reads'.relocated relocates_lined
  rw [Code.relined_id] at lined lined'
  obtain rfl : code' = code := (same ▸ lined').eq lined
  have labels := congrArg (fun tokens => (inRole .label tokens).map (·.text)) same
  simp only [texts_inRole_map relocates_lined] at labels
  have length := congrArg List.length same
  rw [List.length_map, List.length_map] at length
  have headers := header'.trans header.symm
  have bodies := body'.trans body.symm
  refine ⟨?_, headers, bodies, vars'.trans vars.symm, ?_, ?_, statements'.trans statements.symm⟩
  · rw [Output.text, Output.text, headers, bodies]
  · exact (labels_of_compile compiled').trans (labels.trans (labels_of_compile compiled).symm)
  · have counted := tokens_of_compile compiled
    have counted' := tokens_of_compile compiled'
    exact Nat.succ_injective (counted'.trans (length.trans counted.symm))

/-- A carriage return before every newline. -/
def withReturns (source : String) : String :=
  .ofList (Text.replaceAll ['\n'] ['\r', '\n'] source.toList)

theorem alike_withReturns (source : String) : Alike source.toList (withReturns source).toList := by
  rw [withReturns, String.toList_ofList]
  exact alike_replaceAll source.toList

/-- With a carriage return before every newline, a source compiles just when it does without them, and the same
is written and counted. -/
theorem compile_with_returns (options : Options) (file source : String) :
    ((∃ result, compile options file source = .ok result) ↔
      ∃ result, compile options file (withReturns source) = .ok result) ∧
    ∀ result result', compile options file source = .ok result →
      compile options file (withReturns source) = .ok result' → result.Matches result' := by
  have alike := alike_withReturns source
  refine ⟨⟨?_, ?_⟩, ?_⟩
  · rintro ⟨result, compiled⟩
    exact exists_compile_of_alike alike compiled
  · rintro ⟨result, compiled⟩
    exact exists_compile_of_alike alike.symm compiled
  · intro result result' compiled compiled'
    exact matches_of_alike alike compiled compiled'

/-- Comments at line ends, a quoted text that ends its line, carriage returns already there (before a newline,
between two tokens, in a comment and at the end), and line comments on. -/
theorem compile_with_returns_stray :
    let source := "# head\r\nINPUT n\r # read\n\nLABEL\rtop\nWHILE n > 0.5 REPEAT # a \r b\r\r\n" ++
      "PRINT \"# n\"\nLET n = n - 1\nENDWHILE\nIF n < 0 THEN\nGOTO top\r\nENDIF # end\r"
    ∃ result result', compile ⟨3, true⟩ "demo" source = .ok result ∧
      compile ⟨3, true⟩ "demo" (withReturns source) = .ok result' ∧
      withReturns source ≠ source ∧ result.Matches result' ∧
      result'.vars = ["n"] ∧ result'.labels = ["top"] ∧ result'.statements = 7 := by
  intro source
  obtain ⟨result, compiled, figures⟩ := @compile_ok_of_any ⟨3, true⟩ "demo" source
    (fun result => result.vars = ["n"] ∧ result.labels = ["top"] ∧ result.statements = 7) (by decide +kernel)
  obtain ⟨vars, labels, statements⟩ := of_decide_eq_true figures
  obtain ⟨both, same⟩ := compile_with_returns ⟨3, true⟩ "demo" source
  obtain ⟨result', compiled'⟩ := both.1 ⟨result, compiled⟩
  have shown := same result result' compiled compiled'
  exact ⟨result, result', compiled, compiled', by decide +kernel, shown, shown.vars.trans vars,
    shown.labels.trans labels, shown.statements.trans statements⟩

end LineBasic
