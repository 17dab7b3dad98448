import LineBasic.Proofs.Concat.Scan
import LineBasic.Proofs.Text.Utf8
import LineBasic.Proofs.Translation.Program

/-!
# A translation is no source

Every C program that is written begins with the same two lines. The first one reads as a comment, but the
second one cannot be scanned. So the bytes of a translation stand for a text that does not compile
(`compile_translation`): nothing is ever translated into itself.
-/

namespace LineBasic

set_option autoImplicit false

open Syntax

namespace Scanner

theorem next_of_cursor {sc sc' t : Scanner} {token : Token} (step : next sc = .ok token t)
    (same : sc'.cursor = sc.cursor) :
    ∃ token' t', next sc' = .ok token' t' ∧ token'.kind = token.kind ∧ t'.cursor = t.cursor := by
  obtain ⟨lexeme, found, rfl, rfl⟩ := next_ok step
  rw [← same] at found ⊢
  exact ⟨_, _, next_of_read found, rfl, rfl⟩

/-- Whether a text can be scanned does not depend on the file it is from. -/
theorem fault_isSome_of_cursor (sc : Scanner) :
    ∀ sc' : Scanner, sc'.cursor = sc.cursor → sc'.stream.fault.isSome = sc.stream.fault.isSome := by
  fun_induction drain sc with
  | case1 sc fault t failed =>
    intro sc' same
    obtain ⟨misread, found, -, -⟩ := next_error failed
    rw [← same] at found
    rw [stream_of_error failed, stream_of_error (next_of_misread found)]
    rfl
  | case2 sc token t step isEnd =>
    intro sc' same
    obtain ⟨token', t', step', kind, -⟩ := next_of_cursor step same
    rw [stream_of_ok step, stream_of_ok step', Stream.cons_of_end isEnd,
      Stream.cons_of_end (kind.trans isEnd)]
  | case3 sc token t step more later ih =>
    intro sc' same
    obtain ⟨token', t', step', kind, cursor⟩ := next_of_cursor step same
    rw [stream_of_ok step, stream_of_ok step', Stream.cons_of_more more,
      Stream.cons_of_more (by rwa [kind])]
    exact ih t' cursor

/-- A text that begins as a C program does cannot be scanned. -/
theorem fault_of_prologue (file rest : String) :
    (start file (prologue ++ rest)).stream.fault ≠ none := by
  have head : (start "" "#include <stdio.h>\nint main(void)\x7b").stream.fault.isSome = true := by
    decide +kernel
  have same := fault_isSome_of_cursor (start "" "#include <stdio.h>\nint main(void)\x7b")
    (start file "#include <stdio.h>\nint main(void)\x7b") rfl
  obtain ⟨fault, found⟩ := Option.isSome_iff_exists.1 (same.trans head)
  have cut : prologue ++ rest = "#include <stdio.h>\nint main(void)\x7b" ++ "\n" ++ rest := rfl
  rw [cut, stream_join, Stream.append_of_fault found, found]
  exact Option.some_ne_none _

end Scanner

/-- No text that is read from the bytes of a translation compiles. -/
theorem compile_translation {options others : Options} {file name source text : String} {result : Compiled}
    (compiled : compile options file source = .ok result)
    (read : decodeSource result.output.bytes = .ok text) (again : Compiled) :
    compile others name text ≠ .ok again := by
  intro twice
  obtain ⟨code, -, header, -, -⟩ := exists_tree_of_compile compiled
  obtain ⟨_, t, -, -, -, accepted⟩ := accepted_of_compile twice
  -- The first two lines have no carriage return, so they are read as they were written.
  have begins : ∃ rest, text = prologue ++ rest := by
    have written : result.output.text.toList =
        prologue.toList ++ (declarations code.targets.eraseDups ++ result.output.body.text).toList := by
      rw [← String.toList_append, ← String.append_assoc, ← header]
      rfl
    rw [Output.bytes, decodeSource_encode, written,
      Text.unifyLineEnds_append (by decide)] at read
    exact ⟨_, by rw [← Except.ok.inj read, String.ofList_append, String.ofList_toList]⟩
  obtain ⟨rest, rfl⟩ := begins
  exact Scanner.fault_of_prologue name rest accepted.whole

end LineBasic
