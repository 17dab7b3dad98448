import LineBasic.Proofs.Syntax.Lines
import LineBasic.Proofs.Translation.Program

/-!
# Translation loses nothing but the layout

Two sources have one C program exactly if they have the same words, when empty lines, blanks and comments
are left out of account (`compile_eq_iff_same_words`).
-/

namespace LineBasic

set_option autoImplicit false

open Syntax

/-- The program of a source, and the words that it goes back to. -/
theorem exists_words_of_compile {precision : Int} {file source : String} {result : Compiled}
    (compiled : compile ⟨precision, false⟩ file source = .ok result) :
    ∃ code : Code, withoutLayout (Scanner.start file source).drain.tokens = code.words ++ [.eof] ∧
      (∀ line ∈ code.programLines, line.WellSpelled) ∧
      result.output.text = prologue ++ linesText precision code.programLines := by
  obtain ⟨code, reads, header, body, -⟩ := exists_tree_of_compile compiled
  have spelled : AllSpelled (Scanner.start file source).drain.tokens := Scanner.stream_spelled _
  refine ⟨code, reads.withoutLayout spelled,
    Code.programLines_wellSpelled (reads.wellSpelled spelled), ?_⟩
  show result.output.header.text ++ result.output.body.text = _
  rw [header, body]
  exact code.program_text rfl

/-- Sources have one C program exactly if they have the same words up to the layout. -/
theorem compile_eq_iff_same_words {precision : Int} {file file' source source' : String}
    {result result' : Compiled} (compiled : compile ⟨precision, false⟩ file source = .ok result)
    (compiled' : compile ⟨precision, false⟩ file' source' = .ok result') :
    result.output.text = result'.output.text ↔
      withoutLayout (Scanner.start file source).drain.tokens =
        withoutLayout (Scanner.start file' source').drain.tokens := by
  obtain ⟨code, words, well, text⟩ := exists_words_of_compile compiled
  obtain ⟨code', words', well', text'⟩ := exists_words_of_compile compiled'
  calc result.output.text = result'.output.text
    _ ↔ linesText precision code.programLines = linesText precision code'.programLines := by
      rw [text, text', String.append_right_inj]
    _ ↔ code.programLines = code'.programLines := ⟨linesText_injective well well', congrArg _⟩
    _ ↔ code.bare = code'.bare := Code.programLines_eq_iff
    _ ↔ code.words = code'.words := Code.words_eq_iff.symm
    _ ↔ _ := by rw [words, words', List.append_left_inj]

/-- Blanks, comments and empty lines make no difference, a sign does. -/
theorem compile_eq_iff_same_words_signed :
    ∃ plain spaced unsigned,
      compile ⟨2, false⟩ "plain" "LET x=-1\nPRINT x" = .ok plain ∧
      compile ⟨2, false⟩ "spaced" "\n#\nLET x = - 1\n\n PRINT x#\n" = .ok spaced ∧
      compile ⟨2, false⟩ "unsigned" "LET x=1\nPRINT x" = .ok unsigned ∧
      plain.output.text = spaced.output.text ∧ plain.output.text ≠ unsigned.output.text := by
  have compiles {file source : String}
      (ok : (compile ⟨2, false⟩ file source).toOption.isSome = true) :
      ∃ result, compile ⟨2, false⟩ file source = .ok result := by
    cases compiled : compile ⟨2, false⟩ file source with
    | error fault => rw [compiled] at ok; cases ok
    | ok result => exact ⟨result, rfl⟩
  obtain ⟨plain, first⟩ := @compiles "plain" "LET x=-1\nPRINT x" (by decide +kernel)
  obtain ⟨spaced, second⟩ := @compiles "spaced" "\n#\nLET x = - 1\n\n PRINT x#\n" (by decide +kernel)
  obtain ⟨unsigned, third⟩ := @compiles "unsigned" "LET x=1\nPRINT x" (by decide +kernel)
  refine ⟨plain, spaced, unsigned, first, second, third, ?_, ?_⟩
  · exact (compile_eq_iff_same_words first second).2 (by decide +kernel)
  · exact mt (compile_eq_iff_same_words first third).1 (by decide +kernel)

end LineBasic
