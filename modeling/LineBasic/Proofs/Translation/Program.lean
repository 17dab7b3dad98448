import LineBasic.Proofs.Diagnosis.Program
import LineBasic.Proofs.Pass.Closure
import LineBasic.Proofs.Syntax.Names
import LineBasic.Proofs.Syntax.Unique
import LineBasic.Proofs.Translation.Statement

/-!
# The C program of a source

The one pass over a source writes what two passes over its tree would write: a header that declares the
variables in the order in which they are first set, and a body with the statements in the order of the
source (`compile_writes_tree`).
-/

namespace LineBasic

set_option autoImplicit false

open Syntax

namespace Pass

variable {s t : State}

/-! ## The body -/

theorem statementRound_none {a : Unit} (done : statementRound a s = .ok none t) :
    t = s ∧ s.current.kind = .eof := by
  unfold statementRound at done
  obtain ⟨seen, r, got, done⟩ := bind_ok done
  cases got
  split at done
  · cases done
    exact ⟨rfl, ‹_›⟩
  · obtain ⟨_, r, _, done⟩ := bind_ok done
    cases done

theorem statementRound_some {a b : Unit} (done : statementRound a s = .ok (some b) t) :
    statement s = .ok () t := by
  unfold statementRound at done
  obtain ⟨seen, r, got, done⟩ := bind_ok done
  cases got
  split at done
  · cases done
  · obtain ⟨_, r, read, done⟩ := bind_ok done
    cases done
    exact read

theorem statements_read (spelled : s.Spelled)
    (done : iterate statementRound shrinking_statementRound () s = .ok () t) :
    t.current.kind = .eof ∧ ∃ tokens code, Translated tokens code s t := by
  fun_induction iterate statementRound shrinking_statementRound () s with
  | case1 a s r round =>
    cases done
    obtain ⟨rfl, ended⟩ := statementRound_none round
    exact ⟨ended, [], .done, .refl _, .done, rfl⟩
  | case2 a s b r round ih =>
    obtain ⟨tokens, code, first⟩ := statement_reads spelled (statementRound_some round)
    obtain ⟨ended, later, next, rest⟩ := ih (first.spelled spelled) done
    exact ⟨ended, _, _, first.append rest⟩
  | case3 => cases done

theorem checkLabels_ok (done : checkLabels s = .ok () t) : t = s := by
  unfold checkLabels at done
  obtain ⟨seen, r, got, done⟩ := bind_ok done
  cases got
  cases found : s.undefinedJump? with
  | none =>
    simp only [found] at done
    cases done
    rfl
  | some jump =>
    simp only [found] at done
    cases done

/-- A whole pass, cut where the statements begin and end. -/
theorem program_cases (done : program s = .ok () t) :
    ∃ q r u, q = { s with output :=
          (s.output.addHeaderLine "#include <stdio.h>").addHeaderLine "int main(void)\x7b" } ∧
      skipNewlines q = .ok () r ∧
      iterate statementRound shrinking_statementRound () r = .ok () u ∧
      t = { u with output := (u.output.addBodyLine "return 0;").addBodyLine "\x7d" } := by
  unfold program at done
  obtain ⟨_, p, first, done⟩ := bind_ok done
  cases first
  obtain ⟨_, q, second, done⟩ := bind_ok done
  cases second
  obtain ⟨_, r, skipped, done⟩ := bind_ok done
  obtain ⟨_, u, read, done⟩ := bind_ok done
  obtain ⟨_, v, returned, done⟩ := bind_ok done
  cases returned
  obtain ⟨_, w, closed, done⟩ := bind_ok done
  cases closed
  exact ⟨_, r, u, rfl, skipped, read, checkLabels_ok done⟩

theorem program_reads (spelled : s.Spelled) (done : program s = .ok () t) :
    ∃ code : Code, code.ReadsProgram s.stream.tokens ∧
      t.output.body.text = s.output.body.text ++ code.text s.options ++ epilogue ∧
      t.statements = s.statements + code.starts.length := by
  obtain ⟨q, r, u, rfl, skipped, read, rfl⟩ := program_cases done
  obtain ⟨blank, blanks, turned⟩ := skipNewlines_reads skipped
  obtain ⟨ended, tokens, code, translated⟩ := statements_read (turned.spelled spelled) read
  have whole := turned.toEmitted.trans translated.toEmitted
  have stream := whole.stream
  rw [State.stream_at_end ended] at stream
  refine ⟨code, ?_, ?_, ?_⟩
  · have program := Code.ReadsProgram.mk blanks translated.reads ended
    exact stream ▸ program
  · have body := whole.body
    rw [String.empty_append, turned.options] at body
    show u.output.body.text ++ ("return 0;" ++ "\n") ++ ("\x7d" ++ "\n") = _
    rw [body, String.append_assoc]
    rfl
  · exact translated.counted.trans (by rw [turned.statements])

/-! ## The header -/

/-- The header declares the variables in the order in which they were entered. -/
def State.Declares (s : State) : Prop :=
  s.output.header.text = prologue ++ declarations s.vars.names

theorem lasting_declares : Lasting fun s t => s.Declares → t.Declares where
  refl _ := id
  trans first second := second ∘ first
  moves s declared := by
    unfold after advance
    split
    · rename_i moved
      split at moved <;> cases moved
      exact declared
    · rename_i moved
      split at moved <;> cases moved
      exact declared
  writes _ _ := id
  counts _ := id
  labels _ _ := id
  jumps _ := id
  declares := by
    intro r s earlier _ _ fresh declared
    show s.output.header.text ++ (s!"float {r.current.text};" ++ "\n") = prologue ++ declarations _
    rw [earlier declared, NameTable.names_note_of_fresh fresh, declarations_append, String.append_assoc]
    simp only [declarations, line, String.append_empty]

theorem program_declares (header : s.output.header.text = "") (vars : s.vars = .empty)
    (done : program s = .ok () t) : t.Declares := by
  obtain ⟨q, r, u, begun, skipped, read, rfl⟩ := program_cases done
  have declared : q.Declares := by
    subst begun
    show s.output.header.text ++ ("#include <stdio.h>" ++ "\n") ++ ("int main(void)\x7b" ++ "\n") =
      prologue ++ declarations s.vars.names
    rw [header, vars]
    rfl
  have started := within_ok (lasting_declares.within_skipNewlines q) skipped declared
  have ended := within_ok (lasting_declares.within_statements r) read started
  exact ended

end Pass

/-! ## The whole program -/

theorem eraseDups_of_nodup {names : List String} (distinct : names.Nodup) : names.eraseDups = names := by
  induction names with
  | nil => rfl
  | cons name names ih =>
    obtain ⟨fresh, rest⟩ := List.nodup_cons.1 distinct
    have kept : names.filter (fun other => !other == name) = names := by
      apply List.filter_eq_self.2
      intro other member
      have : other ≠ name := fun same => fresh (same ▸ member)
      simpa using this
    rw [List.eraseDups_cons, kept, ih rest]

theorem start_output {options : Options} {file source : String} {s : Pass.State}
    (started : Pass.start options file source = .ok s) :
    s.output = .empty ∧ s.vars = .empty ∧ s.options = options ∧ s.statements = 0 := by
  unfold Pass.start at started
  split at started
  · cases started
  · split at started <;> cases started
    exact ⟨rfl, rfl, rfl, rfl⟩

theorem start_spelled {options : Options} {file source : String} {s : Pass.State}
    (started : Pass.start options file source = .ok s) : s.Spelled := by
  unfold Pass.State.Spelled
  rw [(Pass.stream_start started).1]
  exact Scanner.stream_spelled _

variable {options : Options} {file source : String} {result : Compiled}

theorem compile_ok_of_any {holds : Compiled → Bool}
    (computed : (compile options file source).toOption.any holds = true) :
    ∃ result, compile options file source = .ok result ∧ holds result = true := by
  cases compiled : compile options file source with
  | error fault =>
    rw [compiled] at computed
    cases computed
  | ok result =>
    rw [compiled] at computed
    exact ⟨result, rfl, computed⟩

/-- The tree of a source that compiles, and what is written for it. -/
theorem exists_tree_of_compile (compiled : compile options file source = .ok result) :
    ∃ code : Code, code.ReadsProgram (Scanner.start file source).drain.tokens ∧
      result.output.header.text = prologue ++ declarations code.targets.eraseDups ∧
      result.output.body.text = code.text options ++ epilogue ∧
      result.vars = code.targets.eraseDups := by
  obtain ⟨s, t, started, done, rfl, accepted⟩ := accepted_of_compile compiled
  obtain ⟨stream, -⟩ := Pass.stream_start started
  obtain ⟨output, vars, settings, -⟩ := start_output started
  obtain ⟨code, reads, body, -⟩ := Pass.program_reads (start_spelled started) done
  rw [stream] at reads
  have declares := Pass.program_declares (by rw [output]; rfl) vars done
  have targets : t.vars.names = code.targets.eraseDups := by
    rw [accepted.vars, NameTable.names_ofTokens]
    exact congrArg _ reads.names.targets
  refine ⟨code, reads, ?_, ?_, targets⟩
  · exact declares.trans (by rw [targets])
  · show t.output.body.text = _
    rw [body, output, settings]
    exact congrArg (· ++ epilogue) String.empty_append

/-- The statements of a compiled program are those of its tree. -/
theorem statements_of_compile (compiled : compile options file source = .ok result) {code : Code}
    (reads : code.ReadsProgram (Scanner.start file source).drain.tokens) :
    result.statements = code.starts.length := by
  obtain ⟨s, t, started, done, rfl, -⟩ := accepted_of_compile compiled
  obtain ⟨stream, -⟩ := Pass.stream_start started
  obtain ⟨-, -, -, none⟩ := start_output started
  obtain ⟨tree, again, -, counted⟩ := Pass.program_reads (start_spelled started) done
  rw [stream] at again
  rw [none, Nat.zero_add, again.eq reads] at counted
  exact counted

/-- The compiled program is that of the tree of the source, which is the only tree of its tokens. -/
theorem compile_writes_tree (compiled : compile options file source = .ok result) :
    ∃ code : Code, code.ReadsProgram (Scanner.start file source).drain.tokens ∧
      (∀ other : Code, other.ReadsProgram (Scanner.start file source).drain.tokens → other = code) ∧
      result.output.header.text = prologue ++ declarations code.targets.eraseDups ∧
      result.output.body.text = code.text options ++ epilogue ∧
      result.output.text = result.output.header.text ++ result.output.body.text ∧
      result.vars = code.targets.eraseDups ∧
      result.labels = code.labels := by
  obtain ⟨code, reads, header, body, targets⟩ := exists_tree_of_compile compiled
  refine ⟨code, reads, fun other again => again.eq reads, header, body, rfl, targets, ?_⟩
  obtain ⟨s, t, -, -, rfl, accepted⟩ := accepted_of_compile compiled
  have once := ((clean_iff _).1 accepted.clean).2.1
  show t.labels.names = code.labels
  rw [accepted.labels, labelsOf, NameTable.names_ofTokens, eraseDups_of_nodup once]
  exact reads.names.labels

/-- A variable that is first set inside a loop is declared before it. -/
theorem compile_writes_tree_loop :
    let source :=
      "INPUT n\nLABEL top\nWHILE n > -1 REPEAT\nLET m = n*2\nPRINT m\nLET n = n-1\nENDWHILE\nGOTO top"
    ∃ result, ∃ code : Code,
      compile ⟨3, true⟩ "loop" source = .ok result ∧
      code.ReadsProgram (Scanner.start "loop" source).drain.tokens ∧
      result.output.text =
        prologue ++ declarations ["n", "m"] ++ (code.text ⟨3, true⟩ ++ epilogue) ∧
      code.targets.eraseDups = ["n", "m"] ∧ code.labels = ["top"] := by
  intro source
  have computed : ((compile ⟨3, true⟩ "loop" source).toOption.any fun result =>
      decide (result.vars = ["n", "m"] ∧ result.labels = ["top"])) = true := by
    decide +kernel
  cases compiled : compile ⟨3, true⟩ "loop" source with
  | error fault =>
    rw [compiled] at computed
    cases computed
  | ok result =>
    rw [compiled] at computed
    obtain ⟨vars, labels⟩ := of_decide_eq_true computed
    obtain ⟨code, reads, -, header, body, whole, targets, marks⟩ := compile_writes_tree compiled
    have names : code.targets.eraseDups = ["n", "m"] := targets.symm.trans vars
    refine ⟨result, code, rfl, reads, ?_, names, marks.symm.trans labels⟩
    rw [whole, header, body, names]

end LineBasic
