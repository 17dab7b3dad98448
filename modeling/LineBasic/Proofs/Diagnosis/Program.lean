import LineBasic.Proofs.Diagnosis.Statement

/-!
# A program is accepted, or refused for a reason

A pass over a whole source returns only if all tokens of the source were read, derive from the grammar
and keep the rules of names, and its tables are then those of all tokens (`Accepted`). In all other
cases the source is `Refused`.
-/

namespace LineBasic

set_option autoImplicit false

open Grammar

/-- What is known of a source when a pass over it has ended in a state. -/
structure Accepted (origin : Scanner) (t : Pass.State) : Prop where
  whole : origin.stream.fault = none
  leads : Point.start.run (origin.stream.tokens.map (·.kind)) = some ⟨.done, []⟩
  clean : Clean origin.stream.tokens
  jumpsDefined : ∀ jump ∈ inRole .jump origin.stream.tokens,
    ∃ label ∈ inRole .label origin.stream.tokens, label.text = jump.text
  vars : t.vars = .ofTokens (inRole .target origin.stream.tokens)
  labels : t.labels = labelsOf origin.stream.tokens

namespace Pass

variable {origin : Scanner} {s t : State}

theorem atLine_start {options : Options} {file source : String}
    (started : start options file source = .ok s) :
    AtLine (Scanner.start file source) .start s := by
  obtain ⟨stream, primed⟩ := stream_start started
  have text := text_start started
  have tables : s.vars = .empty ∧ s.labels = .empty ∧ s.jumps = .empty := by
    obtain ⟨sc, -, -, same⟩ := start_ok started
    rw [same]
    exact ⟨rfl, rfl, rfl⟩
  refine ⟨[], ⟨?_, ?_, primed, text, rfl⟩, clean_nil, tables.1, tables.2.1, tables.2.2⟩
  · rw [stream, List.nil_append]
  · rw [stream]

theorem ends_statements (here : AtLine origin .start s) (blank : s.current.kind ≠ .newline) :
    Ends (iterate statementRound shrinking_statementRound ()) s
      (fun _ t => AtLine origin .start t ∧ t.current.kind = .eof) (Refused origin) := by
  refine ends_iterate (γ := Unit)
    (P := fun _ _ s => AtLine origin .start s ∧ s.current.kind ≠ .newline)
    (Q := fun _ _ _ t => AtLine origin .start t ∧ t.current.kind = .eof) ?_ () () s ⟨here, blank⟩
  rintro - - s ⟨here, blank⟩
  refine ends_get_bind ?_
  by_cases ended : s.current.kind = .eof
  · rw [if_pos ended]
    exact ends_pure ⟨here, ended⟩
  · rw [if_neg ended]
    refine ends_bind ((ends_statement here blank ended (if_neg ended)).mono fun _ t _ after => ?_)
    exact ends_pure ⟨(), after, fun _ ended => ended⟩

theorem find?_undefined_eq_none_iff (tokens : List Token) :
    ((jumpsOf tokens).entries.find? fun jump => !(labelsOf tokens).has jump.1) = none ↔
      ∀ jump ∈ inRole .jump tokens, ∃ label ∈ inRole .label tokens, label.text = jump.text := by
  have defined (name : String) : (!(labelsOf tokens).has name) = true ↔
      ¬ ∃ label ∈ inRole .label tokens, label.text = name := by
    rw [labelsOf, ← NameTable.has_ofTokens]
    cases (NameTable.ofTokens (inRole .label tokens)).has name <;> simp
  have names (name : String) : name ∈ (jumpsOf tokens).names ↔
      ∃ jump ∈ inRole .jump tokens, jump.text = name := by
    rw [jumpsOf, NameTable.names_ofTokens, List.mem_eraseDups, List.mem_map]
  rw [List.find?_eq_none]
  simp only [defined, not_not]
  constructor
  · intro all jump member
    obtain ⟨entry, listed, same⟩ := List.mem_map.1 ((names jump.text).2 ⟨jump, member, rfl⟩)
    exact same ▸ all entry listed
  · intro all entry listed
    obtain ⟨jump, member, same⟩ := (names entry.1).1 (List.mem_map_of_mem listed)
    exact same ▸ all jump member

theorem ends_checkLabels (here : AtLine origin .start s) (ended : s.current.kind = .eof) :
    Ends checkLabels s (fun _ t => Accepted origin t) (Refused origin) := by
  obtain ⟨before, stands, accounted⟩ := here
  have rest := State.stream_at_end ended
  have split : origin.stream.tokens = before ++ [s.current] := by rw [stands.stream, rest]
  have whole : origin.stream.fault = none := by rw [← stands.fault, rest]
  have plain := plain_of_run stands.leads nofun
  have all : Accounted (inRole .target origin.stream.tokens) origin.stream.tokens s := by
    rw [split, inRole_concat_of_ne (by simp [plain])]
    exact accounted.concat plain (violation?_of_not_ident plain (by simp [ended]))
  have leads : Point.start.run (origin.stream.tokens.map (·.kind)) = some ⟨.done, []⟩ := by
    rw [split, List.map_append, List.map_singleton, Point.run_concat, stands.leads, ended]
    rfl
  refine ends_get_bind ?_
  have same : s.undefinedJump? = (jumpsOf origin.stream.tokens).entries.find? fun jump =>
      !(labelsOf origin.stream.tokens).has jump.1 := by
    rw [State.undefinedJump?, all.jumps, all.labels]
  cases found : s.undefinedJump? with
  | none =>
    rw [same] at found
    exact ends_pure ⟨whole, leads, all.clean, (find?_undefined_eq_none_iff _).1 found, all.vars,
      all.labels⟩
  | some jump =>
    rw [same] at found
    refine ends_throw ?_
    rw [stands.report]
    exact .unlabelled whole leads all.clean found

theorem ends_writeHeaderLine {text : String} (here : AtLine origin .start s) :
    Ends (writeHeaderLine text) s (fun _ t => AtLine origin .start t) (Refused origin) :=
  ends_modify (here.same ⟨rfl, rfl, id, rfl⟩ rfl rfl rfl)

theorem ends_program (here : AtLine origin .start s) :
    Ends program s (fun _ t => Accepted origin t) (Refused origin) := by
  refine ends_bind ((ends_writeHeaderLine here).mono fun _ _ _ there => ?_)
  refine ends_bind ((ends_writeHeaderLine there).mono fun _ _ _ there => ?_)
  refine ends_bind ((ends_skipNewlines there).mono fun _ _ _ there => ?_)
  refine ends_bind ((ends_statements there.1 there.2).mono fun _ r _ there => ?_)
  obtain ⟨there, ended⟩ := there
  refine ends_bind ((ends_writeLine there).mono fun _ u first there => ?_)
  refine ends_bind ((ends_writeLine there).mono fun _ v second there => ?_)
  refine ends_checkLabels there ?_
  rw [(emitted_writeLine second).current_eq, (emitted_writeLine first).current_eq, ended]

end Pass

variable {options : Options} {file source : String}

/-- A compiled source was passed over from its start, and all of it was accepted. -/
theorem accepted_of_compile {result : Compiled} (compiled : compile options file source = .ok result) :
    ∃ s t, Pass.start options file source = .ok s ∧ Pass.program s = .ok () t ∧
      result = .ofState file t ∧ Accepted (Scanner.start file source) t := by
  unfold compile run at compiled
  cases started : Pass.start options file source with
  | error fault =>
    rw [started] at compiled
    cases compiled
  | ok s =>
    rw [started] at compiled
    dsimp only at compiled
    cases ended : Pass.program s with
    | error fault t =>
      rw [ended] at compiled
      cases compiled
    | ok _ t =>
      rw [ended] at compiled
      cases compiled
      have ends := Pass.ends_program (Pass.atLine_start started)
      have accepted := Pass.ends_ok ends ended
      exact ⟨s, t, rfl, ended, rfl, accepted⟩

theorem refused_of_compile {fault : Diagnostic} (failed : compile options file source = .error fault) :
    Refused (Scanner.start file source) fault := by
  unfold compile run at failed
  cases started : Pass.start options file source with
  | error found =>
    rw [started] at failed
    cases failed
    exact .unread (Pass.fault_start started)
  | ok s =>
    rw [started] at failed
    dsimp only at failed
    cases ended : Pass.program s with
    | error found t =>
      rw [ended] at failed
      cases failed
      have ends := Pass.ends_program (Pass.atLine_start started)
      exact Pass.ends_error ends ended
    | ok _ t =>
      rw [ended] at failed
      cases failed

end LineBasic
