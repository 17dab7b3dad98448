import LineBasic.Proofs.Diagnosis.Language
import LineBasic.Proofs.Names.Breach

/-!
# The breach that is reported

The rules of names are checked at different moments of a pass: a reserved name when it was taken, a
variable before the name is written, a label before it is entered, a jump when all labels are known.
What is reported is the first breach of the source all the same, and a jump without its label only if
there is no breach at all (`compile_reports_first_breach`).
-/

namespace LineBasic

set_option autoImplicit false

open Grammar

/-- The table of jumps finds the first jump without a label, though it holds each name once. -/
theorem find?_jumpsOf (tokens : List Token) :
    ((jumpsOf tokens).entries.find? fun jump => !(labelsOf tokens).has jump.1) =
      (undefinedJump? tokens).map fun jump => (jump.text, jump.location) := by
  have missing (name : String) : (!(labelsOf tokens).has name) =
      (inRole .label tokens).all (·.text ≠ name) := by
    rw [Bool.eq_iff_iff, Bool.not_eq_true', ← Bool.not_eq_true, labelsOf, NameTable.has_ofTokens]
    simp
  unfold undefinedJump?
  simp only [jumpsOf, ← missing]
  exact NameTable.find?_ofTokens (fun name => !(labelsOf tokens).has name) _

theorem undefinedJump?_eq_none_iff (tokens : List Token) :
    undefinedJump? tokens = none ↔
      ∀ jump ∈ inRole .jump tokens, ∃ label ∈ inRole .label tokens, label.text = jump.text := by
  rw [← Pass.find?_undefined_eq_none_iff, find?_jumpsOf, Option.map_eq_none_iff]

/-- How a source that derives from the grammar is refused. -/
theorem Refused.firstBreach_or_undefinedJump {origin : Scanner} {fault : Diagnostic}
    (refused : Refused origin fault) (whole : origin.stream.fault = none)
    (derives : Derives (.symbol .program) (origin.stream.tokens.map (·.kind))) :
    (∃ token cause, FirstBreach origin.stream.tokens token cause ∧
        fault = origin.report cause token.location) ∨
      Clean origin.stream.tokens ∧ ∃ jump, undefinedJump? origin.stream.tokens = some jump ∧
        fault = origin.report (.undefinedLabel jump.text) jump.location := by
  rcases refused.misnamed_or_unlabelled whole derives with
    ⟨before, token, after, cause, split, clean, breaks, rfl⟩ | ⟨clean, name, place, first, rfl⟩
  · exact .inl ⟨token, cause, firstBreach_iff.2 ⟨before, after, split, clean, breaks⟩, rfl⟩
  · rw [find?_jumpsOf] at first
    obtain ⟨jump, found, same⟩ := Option.map_eq_some_iff.1 first
    cases same
    exact .inr ⟨clean, jump, found, rfl⟩

/-- Of a source that can be read and derives from the grammar, the first breach of a rule of names is
reported, at its place. If there is none, the first jump to a label that is nowhere defined is reported,
and if there is none either, the source compiles. -/
theorem compile_reports_first_breach (options : Options) (file source : String)
    (whole : (Scanner.start file source).drain.fault = none)
    (derives : Derives (.symbol .program) ((Scanner.start file source).drain.tokens.map (·.kind))) :
    let origin := Scanner.start file source
    let tokens := origin.drain.tokens
    (∀ token cause, FirstBreach tokens token cause →
        compile options file source = .error (origin.report cause token.location)) ∧
      ((∃ before token after cause, tokens = before ++ token :: after ∧ Breaks before token cause) →
        ∃ token cause, FirstBreach tokens token cause) ∧
      ((∀ before token after cause, tokens = before ++ token :: after → ¬ Breaks before token cause) →
        match undefinedJump? tokens with
        | some jump =>
            compile options file source =
              .error (origin.report (.undefinedLabel jump.text) jump.location)
        | none => ∃ result, compile options file source = .ok result) := by
  intro origin tokens
  have refusals {fault : Diagnostic} (failed : compile options file source = .error fault) :=
    (refused_of_compile failed).firstBreach_or_undefinedJump whole derives
  refine ⟨fun token cause first => ?_, ?_, fun sound => ?_⟩
  · cases ended : compile options file source with
    | ok result =>
      obtain ⟨-, t, -, -, -, accepted⟩ := accepted_of_compile ended
      exact absurd accepted.clean first.not_clean
    | error fault =>
      rcases refusals ended with ⟨other, found, again, rfl⟩ | ⟨clean, -⟩
      · obtain ⟨rfl, rfl⟩ := first.unique again
        rfl
      · exact absurd clean first.not_clean
  · rintro ⟨before, token, after, cause, split, breaks⟩
    refine exists_firstBreach fun clean => ?_
    exact (clean_iff_not_breaks tokens).1 clean before token after split cause breaks
  · have clean : Clean tokens := (clean_iff_not_breaks tokens).2
      fun before token after split cause => sound before token after cause split
    cases ended : compile options file source with
    | ok result =>
      obtain ⟨-, t, -, -, -, accepted⟩ := accepted_of_compile ended
      have defined : undefinedJump? tokens = none :=
        (undefinedJump?_eq_none_iff tokens).2 accepted.jumpsDefined
      rw [defined]
      exact ⟨result, rfl⟩
    | error fault =>
      rcases refusals ended with ⟨token, cause, first, -⟩ | ⟨-, jump, found, rfl⟩
      · exact absurd clean first.not_clean
      · rw [show undefinedJump? tokens = some jump from found]

/-- The label in the inner block was defined before; the reserved name, the variable that was not set and
the jump to nowhere come later. -/
theorem compile_reports_first_breach_in_block :
    let source := "LET a = 1\nLABEL top\nIF a < 2 THEN\nLABEL top\nLET if = b\nENDIF\nGOTO gone"
    let origin := Scanner.start "block" source
    origin.drain.fault = none ∧
      Derives (.symbol .program) (origin.drain.tokens.map (·.kind)) ∧
      ∃ token, token.location = ⟨"block", 4, 7⟩ ∧
        FirstBreach origin.drain.tokens token (.duplicateLabel "top" (some ⟨"block", 2, 7⟩)) ∧
        compile {} "block" source =
          .error (origin.report (.duplicateLabel "top" (some ⟨"block", 2, 7⟩)) token.location) := by
  intro source origin
  have whole : origin.drain.fault = none := by decide +kernel
  have derives : Derives (.symbol .program) (origin.drain.tokens.map (·.kind)) :=
    (derives_iff_run _).2 ⟨[], by decide +kernel⟩
  have computed : compile {} "block" source = .error (origin.report
      (.duplicateLabel "top" (some ⟨"block", 2, 7⟩)) ⟨"block", 4, 7⟩) := by
    decide +kernel
  obtain ⟨reported, first, otherwise⟩ := compile_reports_first_breach {} "block" source whole derives
  have broken : ∃ before token after cause,
      origin.drain.tokens = before ++ token :: after ∧ Breaks before token cause := by
    -- Without a breach the jump would have been reported.
    by_contra sound
    have jumps := otherwise fun before token after cause split breaks =>
      sound ⟨before, token, after, cause, split, breaks⟩
    rw [computed] at jumps
    split at jumps
    · cases jumps
    · obtain ⟨result, compiled⟩ := jumps
      cases compiled
  obtain ⟨token, cause, breach⟩ := first broken
  have same := Except.error.inj ((reported token cause breach).symm.trans computed)
  have causes : cause = .duplicateLabel "top" (some ⟨"block", 2, 7⟩) := congrArg Diagnostic.cause same
  have places : token.location = ⟨"block", 4, 7⟩ :=
    Option.some.inj (congrArg Diagnostic.location same)
  subst causes
  exact ⟨whole, derives, token, places, breach, reported token _ breach⟩

end LineBasic
