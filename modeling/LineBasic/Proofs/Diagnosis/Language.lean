import LineBasic.Proofs.Diagnosis.Program
import LineBasic.Proofs.Token.Order

/-!
# The language that is compiled

A source compiles exactly if its tokens can be read, derive from the grammar and keep the rules of
names. Where a token cannot stand, the diagnostic points at the first such token: what comes before it
can still be completed to a program, and with it no more.
-/

namespace LineBasic

set_option autoImplicit false

open Grammar

variable {options : Options} {file source : String}

/-- Once stuck, a run stays stuck. -/
theorem Grammar.Point.run_stuck {p q : Point} {word : List Kind} {k : Kind}
    (leads : p.run word = some q) (stuck : q.next k = none) (rest : List Kind) :
    p.run (word ++ k :: rest) = none := by
  rw [run_append, leads, Option.bind_some, run, List.foldlM_cons, stuck]
  rfl

/-- A source that can be read and derives from the grammar is refused only for its names. -/
theorem Refused.misnamed_or_unlabelled {origin : Scanner} {fault : Diagnostic}
    (refused : Refused origin fault) (whole : origin.stream.fault = none)
    (derives : Derives (.symbol .program) (origin.stream.tokens.map (·.kind))) :
    (∃ before token after cause, origin.stream.tokens = before ++ token :: after ∧ Clean before ∧
        violation? before token = some cause ∧ fault = origin.report cause token.location) ∨
      Clean origin.stream.tokens ∧ ∃ name place,
        (jumpsOf origin.stream.tokens).entries.find?
            (fun jump => !(labelsOf origin.stream.tokens).has jump.1) = some (name, place) ∧
          fault = origin.report (.undefinedLabel name) place := by
  obtain ⟨blocks, finishes⟩ := (derives_iff_run _).1 derives
  cases refused with
  | unread met =>
    rw [whole] at met
    cases met
  | misplaced split ahead leads stuck =>
    rw [split, List.map_append, List.map_cons, Point.run_stuck leads stuck] at finishes
    cases finishes
  | misnamed split ahead clean breaks => exact .inl ⟨_, _, _, _, split, clean, breaks, rfl⟩
  | unlabelled _ _ clean first => exact .inr ⟨clean, _, _, first, rfl⟩

/-- A source that is derivable and well named is not refused. -/
theorem Refused.false_of_wellNamed {origin : Scanner} {fault : Diagnostic}
    (refused : Refused origin fault) (whole : origin.stream.fault = none)
    (derives : Derives (.symbol .program) (origin.stream.tokens.map (·.kind)))
    (named : WellNamed origin.stream.tokens) : False := by
  obtain ⟨clean, jumpsDefined⟩ := (wellNamed_iff _).1 named
  rcases refused.misnamed_or_unlabelled whole derives with
    ⟨before, token, after, cause, split, -, breaks, -⟩ | ⟨-, name, place, first, -⟩
  · rw [clean _ _ _ split] at breaks
    cases breaks
  · rw [(Pass.find?_undefined_eq_none_iff _).2 jumpsDefined] at first
    cases first

/-- So it compiles. -/
theorem exists_compile_of_wellNamed (whole : (Scanner.start file source).stream.fault = none)
    (derives : Derives (.symbol .program) ((Scanner.start file source).stream.tokens.map (·.kind)))
    (named : WellNamed (Scanner.start file source).stream.tokens) :
    ∃ result, compile options file source = .ok result := by
  cases ended : compile options file source with
  | ok result => exact ⟨result, rfl⟩
  | error fault => exact ((refused_of_compile ended).false_of_wellNamed whole derives named).elim

/-- A source compiles if and only if all its tokens can be read, their kinds derive from the grammar
and its names keep the rules. -/
theorem compile_ok_iff (options : Options) (file source : String) :
    (∃ result, compile options file source = .ok result) ↔
      (Scanner.start file source).drain.fault = none ∧
        Derives (.symbol .program) ((Scanner.start file source).drain.tokens.map (·.kind)) ∧
        WellNamed (Scanner.start file source).drain.tokens := by
  constructor
  · rintro ⟨result, compiled⟩
    obtain ⟨-, t, -, -, -, accepted⟩ := accepted_of_compile compiled
    exact ⟨accepted.whole, (derives_iff_run _).2 ⟨[], accepted.leads⟩,
      (wellNamed_iff _).2 ⟨accepted.clean, accepted.jumpsDefined⟩⟩
  · rintro ⟨whole, derives, named⟩
    exact exists_compile_of_wellNamed whole derives named

/-! ## The place of a fault -/

/-- A token stood where the grammar has no place for it. -/
def Cause.IsSyntactic : Cause → Prop
  | .unexpectedToken .. | .invalidStatement .. => True
  | _ => False

theorem Cause.IsSyntactic.phase {cause : Cause} (syntactic : cause.IsSyntactic) :
    cause.phase = some .parsing := by
  cases cause with
  | unexpectedToken | invalidStatement => rfl
  | _ => cases syntactic

theorem Lexeme.read_phase {text : List Char} {misread : Misread} (failed : read text = .error misread) :
    misread.cause.phase = some .scanning := by
  unfold read at failed
  split at failed
  case h_14 => cases failed; rfl
  case h_15 =>
    unfold readString at failed
    dsimp only at failed
    split at failed <;> cases failed <;> rfl
  case h_16 =>
    split at failed
    · unfold readNumber at failed
      dsimp only at failed
      split at failed
      · split at failed <;> cases failed
        rfl
      · cases failed
    · split at failed <;> cases failed
      rfl
  all_goals cases failed

theorem Scanner.next_phase {sc sc' : Scanner} {fault : Diagnostic} (failed : next sc = .error fault sc') :
    fault.cause.phase = some .scanning := by
  obtain ⟨misread, stopped, rfl, -⟩ := next_error failed
  exact Lexeme.read_phase stopped

theorem Scanner.stream_phase {sc : Scanner} {fault : Diagnostic} (met : sc.stream.fault = some fault) :
    fault.cause.phase = some .scanning := by
  unfold stream at met
  dsimp only at met
  fun_induction drain sc with
  | case1 sc found sc' failed =>
    cases met
    exact next_phase failed
  | case2 sc token sc' step isEnd => cases met
  | case3 sc token sc' step more later ih => exact ih met

theorem not_isSyntactic_of_violation {before : List Token} {token : Token} {cause : Cause}
    (breaks : violation? before token = some cause) : ¬ cause.IsSyntactic := by
  have reserved {names : List String} (found : reservedIn? names token = some cause) :
      ¬ cause.IsSyntactic := by
    unfold reservedIn? at found
    split at found <;> cases found
    exact id
  unfold violation? at breaks
  split at breaks
  · exact reserved breaks
  · exact reserved breaks
  · rcases Option.or_eq_some_iff.1 breaks with found | ⟨-, found⟩
    · exact reserved found
    · obtain ⟨first, -, rfl⟩ := Option.map_eq_some_iff.1 found
      exact id
  · unfold undeclared? at breaks
    split at breaks <;> cases breaks
    exact id

/-- A token that cannot stand where it is is reported at its own place, which no other token has. It is
the first such token: the tokens before it begin some program, together with it they begin none. -/
theorem first_misplaced_token_of_compile_error {fault : Diagnostic}
    (failed : compile options file source = .error fault) (syntactic : fault.cause.IsSyntactic) :
    ∃ before token after,
      (Scanner.start file source).drain.tokens = before ++ token :: after ∧
        fault.location = some token.location ∧
        (∀ other ∈ before ++ after, other.location ≠ token.location) ∧
        Viable (before.map (·.kind)) ∧
        ¬ Viable ((before ++ [token]).map (·.kind)) := by
  cases refused_of_compile failed with
  | unread met =>
    have scanning := Scanner.stream_phase met
    rw [syntactic.phase] at scanning
    cases scanning
  | @misplaced before after token p split ahead leads stuck =>
    refine ⟨before, token, after, split, rfl, Scanner.location_ne_of_split split, ?_, ?_⟩
    · rw [viable_iff_run, leads]
      rfl
    · rw [viable_iff_run, List.map_append, List.map_singleton, Point.run_stuck leads stuck]
      exact Bool.false_ne_true
  | misnamed split ahead clean breaks => exact absurd syntactic (not_isSyntactic_of_violation breaks)
  | unlabelled whole leads clean first => exact absurd syntactic id

/-- Inside a loop, an operator after another one. -/
theorem first_misplaced_token_in_loop :
    let source := "LET n = 1\nWHILE n < 5 REPEAT\nLET n = n + * 2\nENDWHILE"
    ∃ fault before token after,
      compile {} "loop" source = .error fault ∧ fault.cause.IsSyntactic ∧
        (Scanner.start "loop" source).drain.tokens = before ++ token :: after ∧
        token.location = ⟨"loop", 3, 13⟩ ∧
        (∀ other ∈ before ++ after, other.location ≠ token.location) ∧
        Viable (before.map (·.kind)) ∧
        ¬ Viable ((before ++ [token]).map (·.kind)) := by
  intro source
  have failed : compile {} "loop" source =
      .error ⟨.unexpectedToken "NUMBER or IDENT" "ASTERISK '*'" none, some ⟨"loop", 3, 13⟩,
        some "LET n = n + * 2"⟩ := by
    decide +kernel
  obtain ⟨before, token, after, split, place, alone, viable, stuck⟩ :=
    first_misplaced_token_of_compile_error failed trivial
  refine ⟨_, before, token, after, failed, trivial, split, ?_, alone, viable, stuck⟩
  exact (Option.some.inj place).symm

end LineBasic
