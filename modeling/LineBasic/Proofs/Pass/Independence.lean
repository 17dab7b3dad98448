import LineBasic.Compile

/-!
# Options show only in the body

A pass looks at its options where it writes, and never at what it has written. So two passes that start
alike but for their options go through the same states, but for the options and the body, and end alike:
with the same value or the same diagnostic (`Blind`). Each way to put steps together has one rule for it,
and whole programs follow (`blind_program`).
-/

namespace LineBasic

set_option autoImplicit false

namespace Pass

variable {α β σ : Type} {s t : State}

/-- Two states that differ at most in their options and their bodies. -/
structure Agree (s t : State) : Prop where
  scanner : s.scanner = t.scanner
  current : s.current = t.current
  ahead : s.ahead = t.ahead
  header : s.output.header = t.output.header
  vars : s.vars = t.vars
  labels : s.labels = t.labels
  jumps : s.jumps = t.jumps
  statements : s.statements = t.statements

theorem Agree.report (agree : Agree s t) : s.report = t.report := by
  funext cause place
  rw [State.report, State.report, agree.scanner]

theorem Agree.unexpected (agree : Agree s t) : s.unexpected = t.unexpected := by
  funext expected
  rw [State.unexpected, State.unexpected, agree.report, agree.current]

/-- The same value or the same diagnostic, in states that agree. -/
def Alike : EStateM.Result Diagnostic State α → EStateM.Result Diagnostic State α → Prop
  | .ok a s, .ok b t => a = b ∧ Agree s t
  | .error fault s, .error fault' t => fault = fault' ∧ Agree s t
  | _, _ => False

/-- A step whose outcome depends neither on the options nor on the body. -/
def Blind (step : Pass α) : Prop := ∀ s t, Agree s t → Alike (step s) (step t)

/-! ## Steps in sequence -/

theorem blind_pure (a : α) : Blind (pure a : Pass α) := fun _ _ agree => ⟨rfl, agree⟩

theorem blind_throw (fault : Diagnostic) : Blind (throw fault : Pass α) := fun _ _ agree => ⟨rfl, agree⟩

theorem blind_bind {step : Pass α} {next : α → Pass β} (first : Blind step)
    (later : ∀ a, Blind (next a)) : Blind (step >>= next) := by
  intro s t agree
  have alike := first s t agree
  rw [bind_apply, bind_apply]
  cases done : step s with
  | ok a u =>
    cases done' : step t with
    | ok b v =>
      rw [done, done'] at alike
      obtain ⟨rfl, there⟩ := alike
      exact later a u v there
    | error fault v =>
      rw [done, done'] at alike
      cases alike
  | error fault u =>
    cases done' : step t with
    | ok b v =>
      rw [done, done'] at alike
      cases alike
    | error fault' v =>
      rw [done, done'] at alike
      exact alike

/-- What is done with the state that is seen must be the same for states that agree. -/
theorem blind_get_bind {next : State → Pass α} (same : ∀ s t, Agree s t → next s = next t)
    (later : ∀ s, Blind (next s)) : Blind (get >>= next) := by
  intro s t agree
  show Alike (next s s) (next t t)
  rw [same s t agree]
  exact later t s t agree

theorem blind_modify {change : State → State} (same : ∀ s t, Agree s t → Agree (change s) (change t)) :
    Blind (modify change) := fun s t agree => ⟨rfl, same s t agree⟩

theorem blind_iterate {round : σ → Pass (Option σ)} {shrinking : Shrinking round}
    (rounds : ∀ a, Blind (round a)) (a : σ) : Blind (iterate round shrinking a) := by
  intro s t agree
  induction left : s.remaining using Nat.strongRecOn generalizing a s t with
  | ind n ih =>
    have alike := rounds a s t agree
    rw [iterate_apply, iterate_apply]
    cases done : round a s with
    | error fault u =>
      cases done' : round a t with
      | ok handed v =>
        rw [done, done'] at alike
        cases alike
      | error fault' v =>
        rw [done, done'] at alike
        exact alike
    | ok handed u =>
      cases done' : round a t with
      | error fault v =>
        rw [done, done'] at alike
        cases alike
      | ok handed' v =>
        rw [done, done'] at alike
        obtain ⟨rfl, there⟩ := alike
        cases handed with
        | none => exact ⟨rfl, there⟩
        | some b => exact ih _ (left ▸ shrinking a s done) b u v there rfl

/-! ## Primitive steps -/

theorem blind_advance : Blind advance := by
  intro s t agree
  unfold advance
  rw [agree.scanner]
  cases Scanner.next t.scanner with
  | ok token sc =>
    exact ⟨rfl, ⟨rfl, agree.ahead, rfl, agree.header, agree.vars, agree.labels, agree.jumps,
      agree.statements⟩⟩
  | error fault sc =>
    exact ⟨rfl, ⟨rfl, agree.ahead, agree.ahead, agree.header, agree.vars, agree.labels, agree.jumps,
      agree.statements⟩⟩

/-- Whatever is added to the bodies. -/
theorem Agree.addBody (agree : Agree s t) (text text' : String) :
    Agree { s with output := s.output.addBody text } { t with output := t.output.addBody text' } :=
  ⟨agree.scanner, agree.current, agree.ahead, agree.header, agree.vars, agree.labels, agree.jumps,
    agree.statements⟩

theorem blind_write (text : String) : Blind (write text) :=
  blind_modify fun _ _ agree => agree.addBody text text

theorem blind_writeLine (text : String) : Blind (writeLine text) :=
  blind_modify fun _ _ agree => agree.addBody (text ++ "\n") (text ++ "\n")

theorem Agree.addHeaderLine (agree : Agree s t) (text : String) :
    Agree { s with output := s.output.addHeaderLine text }
      { t with output := t.output.addHeaderLine text } := by
  refine ⟨agree.scanner, agree.current, agree.ahead, ?_, agree.vars, agree.labels, agree.jumps,
    agree.statements⟩
  show s.output.header.add (text ++ "\n") = t.output.header.add (text ++ "\n")
  rw [agree.header]

theorem blind_writeHeaderLine (text : String) : Blind (writeHeaderLine text) :=
  blind_modify fun _ _ agree => agree.addHeaderLine text

theorem blind_expect (kind : Kind) : Blind (expect kind) := by
  refine blind_get_bind (fun s t agree => ?_) fun s => ?_
  · simp only [agree.current, agree.unexpected]
  · split
    · exact blind_bind blind_advance fun _ => blind_pure _
    · exact blind_throw _

/-! ## Expressions -/

theorem blind_primary : Blind primary := by
  refine blind_get_bind (fun s t agree => ?_) fun s => ?_
  · simp only [agree.current, agree.vars, agree.unexpected, agree.report]
  · split
    · exact blind_bind (blind_write _) fun _ => blind_advance
    · split
      · exact blind_bind (blind_write _) fun _ => blind_advance
      · exact blind_throw _
    · exact blind_throw _

theorem blind_unary : Blind unary := by
  refine blind_get_bind (fun s t agree => ?_) fun s => ?_
  · simp only [agree.current]
  · split
    · exact blind_bind (blind_write _) fun _ => blind_bind blind_advance fun _ =>
        blind_bind blind_primary fun _ => blind_write _
    · exact blind_primary

theorem blind_chain {joins : Kind → Bool} {stops : joins .eof = false} {operand : Pass Unit}
    {steady : Steady operand} (item : Blind operand) : Blind (chain joins stops operand steady) := by
  refine blind_iterate (fun _ => blind_get_bind (fun s t agree => ?_) fun s => ?_) ()
  · simp only [agree.current]
  · split
    · exact blind_bind (blind_write _) fun _ => blind_bind blind_advance fun _ =>
        blind_bind item fun _ => blind_pure _
    · exact blind_pure _

theorem blind_term : Blind term := blind_bind blind_unary fun _ => blind_chain blind_unary

theorem blind_expression : Blind expression := blind_bind blind_term fun _ => blind_chain blind_term

theorem blind_comparison : Blind comparison := by
  refine blind_bind blind_expression fun _ => blind_get_bind (fun s t agree => ?_) fun s => ?_
  · simp only [agree.current, agree.unexpected]
  · split
    · exact blind_chain blind_expression
    · exact blind_throw _

/-! ## Statements -/

theorem blind_skipNewlines : Blind skipNewlines := by
  refine blind_iterate (fun _ => blind_get_bind (fun s t agree => ?_) fun s => ?_) ()
  · simp only [agree.current]
  · split
    · exact blind_bind blind_advance fun _ => blind_pure _
    · exact blind_pure _

theorem blind_newline : Blind newline := blind_bind (blind_expect _) fun _ => blind_skipNewlines

theorem blind_freeName (reserved : List String) : Blind (freeName reserved) := by
  refine blind_bind (blind_expect _) fun token => blind_bind ?_ fun _ => blind_pure _
  refine blind_get_bind (fun s t agree => ?_) fun s => ?_
  · simp only [agree.report]
  · split
    · exact blind_throw _
    · exact blind_pure _

theorem blind_declare (token : Token) : Blind (declare token) := by
  refine blind_modify fun s t agree => ?_
  rw [agree.vars]
  split
  · exact agree
  · have there := agree.addHeaderLine s!"float {token.text};"
    exact ⟨there.scanner, there.current, there.ahead, there.header, rfl, there.labels, there.jumps,
      there.statements⟩

/-- The one step that writes what the options say. -/
theorem blind_printRest : Blind printRest := by
  intro s t agree
  show Alike ((if s.current.kind = .string then _ else _ : Pass Unit) s)
    ((if t.current.kind = .string then _ else _ : Pass Unit) t)
  rw [agree.current]
  split
  · exact blind_bind (blind_writeLine _) (fun _ => blind_advance) s t agree
  · exact blind_bind blind_expression (fun _ => blind_writeLine _) _ _ (agree.addBody _ _)

theorem blind_defineLabel (token : Token) : Blind (defineLabel token) := by
  refine blind_get_bind (fun s t agree => ?_) fun s => ?_
  · simp only [agree.labels, agree.report]
  · split
    · exact blind_throw _
    · refine blind_modify fun s t agree => ?_
      exact ⟨agree.scanner, agree.current, agree.ahead, agree.header, agree.vars, by rw [agree.labels],
        agree.jumps, agree.statements⟩

theorem blind_labelRest : Blind labelRest :=
  blind_bind (blind_freeName _) fun _ => blind_bind (blind_defineLabel _) fun _ => blind_writeLine _

theorem blind_gotoRest : Blind gotoRest := by
  refine blind_bind (blind_freeName _) fun token => blind_bind (blind_modify fun s t agree => ?_) fun _ =>
    blind_writeLine _
  exact ⟨agree.scanner, agree.current, agree.ahead, agree.header, agree.vars, agree.labels,
    by rw [agree.jumps], agree.statements⟩

theorem blind_letRest : Blind letRest :=
  blind_bind (blind_freeName _) fun _ => blind_bind (blind_write _) fun _ =>
    blind_bind (blind_expect _) fun _ => blind_bind blind_expression fun _ =>
      blind_bind (blind_writeLine _) fun _ => blind_declare _

theorem blind_inputRest : Blind inputRest :=
  blind_bind (blind_freeName _) fun _ => blind_bind (blind_declare _) fun _ =>
    blind_bind (blind_writeLine _) fun _ => blind_bind (blind_writeLine _) fun _ =>
      blind_bind (blind_writeLine _) fun _ => blind_writeLine _

theorem blind_statementRest {kind : Kind} {rest : Pass Unit}
    (found : statementRest? kind = some (.inl rest)) : Blind rest := by
  unfold statementRest? at found
  split at found <;> cases found
  · exact blind_printRest
  · exact blind_labelRest
  · exact blind_gotoRest
  · exact blind_letRest
  · exact blind_inputRest

theorem blind_blockHead (block : Block) : Blind (blockHead block) :=
  blind_bind (blind_write _) fun _ => blind_bind blind_comparison fun _ =>
    blind_bind (blind_expect _) fun _ => blind_bind (blind_writeLine _) fun _ => blind_newline

/-- A comment is written, or none. -/
theorem blind_beginStatement : Blind beginStatement := by
  refine blind_modify fun s t agree => ?_
  have counted : s.statements + 1 = t.statements + 1 := by rw [agree.statements]
  dsimp only
  split <;> split <;>
    exact ⟨agree.scanner, agree.current, agree.ahead, agree.header, agree.vars, agree.labels, agree.jumps,
      counted⟩

theorem blind_openStatement : Blind openStatement := by
  refine blind_bind blind_beginStatement fun _ => blind_get_bind (fun s t agree => ?_) fun s => ?_
  · simp only [agree.current, agree.report]
  · split
    · exact blind_throw _
    · rename_i rest found
      exact blind_bind blind_advance fun _ => blind_bind (blind_statementRest found) fun _ =>
        blind_bind blind_newline fun _ => blind_pure _
    · exact blind_bind blind_advance fun _ => blind_bind (blind_blockHead _) fun _ => blind_pure _

theorem blind_blockMove (block : Block) (outer : List Block) : Blind (blockMove block outer) := by
  refine blind_get_bind (fun s t agree => ?_) fun s => ?_
  · simp only [agree.current, agree.unexpected]
  · split
    · exact blind_bind (blind_expect _) fun _ => blind_bind (blind_writeLine _) fun _ =>
        blind_bind blind_newline fun _ => blind_pure _
    · split
      · exact blind_throw _
      · exact blind_bind blind_openStatement fun _ => blind_pure _

theorem blind_closeBlocks (blocks : List Block) : Blind (closeBlocks blocks) := by
  refine blind_iterate (fun blocks => ?_) blocks
  cases blocks with
  | nil => exact blind_pure _
  | cons block outer => exact blind_bind (blind_blockMove block outer) fun _ => blind_pure _

theorem blind_statement : Blind statement :=
  blind_bind blind_openStatement fun opened => blind_closeBlocks opened.toList

theorem blind_checkLabels : Blind checkLabels := by
  refine blind_get_bind (fun s t agree => ?_) fun s => ?_
  · have same : s.undefinedJump? = t.undefinedJump? := by
      rw [State.undefinedJump?, State.undefinedJump?, agree.jumps, agree.labels]
    simp only [same, agree.report]
  · split
    · exact blind_throw _
    · exact blind_pure _

theorem blind_program : Blind program := by
  refine blind_bind (blind_writeHeaderLine _) fun _ => blind_bind (blind_writeHeaderLine _) fun _ =>
    blind_bind blind_skipNewlines fun _ => blind_bind (blind_iterate (fun _ => ?_) ()) fun _ =>
      blind_bind (blind_writeLine _) fun _ => blind_bind (blind_writeLine _) fun _ => blind_checkLabels
  refine blind_get_bind (fun s t agree => ?_) fun s => ?_
  · simp only [agree.current]
  · split
    · exact blind_pure _
    · exact blind_bind blind_statement fun _ => blind_pure _

/-! ## Whole sources -/

theorem start_agree (options options' : Options) (file source : String) :
    match start options file source, start options' file source with
    | .error fault, .error fault' => fault = fault'
    | .ok s, .ok t => Agree s t
    | _, _ => False := by
  unfold start
  cases Scanner.next (Scanner.start file source) with
  | error fault sc => rfl
  | ok current sc =>
    dsimp only
    cases Scanner.next sc with
    | error fault sc => rfl
    | ok ahead sc => exact ⟨rfl, rfl, rfl, rfl, rfl, rfl, rfl, rfl⟩

end Pass

/-- All of a compiled program but its body. -/
def Compiled.withoutBody (result : Compiled) : Compiled :=
  { result with output := { result.output with body := .empty } }

theorem Compiled.withoutBody_ofState {s t : Pass.State} (agree : Pass.Agree s t) (file : String) :
    (ofState file s).withoutBody = (ofState file t).withoutBody := by
  simp only [withoutBody, ofState, agree.header, agree.scanner, agree.statements, agree.vars, agree.labels]

/-- With other options a source is refused for the same reason, or compiles to a program that differs at
most in its body. -/
theorem compile_withoutBody (options options' : Options) (file source : String) :
    (compile options file source).map Compiled.withoutBody =
      (compile options' file source).map Compiled.withoutBody := by
  have begun := Pass.start_agree options options' file source
  unfold compile run
  revert begun
  cases Pass.start options file source with
  | error fault =>
    cases Pass.start options' file source with
    | error fault' => exact congrArg Except.error
    | ok t => exact False.elim
  | ok s =>
    cases Pass.start options' file source with
    | error fault' => exact False.elim
    | ok t =>
      intro agree
      have alike := Pass.blind_program s t agree
      revert alike
      dsimp only
      cases Pass.program s with
      | ok _ u =>
        cases Pass.program t with
        | ok _ v => exact fun alike => congrArg Except.ok (Compiled.withoutBody_ofState alike.2 file)
        | error fault v => exact False.elim
      | error fault u =>
        cases Pass.program t with
        | ok _ v => exact False.elim
        | error fault' v => exact fun alike => congrArg Except.error alike.1

end LineBasic
