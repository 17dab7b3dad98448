import LineBasic.Proofs.Pass.Closure

/-!
# The states that a pass can be in

A pass begins at the start of a source and takes steps; a step may fail, and the next one goes on in the
state that the failure left. `Reached` holds of all states that come about in this way, `Visited` also of
those that a step goes through. In each of them the tokens are spelled as their kinds demand.
-/

namespace LineBasic.Pass

set_option autoImplicit false

/-- The steps that a pass can be told to take. -/
inductive Step where
  | advance
  | expect (kind : Kind)
  | primary
  | unary
  | term
  | expression
  | comparison
  | newline
  | statement
  | checkLabels
  | program
  deriving DecidableEq

def Step.run : Step → Pass Unit
  | .advance => Pass.advance
  | .expect kind => do
      let _ ← Pass.expect kind
      return
  | .primary => Pass.primary
  | .unary => Pass.unary
  | .term => Pass.term
  | .expression => Pass.expression
  | .comparison => Pass.comparison
  | .newline => Pass.newline
  | .statement => Pass.statement
  | .checkLabels => Pass.checkLabels
  | .program => Pass.program

inductive Reached : State → Prop where
  | start {options : Options} {file source : String} {s : State}
      (started : Pass.start options file source = .ok s) : Reached s
  | step {s : State} (earlier : Reached s) (step : Step) : Reached (after step.run s)

/-- The states before and after a last step that succeeds. -/
def trace? (options : Options) (file source : String) (steps : List Step) (last : Step) :
    Option (State × State) :=
  match start options file source with
  | .error _ => none
  | .ok s =>
      let before := steps.foldl (fun s step => after step.run s) s
      match last.run before with
      | .error _ _ => none
      | .ok _ t => some (before, t)

theorem Reached.foldl {s : State} (reached : Reached s) (steps : List Step) :
    Reached (steps.foldl (fun s step => after step.run s) s) := by
  induction steps generalizing s with
  | nil => exact reached
  | cons step steps ih => exact ih (.step reached step)

theorem reached_of_trace? {options : Options} {file source : String} {steps : List Step} {last : Step}
    {s t : State} (traced : trace? options file source steps last = some (s, t)) :
    Reached s ∧ last.run s = .ok () t := by
  unfold trace? at traced
  split at traced
  · cases traced
  · rename_i first started
    dsimp only at traced
    split at traced
    · cases traced
    · rename_i done
      cases traced
      exact ⟨(Reached.start started).foldl steps, done⟩

/-- What lasts across all changes, the addition of the prologue among them, lasts across every step. -/
theorem Lasting.within_step {R : State → State → Prop} (lasting : Lasting R)
    (heads : ∀ s, ∀ text ∈ prologueLines, R s { s with output := s.output.addHeaderLine text })
    (step : Step) (s : State) : Within R step.run s := by
  cases step with
  | advance => exact lasting.moves s
  | expect kind =>
    exact lasting.within_bind (lasting.within_expect kind s) fun _ t _ => lasting.within_pure _ t
  | primary => exact lasting.within_primary s
  | unary => exact lasting.within_unary s
  | term => exact lasting.within_term s
  | expression => exact lasting.within_expression s
  | comparison => exact lasting.within_comparison s
  | newline => exact lasting.within_newline s
  | statement => exact lasting.within_statement s
  | checkLabels => exact lasting.within_checkLabels s
  | program => exact lasting.within_program heads s

variable {s : State}

/-- Both tokens that a pass holds are spelled as their kinds demand. -/
structure State.HoldsSpelled (s : State) : Prop where
  current : s.current.IsSpelled
  ahead : s.ahead.IsSpelled

theorem State.HoldsSpelled.spelled (holds : s.HoldsSpelled) : s.Spelled := by
  have cons {token : Token} {rest : Stream} (first : token.IsSpelled)
      (later : ∀ other ∈ rest.tokens, other.IsSpelled) :
      ∀ other ∈ (Stream.cons token rest).tokens, other.IsSpelled := by
    unfold Stream.cons
    split
    · exact List.forall_mem_singleton.2 first
    · exact List.forall_mem_cons.2 ⟨first, later⟩
  exact cons holds.current (cons holds.ahead (Scanner.stream_spelled _))

theorem holdsSpelled_advance (holds : s.HoldsSpelled) : (after advance s).HoldsSpelled := by
  unfold after advance
  cases step : Scanner.next s.scanner with
  | ok token sc => exact ⟨holds.ahead, Scanner.next_spelled step⟩
  | error fault sc => exact ⟨holds.ahead, holds.ahead⟩

theorem holdsSpelled_start {options : Options} {file source : String}
    (started : start options file source = .ok s) : s.HoldsSpelled := by
  obtain ⟨sc, first, second, -⟩ := start_ok started
  exact ⟨Scanner.next_spelled first, Scanner.next_spelled second⟩

/-! ## States inside a step -/

/-- The states that a pass goes through, those in the middle of a step among them: what any sequence of
single changes makes of a start. -/
inductive Visited : State → Prop where
  | start {options : Options} {file source : String} {s : State}
      (started : Pass.start options file source = .ok s) : Visited s
  | moved {s : State} (earlier : Visited s) : Visited (after advance s)
  | wrote {s : State} (earlier : Visited s) (text : String) :
      Visited { s with output := s.output.addBody text }
  | headed {s : State} (earlier : Visited s) (text : String) :
      Visited { s with output := s.output.addHeaderLine text }
  | counted {s : State} (earlier : Visited s) : Visited { s with statements := s.statements + 1 }
  | declared {s : State} (earlier : Visited s) (token : Token) :
      Visited { s with
        vars := s.vars.note token.text token.location
        output := s.output.addHeaderLine s!"float {token.text};" }
  | labelled {s : State} (earlier : Visited s) (token : Token) :
      Visited { s with labels := s.labels.note token.text token.location }
  | jumped {s : State} (earlier : Visited s) (token : Token) :
      Visited { s with jumps := s.jumps.note token.text token.location }

theorem lasting_visited : Lasting fun s t => Visited s → Visited t where
  refl _ := id
  trans first second := second ∘ first
  moves _ := .moved
  writes _ text earlier := .wrote earlier text
  counts _ := .counted
  declares reached _ _ _ earlier := .declared (reached earlier) _
  labels _ _ earlier := .labelled earlier _
  jumps _ earlier := .jumped earlier _

theorem Reached.visited (reached : Reached s) : Visited s := by
  induction reached with
  | start started => exact .start started
  | step _ step ih =>
    exact lasting_visited.within_step (fun _ text _ earlier => .headed earlier text) step _ ih

theorem Visited.spelled (visited : Visited s) : s.Spelled := by
  have holds : s.HoldsSpelled := by
    induction visited with
    | start started => exact holdsSpelled_start started
    | moved _ ih => exact holdsSpelled_advance ih
    | wrote _ _ ih | headed _ _ ih | counted _ ih | declared _ _ ih | labelled _ _ ih | jumped _ _ ih =>
      exact ⟨ih.current, ih.ahead⟩
  exact holds.spelled

theorem Reached.spelled (reached : Reached s) : s.Spelled := reached.visited.spelled

end LineBasic.Pass
