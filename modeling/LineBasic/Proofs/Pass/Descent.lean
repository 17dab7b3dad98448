import LineBasic.Proofs.Pass.Rounds

/-!
# Recursive descent ends

A pass keeps a list of the open blocks where recursive descent would call itself: to read a block statement is to
read its head, then statements until its closing keyword comes up, and each of these statements in the same way. Here
descent is written down as it is, with loops and calls of itself that know of no progress; a `Limited` step gives up
when a loop has made too many rounds or calls are nested too deep. If the limit is above what is left to read it never
gives up, and it ends as the pass does (`completes_statement`, `completes_program`), in a value or in a diagnostic.
The loops inside a line, over operators and over newlines, end in the same way (`completes_chain`,
`completes_skipNewlines`) and are whole steps of the descent. So what is left to read bounds the rounds of every loop
and the depth of the recursion.
-/

namespace LineBasic.Pass

set_option autoImplicit false

variable {α β σ : Type}

/-! ## The body of a block -/

/-- The next statement of a body, unless the block is ended there. -/
def bodyRound (block : Block) (_ : Unit) : Pass (Option Unit) := do
  let s ← get
  if s.current.kind = .keyword block.closer then return none
  else if s.current.kind = .eof then throw (s.unexpected block.closer.spelling)
  else
    statement
    return some ()

theorem shrinking_bodyRound (block : Block) : Shrinking (bodyRound block) := by
  intro _ s
  refine handsOnFrom_get_bind ?_
  split
  · exact handsOnFrom_none s
  · refine handsOnFrom_of_progress ?_
    split
    · exact progressFrom_throw _ _
    · exact progressFrom_bind (progressFrom_statement s) fun _ => steady_pure _

/-- The statements of a body, up to the keyword that ends the block. -/
def body (block : Block) : Pass Unit := iterate (bodyRound block) (shrinking_bodyRound block) ()

theorem body_eq (block : Block) :
    body block = (do
      let s ← get
      if s.current.kind = .keyword block.closer then return ()
      else if s.current.kind = .eof then throw (s.unexpected block.closer.spelling)
      else
        statement
        body block) := by
  conv => lhs; rw [body, iterate_eq_bind, bodyRound, bind_assoc]
  congr 1
  funext s
  split
  · rw [pure_bind]
  · split
    · rfl
    · simp only [bind_assoc, pure_bind]
      rfl

theorem closeBlocks_singleton_eq (block : Block) :
    closeBlocks [block] = (do
      let s ← get
      if s.current.kind = .keyword block.closer then
        closingLine block
        newline
      else if s.current.kind = .eof then throw (s.unexpected block.closer.spelling)
      else
        statement
        closeBlocks [block]) := by
  conv => lhs; rw [closeBlocks_cons, blockMove, bind_assoc]
  congr 1
  funext s
  split
  · simp only [closingLine, bind_assoc, pure_bind, closeBlocks_nil, bind_pure_unit]
  · split
    · rfl
    · simp only [bind_assoc, pure_bind, closeBlocks_append, statement]

/-- An open block is closed by reading its body and then its last line. -/
theorem closeBlocks_singleton (block : Block) :
    closeBlocks [block] = (do body block; closingLine block; newline) := by
  funext s
  generalize left : s.remaining = n
  induction n using Nat.strongRecOn generalizing s with
  | ind n ih =>
    rw [closeBlocks_singleton_eq, body_eq, bind_assoc, get_bind_apply, get_bind_apply]
    by_cases closes : s.current.kind = .keyword block.closer
    · rw [if_pos closes, if_pos closes, pure_bind]
    · rw [if_neg closes, if_neg closes]
      by_cases ended : s.current.kind = .eof
      · rw [if_pos ended, if_pos ended]
        rfl
      · rw [if_neg ended, if_neg ended, bind_assoc, bind_apply, bind_apply]
        cases read : statement s with
        | error fault t => rfl
        | ok _ t => exact ih _ (left ▸ progressFrom_statement s read) t rfl

/-! ## Steps with a limit -/

/-- A step that may give up. -/
abbrev Limited := OptionT Pass

/-- From this state, a limited step does not give up: it ends as the whole step does. -/
def Completes (step : Limited α) (whole : Pass α) (s : State) : Prop := step.run s = (some <$> whole) s

section

variable {step : Limited α} {whole : Pass α} {next : α → Limited β} {rest : α → Pass β} {s t : State} {a : α}
  {fault : Diagnostic}

theorem map_some_ok (done : whole s = .ok a t) : (some <$> whole) s = .ok (some a) t := by
  simp only [Functor.map, EStateM.map, done]

theorem map_some_error (failed : whole s = .error fault t) : (some <$> whole) s = .error fault t := by
  simp only [Functor.map, EStateM.map, failed]

theorem run_bind_some (done : step.run s = .ok (some a) t) : (step >>= next).run s = (next a).run t := by
  rw [OptionT.run_bind, Option.elimM, bind_apply, done]
  rfl

theorem run_bind_error (failed : step.run s = .error fault t) : (step >>= next).run s = .error fault t := by
  rw [OptionT.run_bind, Option.elimM, bind_apply, failed]

theorem completes_pure (a : α) (s : State) : Completes (pure a) (pure a) s := rfl

theorem completes_lift (step : Pass α) (s : State) : Completes (liftM step) step s := by
  show (step >>= fun a => pure (some a)) s = _
  rw [bind_apply]
  cases done : step s with
  | ok a t => exact (map_some_ok done).symm
  | error fault t => exact (map_some_error done).symm

/-- Steps in sequence complete if each of them does, the later one from where the whole earlier one ends. -/
theorem completes_bind (first : Completes step whole s)
    (later : ∀ a t, whole s = .ok a t → Completes (next a) (rest a) t) :
    Completes (step >>= next) (whole >>= rest) s := by
  unfold Completes at *
  cases done : whole s with
  | ok a t =>
    have same : (whole >>= rest) s = rest a t := by rw [bind_apply, done]
    rw [run_bind_some (first.trans (map_some_ok done)), later a t done]
    cases ended : rest a t with
    | ok b u => rw [map_some_ok ended, map_some_ok (same.trans ended)]
    | error fault u => rw [map_some_error ended, map_some_error (same.trans ended)]
  | error fault t =>
    have same : (whole >>= rest) s = .error fault t := by rw [bind_apply, done]
    rw [run_bind_error (first.trans (map_some_error done)), map_some_error same]

theorem completes_lift_bind {first : Pass α}
    (later : ∀ a t, first s = .ok a t → Completes (next a) (rest a) t) :
    Completes (liftM first >>= next) (first >>= rest) s :=
  completes_bind (completes_lift first s) later

end

/-! ## Loops -/

namespace Limited

/-- A loop that gives up if it is not over after some rounds. -/
def loop (round : σ → Limited (Option σ)) : Nat → σ → Limited Unit
  | 0, _ => failure
  | rounds + 1, a => do
      match ← round a with
      | none => return
      | some b => loop round rounds b

end Limited

/-- A loop whose rounds progress is over when as many rounds were made as there is left to read. -/
theorem completes_loop {round : σ → Limited (Option σ)} {whole : σ → Pass (Option σ)}
    {shrinking : Shrinking whole} {n : Nat} {s : State} (enough : s.remaining < n) (a : σ)
    (rounds : ∀ a t, t.remaining ≤ s.remaining → Completes (round a) (whole a) t) :
    Completes (Limited.loop round n a) (iterate whole shrinking a) s := by
  induction n generalizing a s with
  | zero => cases enough
  | succ n ih =>
    have unrolled : iterate whole shrinking a = _ := iterate_eq_bind whole shrinking a
    rw [Limited.loop, unrolled]
    refine completes_bind (rounds a s (Nat.le_refl _)) fun handed t done => ?_
    cases handed with
    | none => exact completes_pure () t
    | some b =>
      have shorter := shrinking a s done
      exact ih (by omega) b fun c u less => rounds c u (by omega)

theorem completes_skipNewlines {n : Nat} {s : State} (enough : s.remaining < n) :
    Completes (Limited.loop (fun a => liftM (newlineRound a)) n ()) skipNewlines s :=
  completes_loop enough () fun a t _ => completes_lift (newlineRound a) t

theorem completes_chain {joins : Kind → Bool} {stops : joins .eof = false} {operand : Pass Unit}
    {steady : Steady operand} {n : Nat} {s : State} (enough : s.remaining < n) :
    Completes (Limited.loop (fun _ => liftM (link joins operand)) n ()) (chain joins stops operand steady) s :=
  completes_loop enough () fun _ t _ => completes_lift (link joins operand) t

/-! ## Descent -/

namespace Limited

/-- The next statement of a body, read by the step that is given. -/
def bodyRound (nested : Limited Unit) (block : Block) (_ : Unit) : Limited (Option Unit) := do
  let s ← (get : Pass State)
  if s.current.kind = .keyword block.closer then return none
  else if s.current.kind = .eof then (throw (s.unexpected block.closer.spelling) : Pass (Option Unit))
  else
    nested
    return some ()

/-- One statement. Loops may make a number of rounds, and calls may be nested to a depth. -/
def statement (rounds : Nat) : (depth : Nat) → Limited Unit
  | 0 => failure
  | depth + 1 => do
      beginStatement
      let s ← (get : Pass State)
      match statementRest? s.current.kind with
      | none =>
          (throw (s.report (.invalidStatement s.current.text s.current.kind.name) s.current.location) :
            Pass Unit)
      | some (.inl rest) =>
          advance
          rest
          newline
      | some (.inr block) =>
          advance
          blockHead block
          loop (bodyRound (statement rounds depth) block) rounds ()
          closingLine block
          newline

/-- The next statement of a program, unless it is over. -/
def statementRound (limit : Nat) (_ : Unit) : Limited (Option Unit) := do
  let s ← (get : Pass State)
  if s.current.kind = .eof then return none
  else
    statement limit limit
    return some ()

/-- A whole program, by descent with one limit for all loops and for the depth of calls. -/
def program (limit : Nat) : Limited Unit := do
  beforeLines
  loop (statementRound limit) limit ()
  afterLines

end Limited

theorem completes_body {nested : Limited Unit} {block : Block} {n : Nat} {s : State}
    (enough : s.remaining < n)
    (deeper : ∀ t, t.remaining ≤ s.remaining → Completes nested statement t) :
    Completes (Limited.loop (Limited.bodyRound nested block) n ()) (body block) s := by
  refine completes_loop enough () fun _ t less => ?_
  refine completes_lift_bind ?_
  rintro _ _ ⟨⟩
  split
  · exact completes_pure _ t
  · split
    · exact completes_lift _ t
    · exact completes_bind (deeper t less) fun _ u _ => completes_pure _ u

theorem beginStatement_remaining {s t : State} (done : beginStatement s = .ok () t) :
    t.remaining = s.remaining := by
  cases done
  dsimp only
  split <;> rfl

/-- Every nested call has less to read than the call that makes it, so the depth is bounded by what is left. -/
theorem completes_statement {rounds depth : Nat} {s : State} (enough : s.remaining < rounds)
    (deep : s.remaining < depth) : Completes (Limited.statement rounds depth) statement s := by
  induction depth generalizing s with
  | zero => cases deep
  | succ depth ih =>
    rw [statement, openStatement, bind_assoc, Limited.statement]
    refine completes_lift_bind fun _ r begun => ?_
    have same := beginStatement_remaining begun
    rw [dispatch, bind_assoc]
    refine completes_lift_bind ?_
    rintro _ _ ⟨⟩
    cases found : statementRest? r.current.kind with
    | none => exact completes_lift _ r
    | some rest =>
      have more : r.current.kind ≠ .eof := fun isEnd => by
        rw [isEnd, statementRest?_eof] at found
        cases found
      cases rest with
      | inl rest =>
        simp only [bind_assoc, pure_bind, Option.toList_none, closeBlocks_nil, bind_pure_unit]
        refine completes_lift_bind fun _ t _ => ?_
        refine completes_lift_bind fun _ u _ => ?_
        exact completes_lift newline u
      | inr block =>
        simp only [bind_assoc, pure_bind, Option.toList_some, closeBlocks_singleton]
        refine completes_lift_bind fun _ t moved => ?_
        refine completes_lift_bind fun _ u headed => ?_
        have shorter : u.remaining < s.remaining := by
          have := progressFrom_advance more moved
          have := steady_blockHead block headed
          omega
        refine completes_bind (completes_body (by omega) fun v less => ih (by omega) (by omega)) ?_
        intro _ v _
        exact completes_lift_bind fun _ w _ => completes_lift newline w

theorem completes_statements {limit : Nat} {s : State} (enough : s.remaining < limit) :
    Completes (Limited.loop (Limited.statementRound limit) limit ()) readStatements s := by
  refine completes_loop enough () fun _ t less => ?_
  refine completes_lift_bind ?_
  rintro _ _ ⟨⟩
  split
  · exact completes_pure _ t
  · exact completes_bind (completes_statement (by omega) (by omega)) fun _ u _ => completes_pure _ u

theorem steady_beforeLines : Steady beforeLines :=
  steady_bind (steady_modify fun _ => rfl) fun _ =>
    steady_bind (steady_modify fun _ => rfl) fun _ => steady_skipNewlines

theorem completes_program {limit : Nat} {s : State} (enough : s.remaining < limit) :
    Completes (Limited.program limit) program s := by
  rw [program_by_lines, readLines_eq, closeBlocks_nil, pure_bind, Limited.program]
  refine completes_lift_bind fun _ t done => ?_
  have less := steady_beforeLines done
  refine completes_bind (completes_statements (by omega)) fun _ u _ => ?_
  exact completes_lift afterLines u

end LineBasic.Pass
