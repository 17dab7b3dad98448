import LineBasic.Pass.State

/-!
# Progress and iteration

A step is steady if it never gives back what was read, and it progresses from a state if it reads at
least one token there. `iterate` repeats a round as long as it hands something on; that this comes to
an end is shown by a proof, given with the round, that every such round progresses.
-/

namespace LineBasic.Pass

set_option autoImplicit false

variable {α β σ : Type}

/-- A step that never gives back what was read. -/
def Steady (step : Pass α) : Prop :=
  ∀ ⦃s a t⦄, step s = .ok a t → t.remaining ≤ s.remaining

/-- A step that reads at least one token from a state. -/
def ProgressFrom (s : State) (step : Pass α) : Prop :=
  ∀ ⦃a t⦄, step s = .ok a t → t.remaining < s.remaining

/-! ## Steps in sequence -/

theorem bind_apply (step : Pass α) (next : α → Pass β) (s : State) :
    (step >>= next) s =
      match step s with
      | .ok a t => next a t
      | .error fault t => .error fault t := by
  simp only [bind, EStateM.bind]
  cases step s <;> rfl

theorem bind_ok {step : Pass α} {next : α → Pass β} {s t : State} {b : β}
    (done : (step >>= next) s = .ok b t) : ∃ a r, step s = .ok a r ∧ next a r = .ok b t := by
  rw [bind_apply] at done
  split at done
  · exact ⟨_, _, ‹_›, done⟩
  · cases done

theorem steady_pure (a : α) : Steady (pure a : Pass α) := by
  intro s b t done
  cases done
  exact Nat.le_refl _

theorem steady_throw (fault : Diagnostic) : Steady (throw fault : Pass α) := by
  intro s b t done
  cases done

theorem steady_get : Steady (get : Pass State) := by
  intro s b t done
  cases done
  exact Nat.le_refl _

theorem steady_bind {step : Pass α} {next : α → Pass β} (first : Steady step)
    (later : ∀ a, Steady (next a)) : Steady (step >>= next) := by
  intro s b t done
  obtain ⟨a, r, hfirst, hlater⟩ := bind_ok done
  exact Nat.le_trans (later a hlater) (first hfirst)

/-- A step that looks at the state and then acts on what it saw. -/
theorem steady_get_bind {next : State → Pass β}
    (later : ∀ s, Steady (next s)) : Steady (get >>= next) :=
  steady_bind steady_get later

theorem steady_modify {change : State → State}
    (kept : ∀ s, (change s).remaining = s.remaining) : Steady (modify change : Pass Unit) := by
  intro s b t done
  cases done
  exact Nat.le_of_eq (kept s)

theorem progressFrom_bind {step : Pass α} {next : α → Pass β} {s : State}
    (first : ProgressFrom s step) (later : ∀ a, Steady (next a)) :
    ProgressFrom s (step >>= next) := by
  intro b t done
  obtain ⟨a, r, hfirst, hlater⟩ := bind_ok done
  exact Nat.lt_of_le_of_lt (later a hlater) (first hfirst)

theorem progressFrom_get_bind {next : State → Pass β} {s : State}
    (later : ProgressFrom s (next s)) : ProgressFrom s (get >>= next) := later

theorem progressFrom_throw (s : State) (fault : Diagnostic) :
    ProgressFrom s (throw fault : Pass α) := by
  intro b t done
  cases done

/-- A step that only writes leaves the progress to the step after it. -/
theorem progressFrom_modify_bind {change : State → State} {next : Unit → Pass β} {s : State}
    (kept : (change s).remaining = s.remaining) (later : ProgressFrom (change s) (next ())) :
    ProgressFrom s (modify change >>= next) := by
  intro b t done
  have := later (show next () (change s) = .ok b t from done)
  omega

/-! ## The primitive steps -/

theorem steady_write (text : String) : Steady (write text) := steady_modify fun _ => rfl

theorem steady_writeLine (text : String) : Steady (writeLine text) := steady_modify fun _ => rfl

/-- Moving on pays for the current token. -/
theorem advance_remaining {s t : State} (done : advance s = .ok () t) :
    t.remaining + Scanner.weight s.current ≤ s.remaining := by
  unfold advance at done
  split at done
  · rename_i token sc step
    cases done
    have := Scanner.next_rest_length step
    simp only [State.remaining]
    omega
  · cases done

theorem steady_advance : Steady advance := by
  intro s _ t done
  have := advance_remaining done
  omega

theorem progressFrom_advance {s : State} (more : s.current.kind ≠ .eof) :
    ProgressFrom s advance := by
  intro _ t done
  have := advance_remaining done
  simp only [Scanner.weight, more, if_false] at this
  omega

theorem steady_expect (kind : Kind) : Steady (expect kind) := by
  refine steady_get_bind fun s => ?_
  split
  · exact steady_bind steady_advance fun _ => steady_pure _
  · exact steady_throw _

theorem progressFrom_expect {kind : Kind} (more : kind ≠ .eof) (s : State) :
    ProgressFrom s (expect kind) := by
  refine progressFrom_get_bind ?_
  split
  · rename_i same
    exact progressFrom_bind (progressFrom_advance (same ▸ more)) fun _ => steady_pure _
  · exact progressFrom_throw _ _

/-! ## Iteration -/

/-- A step that reads at least one token from a state if it hands something on. -/
def HandsOnFrom (s : State) (step : Pass (Option σ)) : Prop :=
  ∀ ⦃b t⦄, step s = .ok (some b) t → t.remaining < s.remaining

theorem handsOnFrom_get_bind {next : State → Pass (Option σ)} {s : State}
    (later : HandsOnFrom s (next s)) : HandsOnFrom s (get >>= next) := later

theorem handsOnFrom_none (s : State) : HandsOnFrom s (pure none : Pass (Option σ)) := by
  intro b t done
  cases done

theorem handsOnFrom_of_progress {step : Pass (Option σ)} {s : State}
    (progress : ProgressFrom s step) : HandsOnFrom s step := fun _ _ done => progress done

/-- A round that progresses whenever it hands something on. -/
def Shrinking (round : σ → Pass (Option σ)) : Prop :=
  ∀ a s, HandsOnFrom s (round a)

/-- Repeats a round, each time from what the last one handed on, until one hands on nothing. -/
def iterate (round : σ → Pass (Option σ)) (shrinking : Shrinking round) (a : σ) (s : State) :
    EStateM.Result Diagnostic State Unit :=
  match _ : round a s with
  | .ok none t => .ok () t
  | .ok (some b) t => iterate round shrinking b t
  | .error fault t => .error fault t
termination_by s.remaining
decreasing_by exact shrinking _ _ ‹_›

theorem iterate_apply (round : σ → Pass (Option σ)) (shrinking : Shrinking round) (a : σ)
    (s : State) :
    iterate round shrinking a s =
      match round a s with
      | .ok none t => .ok () t
      | .ok (some b) t => iterate round shrinking b t
      | .error fault t => .error fault t := by
  rw [iterate]
  split <;> simp_all

/-- An iteration is its first round, followed by the iteration from what that round hands on. -/
theorem iterate_eq_bind (round : σ → Pass (Option σ)) (shrinking : Shrinking round) (a : σ) :
    (iterate round shrinking a : Pass Unit) =
      round a >>= fun handed =>
        match handed with
        | none => pure ()
        | some b => iterate round shrinking b := by
  funext s
  rw [iterate_apply, bind_apply]
  cases round a s with
  | ok handed t => cases handed <;> rfl
  | error fault t => rfl

theorem steady_iterate {round : σ → Pass (Option σ)} (shrinking : Shrinking round)
    (steady : ∀ a, Steady (round a)) (a : σ) : Steady (iterate round shrinking a) := by
  intro s _ t done
  fun_induction iterate round shrinking a s with
  | case1 a s r hround => cases done; exact steady a hround
  | case2 a s b r hround ih => exact Nat.le_trans (ih done) (steady a hround)
  | case3 => cases done

end LineBasic.Pass
