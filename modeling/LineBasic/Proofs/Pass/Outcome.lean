import LineBasic.Proofs.Pass.Effect

/-!
# How a step can end

`Ends step s good bad` says that from the state `s` the step returns with `good`, or fails with a `bad`
diagnostic. Each way to put steps together has one rule for it. The rule for iteration lets what is
known grow from round to round: a round either ends it, or hands on to a state from which the rest of
the iteration does what is left.
-/

namespace LineBasic.Pass

set_option autoImplicit false

variable {α β σ γ : Type}

/-- The step returns with `good`, or fails with a diagnostic that is `bad`. -/
def Ends (step : Pass α) (s : State) (good : α → State → Prop) (bad : Diagnostic → Prop) : Prop :=
  match step s with
  | .ok a t => good a t
  | .error fault _ => bad fault

variable {step : Pass α} {s : State} {good good' : α → State → Prop} {bad : Diagnostic → Prop}

theorem ends_ok {a : α} {t : State} (ends : Ends step s good bad) (done : step s = .ok a t) :
    good a t := by
  unfold Ends at ends
  rwa [done] at ends

theorem ends_error {fault : Diagnostic} {t : State} (ends : Ends step s good bad)
    (failed : step s = .error fault t) : bad fault := by
  unfold Ends at ends
  rwa [failed] at ends

theorem ends_of_cases (returns : ∀ a t, step s = .ok a t → good a t)
    (fails : ∀ fault t, step s = .error fault t → bad fault) : Ends step s good bad := by
  unfold Ends
  split
  · exact returns _ _ ‹_›
  · exact fails _ _ ‹_›

/-- A weaker conclusion, for which the run itself may be used. -/
theorem Ends.mono (ends : Ends step s good bad)
    (weaken : ∀ a t, step s = .ok a t → good a t → good' a t) : Ends step s good' bad :=
  ends_of_cases (fun a t done => weaken a t done (ends_ok ends done))
    (fun _ _ failed => ends_error ends failed)

theorem ends_pure {a : α} (holds : good a s) : Ends (pure a) s good bad := holds

theorem ends_throw {fault : Diagnostic} (refused : bad fault) : Ends (throw fault) s good bad :=
  refused

theorem ends_get_bind {next : State → Pass α} (later : Ends (next s) s good bad) :
    Ends (get >>= next) s good bad := later

theorem ends_modify {change : State → State} {good : Unit → State → Prop}
    (holds : good () (change s)) : Ends (modify change) s good bad := holds

theorem ends_bind {next : α → Pass β} {good : β → State → Prop}
    (first : Ends step s (fun a t => Ends (next a) t good bad) bad) :
    Ends (step >>= next) s good bad := by
  unfold Ends at first ⊢
  rw [bind_apply]
  split at first <;> simp_all

/-- An iteration, step by step. `P` holds before each round, of what the round starts from and of
what is known by then; `Q` relates a start to the end that can be reached from it. -/
theorem ends_iterate {round : σ → Pass (Option σ)} {shrinking : Shrinking round}
    {P : γ → σ → State → Prop} {Q : γ → σ → State → State → Prop}
    (rounds : ∀ g a s, P g a s → Ends (round a) s
      (fun handed t => match handed with
        | none => Q g a s t
        | some b => ∃ g', P g' b t ∧ ∀ u, Q g' b t u → Q g a s u) bad)
    (g : γ) (a : σ) (s : State) (holds : P g a s) :
    Ends (iterate round shrinking a) s (fun _ t => Q g a s t) bad := by
  fun_induction iterate round shrinking a s generalizing g with
  | case1 a s t ended =>
    have := ends_ok (rounds g a s holds) ended
    unfold Ends
    rw [iterate_apply, ended]
    exact this
  | case2 a s b t handed ih =>
    obtain ⟨g', next, compose⟩ := ends_ok (rounds g a s holds) handed
    have := ih g' next
    unfold Ends at this ⊢
    rw [iterate_apply, handed]
    dsimp only
    split <;> simp_all
  | case3 a s fault t failed =>
    have := ends_error (rounds g a s holds) failed
    unfold Ends
    rw [iterate_apply, failed]
    exact this

end LineBasic.Pass
