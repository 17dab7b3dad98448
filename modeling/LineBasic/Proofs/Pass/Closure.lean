import LineBasic.Proofs.Pass.Outcome

/-!
# What every step keeps

A pass changes its state in few ways: it moves on, adds to the body, enters a variable with its
declaration, enters a label or a jump, counts a statement. A relation of states that holds across each
of these, and from a state to itself, and in sequence, is `Lasting`; it then holds across every
step, also one that fails, whatever it has done by then. A relation that only the count of statements
breaks is `LineLasting`, and holds across the steps within a statement.

A variable is entered some time after its name was read, so the relation is asked for from the state in
which the name was the current token.
-/

namespace LineBasic.Pass

set_option autoImplicit false

variable {α β σ : Type}

/-- The state in which a step ends, whether it returns or fails. -/
def after (step : Pass α) (s : State) : State :=
  match step s with
  | .ok _ t => t
  | .error _ t => t

/-- A relation that every change keeps to that is made after a statement was counted. -/
structure LineLasting (R : State → State → Prop) : Prop where
  refl (s : State) : R s s
  trans {s r t : State} (first : R s r) (second : R r t) : R s t
  moves (s : State) : R s (after advance s)
  writes (s : State) (text : String) : R s { s with output := s.output.addBody text }
  declares {r s : State} (earlier : R r s) (named : r.current.kind = .ident)
    (free : r.current.text ∉ Reserved.forVariables) (fresh : s.vars.has r.current.text = false) :
    R r { s with
      vars := s.vars.note r.current.text r.current.location
      output := s.output.addHeaderLine s!"float {r.current.text};" }
  labels {s : State} {token : Token} (free : token.text ∉ Reserved.forLabels)
    (fresh : s.labels.get? token.text = none) :
    R s { s with labels := s.labels.note token.text token.location }
  jumps {s : State} {token : Token} (free : token.text ∉ Reserved.forLabels) :
    R s { s with jumps := s.jumps.note token.text token.location }

/-- A relation that every change a pass makes keeps to. -/
structure Lasting (R : State → State → Prop) : Prop extends LineLasting R where
  counts (s : State) : R s { s with statements := s.statements + 1 }

/-- The lines that a program begins with. -/
def prologueLines : List String := ["#include <stdio.h>", "int main(void)\x7b"]

/-- The step keeps to the relation from this state. -/
def Within (R : State → State → Prop) (step : Pass α) (s : State) : Prop := R s (after step s)

theorem within_ok {R : State → State → Prop} {step : Pass α} {a : α} {s t : State}
    (within : Within R step s) (done : step s = .ok a t) : R s t := by
  unfold Within after at within
  rwa [done] at within

namespace LineLasting

variable {R : State → State → Prop} (lasting : LineLasting R) {s : State}

/-! ## Steps in sequence -/

include lasting

theorem within_pure (a : α) (s : State) : Within R (pure a) s := lasting.refl s

theorem within_throw (fault : Diagnostic) (s : State) : Within R (throw fault : Pass α) s :=
  lasting.refl s

omit lasting in
/-- Steps in sequence, seen from an earlier state. -/
theorem after_bind {r : State} {step : Pass α} {next : α → Pass β} (first : R r (after step s))
    (later : ∀ a t, step s = .ok a t → R r t → R r (after (next a) t)) :
    R r (after (step >>= next) s) := by
  unfold after at *
  rw [bind_apply]
  cases done : step s with
  | ok a t =>
    rw [done] at first
    exact later a t done first
  | error fault t =>
    rw [done] at first
    exact first

theorem within_bind {step : Pass α} {next : α → Pass β} (first : Within R step s)
    (later : ∀ a t, step s = .ok a t → Within R (next a) t) : Within R (step >>= next) s :=
  after_bind first fun a t done reached => lasting.trans reached (later a t done)

omit lasting in
theorem within_get_bind {next : State → Pass α} (later : Within R (next s) s) :
    Within R (get >>= next) s := later

theorem within_iterate {round : σ → Pass (Option σ)} {shrinking : Shrinking round}
    (rounds : ∀ a s, Within R (round a) s) (a : σ) (s : State) :
    Within R (iterate round shrinking a) s := by
  fun_induction iterate round shrinking a s with
  | case1 a s t ended =>
    have := rounds a s
    unfold Within after at *
    rw [iterate_apply]
    simpa only [ended] using this
  | case2 a s b t handed ih =>
    have := rounds a s
    unfold Within after at *
    rw [iterate_apply]
    rw [handed] at this
    simpa only [handed] using lasting.trans this ih
  | case3 a s fault t failed =>
    have := rounds a s
    unfold Within after at *
    rw [iterate_apply]
    simpa only [failed] using this

/-! ## Expressions -/

theorem within_advance (s : State) : Within R advance s := lasting.moves s

theorem within_write (text : String) (s : State) : Within R (write text) s := lasting.writes s text

theorem within_writeLine (text : String) (s : State) : Within R (writeLine text) s :=
  lasting.writes s (text ++ "\n")

theorem within_expect (kind : Kind) (s : State) : Within R (expect kind) s := by
  show Within R (if s.current.kind = kind then _ else _) s
  split
  · exact lasting.within_bind (lasting.moves s) fun _ t _ => lasting.within_pure _ t
  · exact lasting.within_throw _ s

theorem within_primary (s : State) : Within R primary s := by
  have taken : Within R (do write s.current.text; advance) s :=
    lasting.within_bind (lasting.within_write _ s) fun _ t _ => lasting.moves t
  refine within_get_bind ?_
  split
  · exact taken
  · split
    · exact taken
    · exact lasting.within_throw _ s
  · exact lasting.within_throw _ s

theorem within_unary (s : State) : Within R unary s := by
  show Within R (if s.current.kind.isSign then _ else _) s
  split
  · refine lasting.within_bind (lasting.within_write _ s) fun _ r _ => ?_
    refine lasting.within_bind (lasting.moves r) fun _ u _ => ?_
    exact lasting.within_bind (lasting.within_primary u) fun _ t _ => lasting.within_write _ t
  · exact lasting.within_primary s

theorem within_chain {joins : Kind → Bool} {stops : joins .eof = false} {operand : Pass Unit}
    {steady : Steady operand} (item : ∀ s, Within R operand s) (s : State) :
    Within R (chain joins stops operand steady) s := by
  refine lasting.within_iterate (fun _ s => ?_) () s
  show Within R (if joins s.current.kind then _ else _) s
  split
  · refine lasting.within_bind (lasting.within_write _ s) fun _ r _ => ?_
    refine lasting.within_bind (lasting.moves r) fun _ u _ => ?_
    exact lasting.within_bind (item u) fun _ t _ => lasting.within_pure _ t
  · exact lasting.within_pure _ s

theorem within_term (s : State) : Within R term s :=
  lasting.within_bind (lasting.within_unary s) fun _ t _ => lasting.within_chain lasting.within_unary t

theorem within_expression (s : State) : Within R expression s :=
  lasting.within_bind (lasting.within_term s) fun _ t _ => lasting.within_chain lasting.within_term t

theorem within_comparison (s : State) : Within R comparison s := by
  refine lasting.within_bind (lasting.within_expression s) fun _ t _ => ?_
  show Within R (if t.current.kind.isComparison then _ else _) t
  split
  · exact lasting.within_chain lasting.within_expression t
  · exact lasting.within_throw _ t

/-! ## Statements -/

theorem within_skipNewlines (s : State) : Within R skipNewlines s := by
  refine lasting.within_iterate (fun _ s => ?_) () s
  show Within R (if s.current.kind = .newline then _ else _) s
  split
  · exact lasting.within_bind (lasting.moves s) fun _ t _ => lasting.within_pure _ t
  · exact lasting.within_pure _ s

theorem within_newline (s : State) : Within R newline s :=
  lasting.within_bind (lasting.within_expect _ s) fun _ t _ => lasting.within_skipNewlines t

omit lasting in
/-- A name that was taken is the current token and none of the reserved names. -/
theorem freeName_ok {reserved : List String} {token : Token} {t : State}
    (done : freeName reserved s = .ok token t) :
    token = s.current ∧ s.current.kind = .ident ∧ token.text ∉ reserved := by
  unfold freeName at done
  obtain ⟨found, r, taken, done⟩ := bind_ok done
  obtain ⟨_, u, allowed, done⟩ := bind_ok done
  cases done
  obtain ⟨rfl, kind, -⟩ := turned_expect (by simp) taken
  refine ⟨rfl, kind, ?_⟩
  unfold refuseReserved at allowed
  obtain ⟨seen, v, got, allowed⟩ := bind_ok allowed
  split at allowed
  · cases allowed
  · rename_i apart
    exact fun member => apart (List.contains_iff_mem.2 member)

theorem within_freeName (reserved : List String) (s : State) : Within R (freeName reserved) s := by
  refine lasting.within_bind (lasting.within_expect _ s) fun token r _ => ?_
  refine lasting.within_bind ?_ fun _ t _ => lasting.within_pure _ t
  show Within R (if reserved.contains token.text then _ else _) r
  split
  · exact lasting.within_throw _ r
  · exact lasting.within_pure _ r

/-- The name that was current in an earlier state is entered. -/
theorem after_declare {r : State} (earlier : R r s) (named : r.current.kind = .ident)
    (free : r.current.text ∉ Reserved.forVariables) : R r (after (declare r.current) s) := by
  show R r (if s.vars.has r.current.text then _ else _)
  split
  · exact earlier
  · rename_i unknown
    exact lasting.declares earlier named free (Bool.eq_false_iff.2 unknown)

theorem within_printRest (s : State) : Within R printRest s := by
  show Within R (if s.current.kind = .string then _ else _) s
  split
  · exact lasting.within_bind (lasting.within_writeLine _ s) fun _ t _ => lasting.moves t
  · refine lasting.within_bind (lasting.within_write _ s) fun _ r _ => ?_
    exact lasting.within_bind (lasting.within_expression r) fun _ t _ => lasting.within_writeLine _ t

theorem within_labelRest (s : State) : Within R labelRest s := by
  refine lasting.within_bind (lasting.within_freeName _ s) fun token r named => ?_
  refine lasting.within_bind ?_ fun _ t _ => lasting.within_writeLine _ t
  refine within_get_bind ?_
  split
  · exact lasting.within_throw _ r
  · exact lasting.labels (freeName_ok named).2.2 ‹_›

theorem within_gotoRest (s : State) : Within R gotoRest s := by
  refine lasting.within_bind (lasting.within_freeName _ s) fun token r named => ?_
  exact lasting.within_bind (lasting.jumps (freeName_ok named).2.2) fun _ t _ =>
    lasting.within_writeLine _ t

theorem within_letRest (s : State) : Within R letRest s := by
  refine after_bind (lasting.within_freeName _ s) fun token r taken reached => ?_
  obtain ⟨rfl, named, free⟩ := freeName_ok taken
  refine after_bind (lasting.trans reached (lasting.within_write _ r)) fun _ u _ reached => ?_
  refine after_bind (lasting.trans reached (lasting.within_expect _ u)) fun _ v _ reached => ?_
  refine after_bind (lasting.trans reached (lasting.within_expression v)) fun _ w _ reached => ?_
  refine after_bind (lasting.trans reached (lasting.within_writeLine _ w)) fun _ t _ reached => ?_
  exact lasting.after_declare reached named free

theorem within_inputRest (s : State) : Within R inputRest s := by
  refine after_bind (lasting.within_freeName _ s) fun token r taken reached => ?_
  obtain ⟨rfl, named, free⟩ := freeName_ok taken
  refine after_bind (lasting.after_declare reached named free) fun _ u _ reached => ?_
  refine lasting.trans reached ?_
  refine lasting.within_bind (lasting.within_writeLine _ u) fun _ v _ => ?_
  refine lasting.within_bind (lasting.within_writeLine _ v) fun _ w _ => ?_
  exact lasting.within_bind (lasting.within_writeLine _ w) fun _ t _ => lasting.within_writeLine _ t

theorem within_statementRest {kind : Kind} {rest : Pass Unit}
    (found : statementRest? kind = some (.inl rest)) (s : State) : Within R rest s := by
  unfold statementRest? at found
  split at found <;> cases found
  · exact lasting.within_printRest s
  · exact lasting.within_labelRest s
  · exact lasting.within_gotoRest s
  · exact lasting.within_letRest s
  · exact lasting.within_inputRest s

theorem within_blockHead (block : Block) (s : State) : Within R (blockHead block) s := by
  refine lasting.within_bind (lasting.within_write _ s) fun _ r _ => ?_
  refine lasting.within_bind (lasting.within_comparison r) fun _ u _ => ?_
  refine lasting.within_bind (lasting.within_expect _ u) fun _ v _ => ?_
  exact lasting.within_bind (lasting.within_writeLine _ v) fun _ t _ => lasting.within_newline t

end LineLasting

namespace Lasting

variable {R : State → State → Prop} (lasting : Lasting R)

include lasting

theorem within_beginStatement (s : State) : Within R beginStatement s := by
  show R s (if s.options.lineComments then _ else _)
  split
  · exact lasting.trans (lasting.counts s) (lasting.writes _ _)
  · exact lasting.counts s

theorem within_dispatch (s : State) : Within R dispatch s := by
  refine LineLasting.within_get_bind ?_
  split
  · exact lasting.within_throw _ s
  · rename_i rest found
    refine lasting.within_bind (lasting.moves s) fun _ r _ => ?_
    refine lasting.within_bind (lasting.within_statementRest found r) fun _ u _ => ?_
    exact lasting.within_bind (lasting.within_newline u) fun _ t _ => lasting.within_pure _ t
  · rename_i block found
    refine lasting.within_bind (lasting.moves s) fun _ r _ => ?_
    exact lasting.within_bind (lasting.within_blockHead block r) fun _ t _ => lasting.within_pure _ t

theorem within_openStatement (s : State) : Within R openStatement s :=
  lasting.within_bind (lasting.within_beginStatement s) fun _ t _ => lasting.within_dispatch t

theorem within_blockMove (block : Block) (outer : List Block) (s : State) :
    Within R (blockMove block outer) s := by
  show Within R (if s.current.kind = .keyword block.closer then _
    else if s.current.kind = .eof then _ else _) s
  split
  · refine lasting.within_bind (lasting.within_expect _ s) fun _ r _ => ?_
    refine lasting.within_bind (lasting.within_writeLine _ r) fun _ u _ => ?_
    exact lasting.within_bind (lasting.within_newline u) fun _ t _ => lasting.within_pure _ t
  · split
    · exact lasting.within_throw _ s
    · exact lasting.within_bind (lasting.within_openStatement s) fun _ t _ => lasting.within_pure _ t

theorem within_closeBlocks (blocks : List Block) (s : State) : Within R (closeBlocks blocks) s := by
  refine lasting.within_iterate (fun blocks s => ?_) blocks s
  cases blocks with
  | nil => exact lasting.within_pure _ s
  | cons block outer =>
    exact lasting.within_bind (lasting.within_blockMove block outer s) fun _ t _ =>
      lasting.within_pure _ t

theorem within_statement (s : State) : Within R statement s :=
  lasting.within_bind (lasting.within_openStatement s) fun opened t _ =>
    lasting.within_closeBlocks opened.toList t

/-- All statements of a program. -/
theorem within_statements (s : State) :
    Within R (iterate statementRound shrinking_statementRound ()) s := by
  refine lasting.within_iterate (fun _ s => ?_) () s
  show Within R (if s.current.kind = .eof then _ else _) s
  split
  · exact lasting.within_pure _ s
  · exact lasting.within_bind (lasting.within_statement s) fun _ t _ => lasting.within_pure _ t

theorem within_checkLabels (s : State) : Within R checkLabels s := by
  refine LineLasting.within_get_bind ?_
  split
  · exact lasting.within_throw _ s
  · exact lasting.within_pure _ s

/-- A whole pass, for a relation that also allows the prologue to be added to the header. -/
theorem within_program
    (heads : ∀ s, ∀ text ∈ prologueLines, R s { s with output := s.output.addHeaderLine text })
    (s : State) : Within R program s := by
  refine lasting.within_bind (heads s _ (.head _)) fun _ p _ => ?_
  refine lasting.within_bind (heads p _ (.tail _ (.head _))) fun _ q _ => ?_
  refine lasting.within_bind (lasting.within_skipNewlines q) fun _ r _ => ?_
  refine lasting.within_bind (lasting.within_statements r) fun _ u _ => ?_
  refine lasting.within_bind (lasting.within_writeLine _ u) fun _ v _ => ?_
  exact lasting.within_bind (lasting.within_writeLine _ v) fun _ t _ => lasting.within_checkLabels t

end Lasting

end LineBasic.Pass
