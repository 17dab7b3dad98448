import LineBasic.Proofs.Diagnosis.Standing
import LineBasic.Proofs.Translation.Expression

/-!
# Expressions go as far as the grammar goes

Each step for an expression takes the pass from before an operand to after one, or refuses the first
token that cannot stand there or the first variable that was not set. It stops at a token that the
chains it reads do not take.
-/

namespace LineBasic.Pass

set_option autoImplicit false

open Grammar

variable {origin : Scanner} {pending : List Token} {p : Point} {goal : Goal} {blocks : List Block}
  {s : State}

/-- Before an operand, with or without its sign: what must come is a number or a variable. -/
structure NeedsPrimary (goal : Goal) (blocks : List Block) (p : Point) (kind : Kind) : Prop where
  apart : ∀ assigns, p.stage ≠ .name assigns
  leads : p.next kind = Point.afterPrimary goal blocks kind
  expects : p.expectation kind = some "NUMBER or IDENT"

theorem needsPrimary_signed (goal : Goal) (blocks : List Block) (kind : Kind) :
    NeedsPrimary goal blocks ⟨.signed goal, blocks⟩ kind := ⟨nofun, rfl, rfl⟩

theorem needsPrimary_operand {text : Bool} {kind : Kind} (unsigned : kind.isSign = false)
    (unquoted : text = true → kind ≠ .string) :
    NeedsPrimary goal blocks ⟨.operand goal text, blocks⟩ kind := by
  refine ⟨nofun, ?_, rfl⟩
  have none : ¬ (text = true ∧ kind = .string) := fun both => unquoted both.1 both.2
  rw [Point.next, unsigned, if_neg Bool.false_ne_true, if_neg none]

theorem ends_primary (here : InLine origin pending p s)
    (needs : NeedsPrimary goal blocks p s.current.kind) :
    Ends primary s (fun _ t => InLine origin pending ⟨.joined goal, blocks⟩ t) (Refused origin) := by
  refine ends_get_bind ?_
  cases kind : s.current.kind with
  | number =>
    rw [kind] at needs
    refine ends_bind (ends_modify ?_)
    have wrote := turned_write s.current.text s
    refine (here.turned wrote).ends_advance needs.apart ?_ ?_ ?_ ?_
    · rw [wrote.current_eq, kind, needs.leads]
      rfl
    all_goals simp [kind]
  | ident =>
    rw [kind] at needs
    dsimp only
    by_cases known : s.vars.has s.current.text = true
    · rw [if_pos known]
      refine ends_bind (ends_modify ?_)
      have wrote := turned_write s.current.text s
      refine (here.turned wrote).ends_advance needs.apart ?_ ?_ ?_ ?_
      · rw [wrote.current_eq, kind, needs.leads]
        rfl
      · simp [kind]
      · simp [kind]
      · exact fun _ => known
    · rw [if_neg known]
      obtain ⟨before, stands, accounted, -⟩ := here
      obtain ⟨after, split, ahead⟩ := stands.split
      have plain := plain_of_run stands.leads needs.apart
      rw [stands.report]
      have leads : Point.start.run ((before ++ [s.current]).map (·.kind)) =
          some ⟨.joined goal, blocks⟩ := by
        rw [List.map_append, List.map_singleton, Point.run_concat, stands.leads, Option.bind_some, kind,
          needs.leads]
        rfl
      refine ends_throw (.misnamed split ahead accounted.clean ?_ leads)
      have unset : (variablesOf before).has s.current.text = false := by
        rw [variablesOf, ← accounted.vars]
        exact Bool.eq_false_iff.2 known
      rw [violation?_plain plain, undeclared?, if_pos ⟨kind, unset⟩, variablesOf, accounted.vars]
  | _ =>
    obtain ⟨before, stands, -⟩ := here
    refine ends_throw (stands.unexpected ?_ needs.expects)
    rw [needs.leads, kind]
    rfl

/-- A step that reads an item: from before an operand to after one, at a token where it stops. -/
def ReadsOver (origin : Scanner) (pending : List Token) (blocks : List Block) (goal : Goal)
    (stops : Kind → Prop) (step : Pass Unit) : Prop :=
  ∀ ⦃s text⦄, InLine origin pending ⟨.operand goal text, blocks⟩ s →
    (text = true → s.current.kind ≠ .string) →
    Ends step s (fun _ t => InLine origin pending ⟨.joined goal, blocks⟩ t ∧ stops t.current.kind)
      (Refused origin)

theorem ends_unary : ReadsOver origin pending blocks goal (fun _ => True) unary := by
  intro s text here unquoted
  refine ends_get_bind ?_
  by_cases signs : s.current.kind.isSign = true
  · rw [if_pos signs]
    refine ends_bind (ends_modify ?_)
    have wrote := turned_write ("(" ++ s.current.text) s
    obtain ⟨sign, kind⟩ := sign_of_isSign signs
    refine ends_bind (((here.turned wrote).ends_advance (q := ⟨.signed goal, blocks⟩) nofun ?_ ?_ ?_
      ?_).mono fun _ r _ there => ?_)
    · rw [wrote.current_eq, Point.next, if_pos signs]
    · simp [kind]
    · simp [kind]
    · simp [kind]
    · refine ends_bind ((ends_primary there (needsPrimary_signed _ _ _)).mono fun _ u _ after => ?_)
      exact ends_modify ⟨after.turned (turned_write ")" u), trivial⟩
  · rw [if_neg signs]
    have unsigned := Bool.eq_false_iff.2 signs
    exact (ends_primary here (needsPrimary_operand unsigned unquoted)).mono
      fun _ _ _ after => ⟨after, trivial⟩

section Chains

variable {joins : Kind → Bool} {stops : Kind → Prop} {step : Pass Unit} {earlier : Goal}

/-- One more item, if an operator that joins comes first. -/
theorem ends_link
    (operators : ∀ kind, joins kind = true → ∃ op, kind = .operator op)
    (leads : ∀ kind, joins kind = true →
      Point.next ⟨.joined earlier, blocks⟩ kind = some ⟨.operand goal false, blocks⟩)
    (item : ReadsOver origin pending blocks goal stops step)
    (here : InLine origin pending ⟨.joined earlier, blocks⟩ s) :
    Ends (link joins step) s
      (fun handed t => match handed with
        | none => t = s ∧ joins s.current.kind = false
        | some _ => InLine origin pending ⟨.joined goal, blocks⟩ t ∧ stops t.current.kind)
      (Refused origin) := by
  refine ends_get_bind ?_
  by_cases joined : joins s.current.kind = true
  · rw [if_pos joined]
    refine ends_bind (ends_modify ?_)
    have wrote := turned_write s.current.text s
    obtain ⟨op, kind⟩ := operators _ joined
    refine ends_bind (((here.turned wrote).ends_advance nofun (leads _ ?_) ?_ ?_ ?_).mono
      fun _ r _ there => ?_)
    · rwa [wrote.current_eq]
    · simp [kind]
    · simp [kind]
    · simp [kind]
    · exact ends_bind ((item there nofun).mono fun _ u _ after => ends_pure after)
  · rw [if_neg joined]
    exact ends_pure ⟨rfl, Bool.eq_false_iff.2 joined⟩

theorem ends_chain {halts : joins .eof = false} {steady : Steady step}
    (operators : ∀ kind, joins kind = true → ∃ op, kind = .operator op)
    (leads : ∀ kind, joins kind = true →
      Point.next ⟨.joined goal, blocks⟩ kind = some ⟨.operand goal false, blocks⟩)
    (item : ReadsOver origin pending blocks goal stops step)
    (here : InLine origin pending ⟨.joined goal, blocks⟩ s) (stopped : stops s.current.kind) :
    Ends (chain joins halts step steady) s
      (fun _ t => InLine origin pending ⟨.joined goal, blocks⟩ t ∧ stops t.current.kind ∧
        joins t.current.kind = false)
      (Refused origin) := by
  refine ends_iterate (γ := Unit)
    (P := fun _ _ s => InLine origin pending ⟨.joined goal, blocks⟩ s ∧ stops s.current.kind)
    (Q := fun _ _ _ t => InLine origin pending ⟨.joined goal, blocks⟩ t ∧ stops t.current.kind ∧
        joins t.current.kind = false) ?_ () () s ⟨here, stopped⟩
  rintro - - s ⟨here, stopped⟩
  refine (ends_link operators leads item here).mono fun handed t _ after => ?_
  cases handed with
  | none =>
    obtain ⟨rfl, apart⟩ := after
    exact ⟨here, stopped, apart⟩
  | some _ => exact ⟨(), after, fun _ ended => ended⟩

end Chains

/-! ## The levels -/

theorem ends_term :
    ReadsOver origin pending blocks goal (fun kind => kind.isScale = false) term := by
  intro s text here unquoted
  refine ends_bind ((ends_unary here unquoted).mono fun _ r _ there => ?_)
  refine (ends_chain ?_ ?_ ends_unary there.1 trivial).mono
    fun _ t _ after => ⟨after.1, after.2.2⟩
  · intro kind scales
    obtain ⟨scale, same⟩ := scale_of_isScale scales
    exact ⟨_, same⟩
  · intro kind scales
    rw [Point.next, if_pos (.inl scales)]

/-- Where an expression stops. -/
def StopsExpression (kind : Kind) : Prop := kind.isScale = false ∧ kind.isSign = false

theorem ends_expression :
    ReadsOver origin pending blocks goal StopsExpression expression := by
  intro s text here unquoted
  refine ends_bind ((ends_term here unquoted).mono fun _ r _ there => ?_)
  refine (ends_chain ?_ ?_ ends_term there.1 there.2).mono
    fun _ t _ after => ⟨after.1, after.2⟩
  · intro kind signs
    obtain ⟨sign, same⟩ := sign_of_isSign signs
    exact ⟨_, same⟩
  · intro kind signs
    rw [Point.next, if_pos (.inr signs)]

/-- Where an expression stops, the position looks for what may follow the expression. -/
theorem next_of_stopsExpression {kind : Kind} (stops : StopsExpression kind) :
    Point.next ⟨.joined goal, blocks⟩ kind = Point.afterExpression blocks goal kind := by
  have apart : ¬ (kind.isScale = true ∨ kind.isSign = true) := by simp [stops.1, stops.2]
  rw [Point.next, if_neg apart]

theorem leads_of_isComparison (block : Block) (compared : Bool) (blocks : List Block) {kind : Kind}
    (compares : kind.isComparison = true) :
    Point.next ⟨.joined (.condition block compared), blocks⟩ kind =
      some ⟨.operand (.condition block true) false, blocks⟩ := by
  obtain ⟨relation, rfl⟩ := relation_of_isComparison compares
  cases relation <;> rfl

/-- A condition ends after a comparison, at a token that no expression and no comparison takes. -/
theorem ends_comparison {block : Block}
    (here : InLine origin pending ⟨.operand (.condition block false) false, blocks⟩ s) :
    Ends comparison s
      (fun _ t => InLine origin pending ⟨.joined (.condition block true), blocks⟩ t ∧
        StopsExpression t.current.kind ∧ t.current.kind.isComparison = false)
      (Refused origin) := by
  have operators (kind : Kind) (compares : kind.isComparison = true) : ∃ op, kind = .operator op := by
    obtain ⟨relation, same⟩ := relation_of_isComparison compares
    exact ⟨_, same⟩
  refine ends_bind ((ends_expression here nofun).mono fun _ r _ there => ends_get_bind ?_)
  obtain ⟨there, stops⟩ := there
  by_cases compares : r.current.kind.isComparison = true
  · rw [if_pos compares]
    -- The first comparison changes what the expression is read for, the others do not.
    unfold chain
    rw [iterate_eq_bind]
    refine ends_bind ((ends_link operators (fun _ => leads_of_isComparison block false blocks)
      ends_expression there).mono fun handed t _ after => ?_)
    cases handed with
    | none => rw [compares] at after; cases after.2
    | some _ =>
      show Ends (chain Kind.isComparison rfl expression steady_expression) t _ _
      exact ends_chain operators (fun _ => leads_of_isComparison block true blocks) ends_expression
        after.1 after.2
  · rw [if_neg compares]
    obtain ⟨before, stands, -⟩ := there
    refine ends_throw (stands.unexpected ?_ rfl)
    rw [next_of_stopsExpression stops, Point.afterExpression, if_neg compares, if_neg (by simp)]

end LineBasic.Pass
