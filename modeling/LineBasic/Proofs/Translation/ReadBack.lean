import LineBasic.Proofs.C.Expr
import LineBasic.Proofs.Pass.Reached
import LineBasic.Proofs.Syntax.Unique
import LineBasic.Proofs.Translation.Expression

/-!
# C reads back what a pass writes

The text of an expression has no blanks. Still C splits it where its tokens were put together, and reads
it as the tree that the grammar gives these tokens; so it does with a condition, as long as its
comparisons bind equally (`written_text_reads_back`).
-/

namespace LineBasic

set_option autoImplicit false

open Syntax Pass

/-- C splits the text into tokens of which none is two operators run together, and reads them as the
tree. -/
def C.ReadsBack (text : String) (tree : C.Expr) : Prop :=
  ∃ tokens, C.lex none text.toList = some tokens ∧ (∀ token ∈ tokens, token.isFused = false) ∧
    C.read none [] tokens = some tree

theorem Syntax.Expression.readsBack {value : Expression}
    (well : ∀ primary ∈ value.primaries, primary.WellSpelled) : C.ReadsBack value.text value.cExpr :=
  ⟨value.cTokens, (lexes_expression well).whole, value.not_fused, (readsAs_expression value).whole⟩

theorem Syntax.Condition.readsBack {condition : Condition}
    (well : ∀ primary ∈ condition.primaries, primary.WellSpelled) (uniform : condition.Uniform) :
    C.ReadsBack condition.text condition.cExpr :=
  ⟨condition.cTokens, (lexes_condition well).whole, condition.not_fused, uniform.read⟩

theorem Pass.Took.allSpelled {s t : State} {tokens : List Token} (took : Took tokens s t)
    (spelled : s.Spelled) : AllSpelled tokens := by
  intro token member
  apply spelled
  rw [took.stream]
  exact List.mem_append_left _ member

/-- Wherever a pass stands, what it writes for an expression is read by C as the only tree of the tokens
that it took. So is what it writes for a condition, if all comparisons are of equality or all are of
order. -/
theorem written_text_reads_back {s t : State} (visited : Visited s) :
    (expression s = .ok () t →
      ∃ tokens, ∃ value : Expression, ∃ text,
        Expression.Reads tokens value ∧ s.stream.tokens = tokens ++ t.stream.tokens ∧
        (∀ other, Expression.Reads tokens other → other = value) ∧
        t.output.body.text = s.output.body.text ++ text ∧
        C.ReadsBack text value.cExpr) ∧
      (comparison s = .ok () t →
        ∃ tokens, ∃ condition : Condition, ∃ text,
          condition.Reads tokens ∧ s.stream.tokens = tokens ++ t.stream.tokens ∧
          (∀ other : Condition, other.Reads tokens → other = condition) ∧
          t.output.body.text = s.output.body.text ++ text ∧
          (condition.Uniform → C.ReadsBack text condition.cExpr)) := by
  have spelled := visited.spelled
  constructor
  · intro done
    obtain ⟨tokens, value, reads, turned⟩ := expression_reads spelled done
    have well := reads.wellSpelled (turned.allSpelled spelled)
    exact ⟨tokens, value, value.text, reads, turned.stream, fun _ => reads.eq, turned.body,
      Expression.readsBack well⟩
  · intro done
    obtain ⟨tokens, condition, reads, turned⟩ := comparison_reads spelled done
    have well := reads.wellSpelled (turned.allSpelled spelled)
    exact ⟨tokens, condition, condition.text, reads, turned.stream, fun _ => reads.eq, turned.body,
      Condition.readsBack well⟩

/-- A single operand is a term. -/
theorem Syntax.Operand.Reads.term {tokens : List Token} {operand : Operand}
    (reads : operand.Reads tokens) : Term.Reads tokens ⟨operand, []⟩ := by
  have term : Term.Reads (tokens ++ []) ⟨operand, []⟩ := .mk reads .nil
  rwa [List.append_nil] at term

/-- A single term is an expression. -/
theorem Syntax.Term.Reads.expression {tokens : List Token} {term : Term}
    (reads : Term.Reads tokens term) : Expression.Reads tokens ⟨term, []⟩ := by
  have value : Expression.Reads (tokens ++ []) ⟨term, []⟩ := .mk reads .nil
  rwa [List.append_nil] at value

/-- Two signs in a row, in a condition that compares twice. -/
theorem written_text_reads_back_chain :
    ∃ s t, Visited s ∧ comparison s = .ok () t ∧
      t.output.body.text = s.output.body.text ++ "x-(-1)<=x<3" ∧
      C.ReadsBack "x-(-1)<=x<3"
        (.binary (.relation .less)
          (.binary (.relation .atMost)
            (.binary (.sign .minus) (.name ['x']) (.paren (.signed .minus (.constant ['1']))))
            (.name ['x']))
          (.constant ['3'])) := by
  let x : Operand := ⟨none, .name "x"⟩
  let condition : Condition :=
    ⟨⟨⟨⟨x, []⟩, [(.minus, ⟨⟨some .minus, .number "1"⟩, []⟩)]⟩,
      [(.atMost, ⟨⟨x, []⟩, []⟩), (.less, ⟨⟨⟨none, .number "3"⟩, []⟩, []⟩)]⟩, nofun⟩
  let token (column : Int) (kind : Kind) (text : String) : Token := ⟨kind, text, ⟨"chain", 2, column⟩⟩
  let left := [token 4 .ident "x"] ++
    (token 5 (.operator .minus) "-" :: [token 6 (.operator .minus) "-", token 7 .number "1"] ++ [])
  let tokens := left ++ (token 8 (.operator .atMost) "<=" :: [token 10 .ident "x"] ++
    (token 11 (.operator .less) "<" :: [token 12 .number "3"] ++ []))
  have reads : condition.Reads tokens := by
    have second : Operand.Reads [token 10 .ident "x"] x := .plain (.name rfl)
    have third : Operand.Reads [token 12 .number "3"] ⟨none, .number "3"⟩ := .plain (.number rfl)
    have first : Expression.Reads left condition.first := by
      have operand : Operand.Reads [token 4 .ident "x"] x := .plain (.name rfl)
      have signed : Operand.Reads [token 6 (.operator .minus) "-", token 7 .number "1"]
        ⟨some .minus, .number "1"⟩ := .signed rfl (.number rfl)
      exact .mk operand.term (.cons rfl signed.term .nil)
    exact .mk first (.cons rfl second.term.expression (.cons rfl third.term.expression .nil))
  have computed : ((trace? {} "chain" "LET x = 3\nIF x--1<=x<3 THEN\nENDIF" [.statement, .advance]
      .comparison).any fun (s, t) => decide (s.stream.tokens = tokens ++ t.stream.tokens ∧
        t.output.body.text = s.output.body.text ++ "x-(-1)<=x<3")) = true := by
    decide +kernel
  obtain ⟨⟨s, t⟩, traced, holds⟩ := (Option.any_eq_true _ _).1 computed
  obtain ⟨reached, done⟩ := reached_of_trace? traced
  obtain ⟨stream, body⟩ := of_decide_eq_true holds
  obtain ⟨others, found, text, -, cut, unique, wrote, readsBack⟩ :=
    (written_text_reads_back reached.visited).2 done
  have same : tokens = others := List.append_cancel_right (stream.symm.trans cut)
  subst same
  have tree : condition = found := unique condition reads
  subst tree
  have written : "x-(-1)<=x<3" = text := String.append_right_inj _ |>.1 (body.symm.trans wrote)
  subst written
  have uniform : condition.Uniform := .inr (by decide)
  exact ⟨s, t, reached.visited, done, body, readsBack uniform⟩

end LineBasic
