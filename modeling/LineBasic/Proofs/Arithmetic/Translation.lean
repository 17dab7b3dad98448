import LineBasic.Proofs.Arithmetic.Truncation
import LineBasic.Proofs.Pass.Reached
import LineBasic.Proofs.Syntax.Spelling
import LineBasic.Proofs.Syntax.Unique
import LineBasic.Proofs.Translation.Expression

/-!
# The value of a translated expression

What a pass writes for an expression is worth in C the exact value of the expression less its loss. So
the value is kept exactly if the losses of its terms cancel (`expression_value_kept_iff`). It is not
always kept: the quotient of two integers loses its fraction.
-/

namespace LineBasic

set_option autoImplicit false

namespace Syntax

/-- Two operands without signs. -/
theorem Term.reads_pair {left mark right : Token} {x y : Primary} {scale : Scale}
    (first : x.Reads left) (kind : mark.kind = .operator scale.operator) (second : y.Reads right) :
    Term.Reads [left, mark, right] ⟨⟨none, x⟩, [(scale, ⟨none, y⟩)]⟩ := by
  have rest : Chain.RestReads Scale.operator Operand.Reads (mark :: [right] ++ []) [(scale, ⟨none, y⟩)] :=
    .cons kind (.plain second) .nil
  show Chain.Reads _ _ ([left] ++ (mark :: [right] ++ [])) _
  exact .mk (.plain first) rest

end Syntax

open Syntax Pass

/-! ## Expressions of a pass -/

/-- The text that is written for an expression has its value exactly if the losses of its terms cancel.
A term loses nothing exactly if it is zero or its quotients of integers come out even. -/
theorem expression_value_kept_iff {s t : State} (reached : Reached s)
    (done : expression s = .ok () t) :
    ∃ tokens, ∃ value : Expression, ∃ text,
      Expression.Reads tokens value ∧ s.stream.tokens = tokens ++ t.stream.tokens ∧
      (∀ other, Expression.Reads tokens other → other = value) ∧
      t.output.body.text = s.output.body.text ++ text ∧
      (value.PlainLiterals → ∀ (env : String → ℚ) (exact : ℚ), value.value? env = some exact →
        ∃ result, C.value? env text = some result ∧
          exact = result.toRat + value.loss env ∧
          (result.toRat = exact ↔ value.loss env = 0) ∧
          ∀ term ∈ value.terms,
            (term.loss env = 0 ↔ term.value? env = some 0 ∨ term.dividesEvenly = true)) := by
  obtain ⟨tokens, value, reads, turned⟩ := expression_reads reached.spelled done
  have spelled : AllSpelled tokens := by
    intro token member
    apply reached.spelled
    rw [turned.stream]
    exact List.mem_append_left _ member
  have well := reads.wellSpelled spelled
  refine ⟨tokens, value, value.text, reads, turned.stream, fun _ => reads.eq, turned.body, ?_⟩
  intro plain env exact valued
  obtain ⟨result, typed, splits, terms⟩ := Expression.exists_cValue? valued
  refine ⟨result, (value?_text well plain).trans typed, splits, ?_, ?_⟩
  · rw [splits, left_eq_add]
  · intro term member
    obtain ⟨y, known⟩ := terms term member
    rw [Term.loss_eq_zero_iff known, known, Option.some_inj]

/-- Both quotients are cut off, by as much. -/
theorem expression_value_kept_sum :
    ∃ s t, Reached s ∧ expression s = .ok () t ∧
      t.output.body.text = s.output.body.text ++ "x*2+7/2-1/2" ∧
      ∃ result, C.value? (fun _ => 3) "x*2+7/2-1/2" = some result ∧ result.toRat = 9 := by
  let value : Expression :=
    ⟨⟨⟨none, .name "x"⟩, [(.times, ⟨none, .number "2"⟩)]⟩,
      [(.plus, ⟨⟨none, .number "7"⟩, [(.divide, ⟨none, .number "2"⟩)]⟩),
        (.minus, ⟨⟨none, .number "1"⟩, [(.divide, ⟨none, .number "2"⟩)]⟩)]⟩
  let token (column : Int) (kind : Kind) (text : String) : Token := ⟨kind, text, ⟨"sum", 2, column⟩⟩
  let tokens : List Token :=
    [token 7 .ident "x", token 8 (.operator .times) "*", token 9 .number "2"] ++
      (token 10 (.operator .plus) "+" ::
        [token 11 .number "7", token 12 (.operator .divide) "/", token 13 .number "2"] ++
      (token 14 (.operator .minus) "-" ::
        [token 15 .number "1", token 16 (.operator .divide) "/", token 17 .number "2"] ++ []))
  have reads : Expression.Reads tokens value :=
    Chain.Reads.mk (Term.reads_pair (.name rfl) rfl (.number rfl))
      (.cons rfl (Term.reads_pair (.number rfl) rfl (.number rfl))
        (.cons rfl (Term.reads_pair (.number rfl) rfl (.number rfl)) .nil))
  have computed : ((trace? {} "sum" "LET x = 3\nPRINT x*2+7/2-1/2" [.statement, .advance]
      .expression).any fun (s, t) => decide (s.stream.tokens = tokens ++ t.stream.tokens ∧
        t.output.body.text = s.output.body.text ++ "x*2+7/2-1/2")) = true := by
    decide +kernel
  obtain ⟨⟨s, t⟩, traced, holds⟩ := (Option.any_eq_true _ _).1 computed
  obtain ⟨reached, done⟩ := reached_of_trace? traced
  obtain ⟨stream, body⟩ := of_decide_eq_true holds
  obtain ⟨others, found, text, -, cut, unique, wrote, kept⟩ := expression_value_kept_iff reached done
  have same : tokens = others := List.append_cancel_right (stream.symm.trans cut)
  subst same
  have tree : value = found := unique value reads
  subst tree
  have written : "x*2+7/2-1/2" = text := String.append_right_inj _ |>.1 (body.symm.trans wrote)
  subst written
  obtain ⟨result, typed, -, iff, -⟩ := kept (by decide +kernel) (fun _ => 3) 9 (by decide +kernel)
  exact ⟨s, t, reached, done, body, result, typed, iff.2 (by decide +kernel)⟩

/-- The quotient of two integers is not kept. -/
theorem quotient_of_integers_not_kept :
    ∃ s t tokens, ∃ value : Expression, ∃ text env exact result,
      Reached s ∧ expression s = .ok () t ∧
      Expression.Reads tokens value ∧ s.stream.tokens = tokens ++ t.stream.tokens ∧
      t.output.body.text = s.output.body.text ++ text ∧ value.PlainLiterals ∧
      value.value? env = some exact ∧ C.value? env text = some result ∧ result.toRat ≠ exact := by
  let value : Expression := ⟨⟨⟨none, .number "1"⟩, [(.divide, ⟨none, .number "2"⟩)]⟩, []⟩
  let token (column : Int) (kind : Kind) (text : String) : Token := ⟨kind, text, ⟨"half", 1, column⟩⟩
  let tokens : List Token :=
    [token 7 .number "1", token 8 (.operator .divide) "/", token 9 .number "2"] ++ []
  have reads : Expression.Reads tokens value :=
    Chain.Reads.mk (Term.reads_pair (.number rfl) rfl (.number rfl)) .nil
  have computed : ((trace? {} "half" "PRINT 1/2" [.advance] .expression).any fun (s, t) =>
      decide (s.stream.tokens = tokens ++ t.stream.tokens ∧
        t.output.body.text = s.output.body.text ++ "1/2")) = true := by
    decide +kernel
  obtain ⟨⟨s, t⟩, traced, holds⟩ := (Option.any_eq_true _ _).1 computed
  obtain ⟨reached, done⟩ := reached_of_trace? traced
  obtain ⟨stream, body⟩ := of_decide_eq_true holds
  exact ⟨s, t, tokens, value, "1/2", fun _ => 0, 1 / 2, .int 0, reached, done, reads, stream, body,
    by decide +kernel, by decide +kernel, by decide +kernel, by decide +kernel⟩

end LineBasic
