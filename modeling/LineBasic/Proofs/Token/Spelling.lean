import LineBasic.Proofs.Pass.Stream

/-!
# How tokens are spelled

Every token that a scanner hands out is spelled as its kind demands (`stream_spelled`).
-/

namespace LineBasic

set_option autoImplicit false

def Token.IsSpelled (token : Token) : Prop := Spelled token.kind token.text.toList

theorem Token.IsSpelled.operator {token : Token} (spelled : token.IsSpelled) {op : Operator}
    (kind : token.kind = .operator op) : token.text = op.spelling := by
  unfold IsSpelled at spelled
  rw [kind] at spelled
  exact String.ext spelled

namespace Scanner

theorem next_spelled {sc sc' : Scanner} {token : Token} (step : next sc = .ok token sc') :
    token.IsSpelled := by
  obtain ⟨lexeme, found, rfl, -⟩ := next_ok step
  obtain ⟨rest, heads⟩ := Lexeme.read_heads found
  unfold Token.IsSpelled
  rw [String.toList_ofList]
  exact heads.spelled

/-- What holds of every token that is handed out holds of all tokens of a stream. -/
theorem stream_forall {P : Token → Prop}
    (each : ∀ {sc sc' : Scanner} {token : Token}, next sc = .ok token sc' → P token)
    (sc : Scanner) : ∀ token ∈ sc.stream.tokens, P token := by
  unfold stream
  dsimp only
  fun_induction drain sc with
  | case1 sc fault sc' failed => simp
  | case2 sc token sc' step isEnd => simpa using each step
  | case3 sc token sc' step more later ih => simpa using ⟨each step, ih⟩

theorem stream_spelled (sc : Scanner) : ∀ token ∈ sc.stream.tokens, token.IsSpelled :=
  stream_forall next_spelled sc

end Scanner

end LineBasic
