import LineBasic.Proofs.C.Constant
import LineBasic.Proofs.Pass.Reached

/-!
# The value of a number in C

A number is written into the C program as it stands in the source. C reads it with the same value, except if
it has a leading zero and no point: then it is octal there, and means the same only if it is worth less than
eight (`number_value_kept_iff`).
-/

namespace LineBasic

set_option autoImplicit false

open Pass

/-- Whether it can move on or not, a pass has written the number that it is at. -/
theorem body_after_number {s : State} (number : s.current.kind = .number) :
    (after primary s).output.body.text = s.output.body.text ++ s.current.text := by
  have written : primary s = advance { s with output := s.output.addBody s.current.text } := by
    unfold primary
    rw [bind_apply]
    dsimp only [get, getThe, MonadStateOf.get, EStateM.get]
    rw [number]
    rfl
  rw [after, written, advance]
  dsimp only
  cases Scanner.next s.scanner with
  | ok token sc => rfl
  | error fault sc => rfl

/-- A number that a scanner hands out is written as it stands. The text is a constant of C, unless it has a
leading zero, no point and a digit that octal numbers do not have. As a constant it is worth what it is worth
in decimal, unless it has a leading zero, no point and a value of eight or more. -/
theorem number_value_kept_iff {sc : Scanner} {token : Token} (handed : token ∈ sc.stream.tokens)
    (number : token.kind = .number) {s : State} (current : s.current = token) :
    (after primary s).output.body.text = s.output.body.text ++ token.text ∧
      ((∃ x, C.Denotes token.text.toList x) ↔
        '.' ∈ token.text.toList ∨ token.text.toList.head? ≠ some '0' ∨
          ∀ c ∈ token.text.toList, C.isOctal c = true) ∧
      ∀ x, C.Denotes token.text.toList x →
        (x = numeral token.text.toList ↔
          '.' ∈ token.text.toList ∨ token.text.toList.head? ≠ some '0' ∨
            numeral token.text.toList < 8) := by
  have written : Numeral token.text.toList := by
    have spelled := Scanner.stream_spelled sc token handed
    unfold Token.IsSpelled at spelled
    rwa [number] at spelled
  subst current
  refine ⟨body_after_number number, C.exists_denotes_iff written, ?_⟩
  intro x denotes
  rw [← C.denotes_numeral_iff written]
  constructor
  · rintro rfl
    exact denotes
  · exact denotes.unique

/-- Leading zeros before a point change nothing. -/
theorem number_value_kept_zeros :
    ∃ (sc : Scanner) (token : Token) (s : State), token ∈ sc.stream.tokens ∧ token.kind = .number ∧
      s.current = token ∧ (after primary s).output.body.text = s.output.body.text ++ "007.50" ∧
      C.Denotes "007.50".toList (15 / 2) := by
  let token : Token := ⟨.number, "007.50", ⟨"zeros", 1, 7⟩⟩
  have handed : token ∈ (Scanner.start "zeros" "PRINT 007.50").stream.tokens := by decide +kernel
  have traced : ((trace? {} "zeros" "PRINT 007.50" [.advance] .primary).any fun run =>
      decide (run.1.current = token)) = true := by
    decide +kernel
  obtain ⟨⟨s, _⟩, -, holds⟩ := (Option.any_eq_true _ _).1 traced
  have current : s.current = token := of_decide_eq_true holds
  obtain ⟨body, valid, value⟩ := number_value_kept_iff handed rfl current
  obtain ⟨x, denotes⟩ := valid.2 (.inl (by decide))
  have kept : x = 15 / 2 := ((value x denotes).2 (.inl (by decide))).trans (by decide +kernel)
  exact ⟨_, token, s, handed, rfl, current, body, kept ▸ denotes⟩

/-- A leading zero makes a number octal in C: the text of ten is worth eight there, and that of eight is no
constant at all. -/
theorem leading_zero_not_kept :
    (∃ s t, Reached s ∧ primary s = .ok () t ∧ s.current.kind = .number ∧ s.current.text = "010" ∧
      t.output.body.text = s.output.body.text ++ "010" ∧
      numeral "010".toList = 10 ∧ C.Denotes "010".toList 8 ∧ ¬ C.Denotes "010".toList 10) ∧
    ∃ s t, Reached s ∧ primary s = .ok () t ∧ s.current.kind = .number ∧ s.current.text = "08" ∧
      t.output.body.text = s.output.body.text ++ "08" ∧ ∀ x, ¬ C.Denotes "08".toList x := by
  have ten : ((trace? {} "zeros" "PRINT 010" [.advance] .primary).any fun run =>
      decide (run.1.current.kind = .number ∧ run.1.current.text = "010" ∧
        run.2.output.body.text = run.1.output.body.text ++ "010")) = true := by
    decide +kernel
  have eight : ((trace? {} "zeros" "PRINT 08" [.advance] .primary).any fun run =>
      decide (run.1.current.kind = .number ∧ run.1.current.text = "08" ∧
        run.2.output.body.text = run.1.output.body.text ++ "08")) = true := by
    decide +kernel
  constructor
  · obtain ⟨⟨s, t⟩, traced, holds⟩ := (Option.any_eq_true _ _).1 ten
    obtain ⟨reached, done⟩ := reached_of_trace? traced
    obtain ⟨kind, text, body⟩ := of_decide_eq_true holds
    have octal : C.Denotes "010".toList 8 := @C.Denotes.octal ['1', '0'] (by simp [C.isOctal])
    refine ⟨s, t, reached, done, kind, text, body, by decide +kernel, octal, ?_⟩
    intro decimal
    exact absurd (octal.unique decimal) (by decide)
  · obtain ⟨⟨s, t⟩, traced, holds⟩ := (Option.any_eq_true _ _).1 eight
    obtain ⟨reached, done⟩ := reached_of_trace? traced
    obtain ⟨kind, text, body⟩ := of_decide_eq_true holds
    refine ⟨s, t, reached, done, kind, text, body, ?_⟩
    intro x denotes
    have value := denotes.constant?
    exact absurd value (by simp [C.constant?, C.whole?, C.isOctal])

end LineBasic
