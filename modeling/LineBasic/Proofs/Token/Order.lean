import LineBasic.Proofs.Token.Spelling

/-!
# Tokens stand in the order of their places

A cursor only moves forward, and a token that is not the end moves it by at least one character. So the
places of the tokens of a source increase strictly, by line and then by column, and a place tells which
token stands there. A step that fails does not go back either.
-/

namespace LineBasic

set_option autoImplicit false

/-- The order of places in one text. -/
def Location.Precedes (a b : Location) : Prop :=
  a.line < b.line ∨ a.line = b.line ∧ a.column < b.column

theorem Location.Precedes.ne {a b : Location} (precedes : a.Precedes b) : a ≠ b := by
  rintro rfl
  unfold Precedes at precedes
  omega

namespace Cursor

/-- A cursor that is not before another one. -/
def Reaches (c d : Cursor) : Prop := c.line < d.line ∨ c.line = d.line ∧ c.column ≤ d.column

theorem reaches_refl (c : Cursor) : c.Reaches c := .inr ⟨rfl, Nat.le_refl _⟩

theorem Reaches.trans {c d e : Cursor} (first : c.Reaches d) (second : d.Reaches e) : c.Reaches e := by
  unfold Reaches at *
  omega

theorem advance_cons {c : Cursor} {char : Char} {rest : List Char} (text : c.rest = char :: rest) :
    c.advance.line = c.line + 1 ∨ c.advance.line = c.line ∧ c.advance.column = c.column + 1 := by
  unfold advance
  rw [text]
  by_cases newline : char = '\n'
  · subst newline
    exact .inl rfl
  · right
    split <;> simp_all

theorem reaches_advance (c : Cursor) : c.Reaches c.advance := by
  cases text : c.rest with
  | nil =>
    have : c.advance = c := by simp [advance, text]
    rw [this]
    exact reaches_refl c
  | cons char rest =>
    have := advance_cons text
    unfold Reaches
    omega

theorem reaches_skip (n : Nat) (c : Cursor) : c.Reaches (c.skip n) := by
  induction n generalizing c with
  | zero => exact reaches_refl c
  | succ n ih => exact (reaches_advance c).trans (ih c.advance)

/-- Passing at least one character moves a cursor on. -/
theorem skip_precedes {n : Nat} {c : Cursor} (some : 0 < n) (more : 0 < c.rest.length) :
    c.line < (c.skip n).line ∨ c.line = (c.skip n).line ∧ c.column < (c.skip n).column := by
  obtain ⟨n, rfl⟩ := Nat.exists_eq_succ_of_ne_zero (Nat.pos_iff_ne_zero.1 some)
  obtain ⟨char, rest, text⟩ := List.exists_cons_of_length_pos more
  have first := advance_cons text
  have later := reaches_skip n c.advance
  unfold Reaches at later
  rw [skip]
  omega

end Cursor

namespace Scanner

theorem reaches_skipGap (c : Cursor) : c.Reaches (skipGap c) := by
  have blanks : c.Reaches (skipBlanks c) := Cursor.reaches_skip _ c
  unfold skipGap skipComment
  split
  · exact blanks.trans (Cursor.reaches_skip _ _)
  · exact blanks

/-- A token stands at or after the cursor, and the cursor is behind it when it was handed out. -/
theorem next_location {sc sc' : Scanner} {token : Token} (step : next sc = .ok token sc') :
    ∃ here, sc.cursor.Reaches here ∧ token.location = sc.locate here ∧
      (token.kind ≠ .eof →
        here.line < sc'.cursor.line ∨
          here.line = sc'.cursor.line ∧ here.column < sc'.cursor.column) := by
  obtain ⟨lexeme, found, rfl, rfl⟩ := next_ok step
  refine ⟨skipGap sc.cursor, reaches_skipGap _, rfl, fun more => ?_⟩
  rcases Lexeme.read_width found with isEnd | ⟨wide, text⟩
  · exact absurd isEnd more
  · exact Cursor.skip_precedes wide text

/-- No token of a stream stands before the cursor. -/
theorem stream_reached (sc : Scanner) :
    ∀ token ∈ sc.stream.tokens, ∃ c : Cursor, sc.cursor.Reaches c ∧
      token.location.line = c.line ∧ token.location.column = c.column := by
  unfold stream
  dsimp only
  fun_induction drain sc with
  | case1 sc fault sc' failed => simp
  | case2 sc token sc' step isEnd =>
    obtain ⟨here, reached, place, -⟩ := next_location step
    simp only [List.mem_singleton, forall_eq, place]
    exact ⟨here, reached, rfl, rfl⟩
  | case3 sc token sc' step more later ih =>
    obtain ⟨here, reached, place, passed⟩ := next_location step
    have moved := passed more
    intro other member
    rcases List.mem_cons.1 member with rfl | member
    · rw [place]
      exact ⟨here, reached, rfl, rfl⟩
    · obtain ⟨c, behind, line, column⟩ := ih other member
      refine ⟨c, ?_, line, column⟩
      unfold Cursor.Reaches at *
      omega

theorem stream_sorted (sc : Scanner) :
    sc.stream.tokens.Pairwise fun a b => a.location.Precedes b.location := by
  unfold stream
  dsimp only
  fun_induction drain sc with
  | case1 sc fault sc' failed => exact .nil
  | case2 sc token sc' step isEnd => exact List.pairwise_singleton _ _
  | case3 sc token sc' step more later ih =>
    obtain ⟨here, reached, place, passed⟩ := next_location step
    have moved := passed more
    refine List.pairwise_cons.2 ⟨fun other member => ?_, ih⟩
    obtain ⟨c, behind, line, column⟩ := stream_reached sc' other member
    unfold Location.Precedes Cursor.Reaches at *
    rw [place, line, column]
    simp only [locate]
    omega

/-- No two tokens of a stream stand at one place. -/
theorem location_ne_of_split {sc : Scanner} {before after : List Token} {token : Token}
    (split : sc.stream.tokens = before ++ token :: after) :
    ∀ other ∈ before ++ after, other.location ≠ token.location := by
  have sorted := sc.stream_sorted
  rw [split, List.pairwise_append, List.pairwise_cons] at sorted
  obtain ⟨-, ⟨behind, -⟩, ahead⟩ := sorted
  intro other member
  rcases List.mem_append.1 member with earlier | later
  · exact (ahead other earlier token List.mem_cons_self).ne
  · exact (behind other later).ne.symm

end Scanner

/-! ## No step goes back -/

namespace Cursor

theorem pos_le_advance (c : Cursor) : c.pos ≤ c.advance.pos := by
  unfold advance
  split
  · exact Nat.le_refl _
  · exact Nat.le_succ _
  · exact Nat.le_succ _

theorem pos_le_skip (n : Nat) (c : Cursor) : c.pos ≤ (c.skip n).pos := by
  induction n generalizing c with
  | zero => exact Nat.le_refl _
  | succ n ih => exact (pos_le_advance c).trans (ih c.advance)

end Cursor

namespace Scanner

theorem pos_le_skipGap (c : Cursor) : c.pos ≤ (skipGap c).pos := by
  have blanks : c.pos ≤ (skipBlanks c).pos := Cursor.pos_le_skip _ c
  unfold skipGap skipComment
  split
  · exact blanks.trans (Cursor.pos_le_skip _ _)
  · exact blanks

/-- A step of the scanner, also one that fails, goes neither back in the text nor in the count. -/
def MovesOn (sc sc' : Scanner) : Prop := sc.cursor.pos ≤ sc'.cursor.pos ∧ sc.count ≤ sc'.count

theorem movesOn_of_ok {sc sc' : Scanner} {token : Token} (step : next sc = .ok token sc') :
    sc.MovesOn sc' := by
  obtain ⟨lexeme, -, -, rfl⟩ := next_ok step
  refine ⟨(pos_le_skipGap _).trans (Cursor.pos_le_skip _ _), ?_⟩
  dsimp only
  split
  · exact Nat.le_refl _
  · exact Nat.le_succ _

theorem movesOn_of_error {sc sc' : Scanner} {fault : Diagnostic} (step : next sc = .error fault sc') :
    sc.MovesOn sc' := by
  obtain ⟨misread, -, -, rfl⟩ := next_error step
  exact ⟨(pos_le_skipGap _).trans (Cursor.pos_le_skip _ _), Nat.le_refl _⟩

end Scanner

end LineBasic
