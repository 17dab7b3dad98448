import LineBasic.Proofs.Source.Lines
import LineBasic.Proofs.Token.Lossless

/-!
# Tokens on their lines

The place of a token is where its lexeme begins: in the text, and at its column of the line that the text
is cut in (`Token.Placed`, `Token.Placed.shown`). A line end stands behind the last column of its line, and
the end of the text at the start of an empty line.
-/

namespace LineBasic

set_option autoImplicit false

/-- A lexeme stands at a column of a line. Columns are counted from one. -/
def StandsAt (lexeme line : List Char) (column : Int) : Prop :=
  lexeme ≠ [] ∧ 1 ≤ column ∧ lexeme <+: line.drop (column - 1).toNat

theorem standsAt_lineAt {lexeme : List Char} (wide : lexeme ≠ []) (inside : '\n' ∉ lexeme)
    (file : String) (passed rest : List Char) :
    StandsAt lexeme (lineAt passed (lexeme ++ rest)) (placeAfter file passed).column := by
  have column : ((placeAfter file passed).column - 1).toNat = (openLine passed).length := by
    show (1 + ((openLine passed).length : Int) - 1).toNat = _
    omega
  refine ⟨wide, ?_, ?_⟩
  · show 1 ≤ 1 + ((openLine passed).length : Int)
    omega
  · rw [column, lineAt, List.drop_left, List.takeWhile_append_of_pos (ne_newline_of_not_mem inside)]
    exact List.prefix_append _ _

/-! ## Tokens -/

/-- How a token shows on a line at a column. -/
def Token.Shown (token : Token) (line : List Char) (column : Int) : Prop :=
  match token.kind with
  | .newline => column = line.length + 1
  | .eof => line = [] ∧ column = 1
  | _ => StandsAt token.lexeme line column

/-- A token as it stands in the text of a file, with the texts on its two sides. -/
structure Token.Placed (file : String) (text : List Char) (token : Token) (passed rest : List Char) :
    Prop where
  cut : text = passed ++ (token.lexeme ++ rest)
  place : token.location = placeAfter file passed
  spelled : token.IsSpelled
  ended : token.kind = .eof → rest = []

/-- In a text whose last line is finished, a token shows at its place. -/
theorem Token.Placed.shown {file : String} {text passed rest : List Char} {token : Token}
    (placed : token.Placed file text passed rest) (closed : openLine text = []) :
    token.Shown (lineAt passed (token.lexeme ++ rest)) token.location.column := by
  have column : token.location.column = 1 + (openLine passed).length := by rw [placed.place]; rfl
  unfold Shown
  split
  · rename_i kind
    rw [placed.spelled.newline_lexeme kind, column, lineAt]
    simp
    omega
  · rename_i kind
    have cut := placed.cut
    rw [placed.spelled.eof_lexeme kind, placed.ended kind, List.append_nil, List.append_nil] at cut
    rw [placed.spelled.eof_lexeme kind, placed.ended kind, column, lineAt, ← cut, closed]
    simp
  · rename_i more text
    rw [placed.place]
    exact standsAt_lineAt (placed.spelled.written_ne_nil text) (placed.spelled.newline_not_mem more)
      file passed rest

namespace Scanner

theorem stream_placed (sc : Scanner) : ∀ passed text : List Char, sc.cursor = .after passed text →
    Closed text → ∀ token ∈ sc.stream.tokens,
      ∃ before after, token.Placed sc.file (passed ++ text) before after := by
  have placed {sc sc' : Scanner} {token : Token} {passed text : List Char}
      (stands : sc.cursor = .after passed text) (closed : Closed text)
      (step : next sc = .ok token sc') :
      ∃ before after, token.Placed sc.file (passed ++ text) before after := by
    obtain ⟨piece, rest, rfl, rfl, laid, -, -⟩ := next_laid stands closed step
    exact ⟨passed ++ piece.gap, rest, by simp [Piece.text], laid.place, laid.spelled, laid.complete.2⟩
  unfold stream
  dsimp only
  fun_induction drain sc with
  | case1 sc fault sc' failed => simp
  | case2 sc token sc' step isEnd =>
    intro passed text stands closed
    simpa using placed stands closed step
  | case3 sc token sc' step more later ih =>
    intro passed text stands closed other member
    rcases List.mem_cons.1 member with rfl | member
    · exact placed stands closed step
    · obtain ⟨piece, rest, -, rfl, -, sameFile, moved⟩ := next_laid stands closed step
      have behind := ih _ _ moved closed.of_append other member
      rwa [sameFile, List.append_assoc] at behind

end Scanner

end LineBasic
