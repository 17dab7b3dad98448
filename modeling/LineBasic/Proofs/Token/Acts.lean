import LineBasic.Proofs.Source.Lines
import LineBasic.Proofs.Token.Order

/-!
# A cursor counts what it has passed, whatever a scanner is told to do

A scanner may be asked for tokens one by one or for all of them, and its cursor may be moved by hand in between.
An act may fail half-way through a token, and the next one goes on where it stopped. Still all that any act does to
the cursor is to move it on by some characters (`walks_run`), and a cursor that was moved on stands between what it
has passed and the rest of the text (`skip_after_take`). So its position, line and column can be counted out in the
text at all times, and the line that it shows is the line of its number (`cursor_counts_along_acts`).
-/

namespace LineBasic

set_option autoImplicit false

namespace Scanner

/-! ## What an act can do -/

/-- What a scanner can be told to do. -/
inductive Act where
  /-- Hand out the next token. -/
  | next
  /-- Hand out tokens up to the end or the first fault. -/
  | drain
  /-- Pass one character. -/
  | advance
  | skipBlanks
  | skipComment
  deriving DecidableEq

/-- The scanner after an act, which may have failed. -/
def Act.run : Act → Scanner → Scanner
  | .next, sc =>
      match Scanner.next sc with
      | .ok _ sc' => sc'
      | .error _ sc' => sc'
  | .drain, sc => sc.drain.scanner
  | .advance, sc => { sc with cursor := sc.cursor.advance }
  | .skipBlanks, sc => { sc with cursor := Scanner.skipBlanks sc.cursor }
  | .skipComment, sc => { sc with cursor := Scanner.skipComment sc.cursor }

/-- The scanner after some acts, one after the other. -/
def perform (acts : List Act) (sc : Scanner) : Scanner := acts.foldl (fun sc act => act.run sc) sc

/-- The text is the same, and the cursor was moved on by some characters. -/
structure Walks (sc sc' : Scanner) : Prop where
  text : sc'.text = sc.text
  moved : ∃ n, sc'.cursor = sc.cursor.skip n

variable {sc sc' : Scanner}

theorem Walks.refl (sc : Scanner) : sc.Walks sc := ⟨rfl, 0, rfl⟩

theorem Walks.trans {sc'' : Scanner} (first : sc.Walks sc') (second : sc'.Walks sc'') : sc.Walks sc'' := by
  obtain ⟨text, m, cursor⟩ := first
  obtain ⟨text', n, cursor'⟩ := second
  exact ⟨text'.trans text, m + n, by rw [cursor', cursor, Cursor.skip_skip]⟩

theorem exists_skipComment_eq (c : Cursor) : ∃ n, skipComment c = c.skip n := by
  unfold skipComment
  split
  · exact ⟨_, rfl⟩
  · exact ⟨0, rfl⟩

theorem exists_skipGap_eq (c : Cursor) : ∃ n, skipGap c = c.skip n := by
  obtain ⟨n, comment⟩ := exists_skipComment_eq (skipBlanks c)
  exact ⟨_, comment.trans (Cursor.skip_skip _ n c)⟩

theorem walks_of_ok {token : Token} (step : next sc = .ok token sc') : sc.Walks sc' := by
  obtain ⟨lexeme, -, -, rfl⟩ := next_ok step
  obtain ⟨n, gap⟩ := exists_skipGap_eq sc.cursor
  exact ⟨rfl, n + lexeme.width, by rw [gap, Cursor.skip_skip]⟩

/-- A fault leaves the cursor where reading stopped, which is not before the gap. -/
theorem walks_of_error {fault : Diagnostic} (failed : next sc = .error fault sc') : sc.Walks sc' := by
  obtain ⟨misread, -, -, rfl⟩ := next_error failed
  obtain ⟨n, gap⟩ := exists_skipGap_eq sc.cursor
  exact ⟨rfl, n + misread.width, by rw [gap, Cursor.skip_skip]⟩

theorem walks_drain (sc : Scanner) : sc.Walks sc.drain.scanner := by
  fun_induction drain sc with
  | case1 sc fault sc' failed => exact walks_of_error failed
  | case2 sc token sc' step isEnd => exact walks_of_ok step
  | case3 sc token sc' step more later ih => exact (walks_of_ok step).trans ih

theorem walks_run (act : Act) (sc : Scanner) : sc.Walks (act.run sc) := by
  cases act with
  | next =>
    cases step : Scanner.next sc with
    | ok token sc' =>
      simp only [Act.run, step]
      exact walks_of_ok step
    | error fault sc' =>
      simp only [Act.run, step]
      exact walks_of_error step
  | drain => exact walks_drain sc
  | advance => exact ⟨rfl, 1, rfl⟩
  | skipBlanks => exact ⟨rfl, _, rfl⟩
  | skipComment => exact ⟨rfl, exists_skipComment_eq sc.cursor⟩

theorem walks_perform (acts : List Act) (sc : Scanner) : sc.Walks (perform acts sc) := by
  induction acts generalizing sc with
  | nil => exact .refl sc
  | cons act acts ih => exact (walks_run act sc).trans (ih (act.run sc))

theorem Walks.pos_le (walks : sc.Walks sc') : sc.cursor.pos ≤ sc'.cursor.pos := by
  obtain ⟨-, n, cursor⟩ := walks
  rw [cursor]
  exact Cursor.pos_le_skip n _

/-- From the start of a source on, the cursor stands between the two halves of its text. -/
theorem Walks.cursor_eq_after {file source : String} (walks : (start file source).Walks sc) :
    ∃ passed rest, source.toList ++ ['\n'] = passed ++ rest ∧ sc.cursor = .after passed rest := by
  obtain ⟨-, n, cursor⟩ := walks
  refine ⟨_, _, (List.take_append_drop n _).symm, ?_⟩
  rw [cursor]
  exact Cursor.skip_after_take [] (source.toList ++ ['\n']) n

/-! ## What the cursor counts -/

/-- **A cursor counts what it has passed.** Whatever a scanner was told to do from the start of a source on, and
however the acts ended, the cursor has not left the text; the line counts the newlines behind it and the column
the characters since the last of them; the line that it shows is the one that the pass finds by this number, a piece
of the text between its newlines. Whatever comes later does not move it back. -/
theorem cursor_counts_along_acts (file source : String) (acts more : List Act) :
    let text := source.toList ++ ['\n']
    let sc := perform acts (start file source)
    let c := sc.cursor
    (c.pos ≤ source.length + 1 ∧ c.rest = text.drop c.pos) ∧
      c.pos ≤ (perform more sc).cursor.pos ∧
      c.line = 1 + (text.take c.pos).count '\n' ∧
      c.column = 1 + (openLine (text.take c.pos)).length ∧
      sc.line? c.line = some (String.ofList c.lineText) ∧
      (text.splitOn '\n')[c.line - 1]? = some c.lineText := by
  intro text sc c
  have walks : (start file source).Walks sc := walks_perform acts _
  have later := (walks_perform more sc).pos_le
  obtain ⟨passed, rest, cut, stands⟩ := walks.cursor_eq_after
  have whole : text = passed ++ rest := cut
  have length : text.length = source.length + 1 := by simp [text, String.length_toList]
  have line : c.line = 1 + passed.count '\n' := by rw [show c = _ from stands]; rfl
  have pos : c.pos = passed.length := by rw [show c = _ from stands]; rfl
  have shown : c.lineText = lineAt passed rest := by
    rw [show c = _ from stands, Cursor.lineText_after]
  have front : text.take c.pos = passed := by rw [pos, whole, List.take_left]
  refine ⟨⟨?_, ?_⟩, later, ?_, ?_, ?_, ?_⟩
  · rw [pos, ← length, whole, List.length_append]
    exact Nat.le_add_right _ _
  · rw [pos, whole, List.drop_left, show c = _ from stands, Cursor.after_rest]
  · rw [front, line]
  · rw [front, show c = _ from stands]
    rfl
  · rw [line?, walks.text, line, shown, show (start file source).text = _ from cut]
    push_cast
    rw [line?_passed]
    rfl
  · rw [← Text.split_eq_splitOn, line, shown, whole, Nat.add_sub_cancel_left]
    exact lines_passed passed rest

-- A string without an end, a character that begins no token and is passed by hand, a number without places.
example :
    let c := (perform [.next, .next, .next, .advance, .skipComment, .next, .next]
      (start "demo" "\"a\n?# b\n1.")).cursor
    (c.pos, c.line, c.column) = (10, 3, 3) ∧ c.lineText = ['1', '.'] := by
  decide +kernel

end Scanner

end LineBasic
