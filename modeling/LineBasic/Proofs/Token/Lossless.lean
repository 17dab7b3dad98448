import LineBasic.Proofs.Source.Passed
import LineBasic.Proofs.Token.Spelling

/-!
# Scanning loses no text

The tokens of a source, each with the gap before it, are the source cut into pieces: put together again
they are the source and its last newline, character by character. The cut is forced. A gap holds blanks
and at most one comment, which reaches to the end of its line, and a token goes on as long as it can.
The place of a token is counted out in the text before it.

`Laid` says this of one piece between the texts on its two sides, `next_laid` of one step of a scanner,
and `drain_laid` of a whole run.
-/

namespace LineBasic

set_option autoImplicit false

namespace Token

/-- A token as it stands in a source. -/
def lexeme (token : Token) : List Char := token.kind.written token.text.toList

theorem IsSpelled.newline_lexeme {token : Token} (spelled : token.IsSpelled)
    (kind : token.kind = .newline) : token.lexeme = ['\n'] := by
  unfold IsSpelled at spelled
  rw [kind] at spelled
  rw [lexeme, kind]
  exact spelled

theorem IsSpelled.eof_lexeme {token : Token} (spelled : token.IsSpelled)
    (kind : token.kind = .eof) : token.lexeme = [] := by
  unfold IsSpelled at spelled
  rw [kind] at spelled
  rw [lexeme, kind]
  exact spelled

end Token

/-! ## Gaps -/

/-- A text whose last line is finished. -/
def Closed (text : List Char) : Prop := ∀ c ∈ text.getLast?, c = '\n'

theorem Closed.of_append {front rest : List Char} (closed : Closed (front ++ rest)) :
    Closed rest := by
  intro c last
  refine closed c ?_
  rw [List.getLast?_append, Option.mem_def.1 last]
  rfl

theorem closed_concat (text : List Char) : Closed (text ++ ['\n']) := by simp [Closed]

/-- The texts that may stand before a token, which starts the text that follows. -/
inductive Gap : List Char → List Char → Prop where
  | blanks {run follows : List Char} (blank : ∀ c ∈ run, Scanner.isBlank c = true) : Gap run follows
  | comment {run body follows : List Char} (blank : ∀ c ∈ run, Scanner.isBlank c = true)
      (oneLine : '\n' ∉ body) (ended : follows.head? = some '\n') : Gap (run ++ '#' :: body) follows

theorem newline_not_blank {run : List Char} (blank : ∀ c ∈ run, Scanner.isBlank c = true) :
    '\n' ∉ run := by
  intro member
  exact absurd (blank _ member) (by decide)

theorem Gap.newline_not_mem {gap follows : List Char} (laid : Gap gap follows) : '\n' ∉ gap := by
  cases laid with
  | blanks blank => exact newline_not_blank blank
  | comment blank oneLine ended => simp [newline_not_blank blank, oneLine]

/-- At the end of a closed text there is no gap. -/
theorem Gap.eq_nil_of_closed {front gap : List Char} (laid : Gap gap [])
    (closed : Closed (front ++ gap)) : gap = [] := by
  cases laid with
  | blanks blank =>
    by_contra more
    have newline := closed.of_append _ (List.getLast?_eq_some_getLast more)
    exact newline_not_blank blank (newline ▸ List.getLast_mem more)
  | comment blank oneLine ended => cases ended

/-- A comment in a closed text is followed by the newline of its line. -/
theorem comment_ended {text : List Char} (closed : Closed ('#' :: text)) :
    (text.dropWhile (· ≠ '\n')).head? = some '\n' := by
  cases behind : text.dropWhile (· ≠ '\n') with
  | nil =>
    have inside := List.dropWhile_eq_nil_iff.1 behind
    obtain ⟨last, isLast⟩ := Option.isSome_iff_exists.1
      (List.getLast?_isSome.2 (List.cons_ne_nil '#' text))
    have newline := closed last isLast
    subst newline
    rcases List.mem_cons.1 (List.mem_of_getLast? isLast) with same | member
    · cases same
    · exact absurd (inside _ member) (by simp)
  | cons c rest =>
    have stopped := @Lexeme.head?_dropWhile_false (· ≠ '\n') text c (by rw [behind]; rfl)
    simpa using stopped

namespace Scanner

theorem skipGap_after (passed : List Char) {text : List Char} (closed : Closed text) :
    ∃ gap rest, text = gap ++ rest ∧ Gap gap rest ∧
      skipGap (.after passed text) = .after (passed ++ gap) rest := by
  have cut := List.takeWhile_append_dropWhile (p := isBlank) (l := text)
  have blank : ∀ c ∈ text.takeWhile isBlank, isBlank c = true := fun c member =>
    List.mem_takeWhile_imp member
  have blanks : skipBlanks (.after passed text) =
      .after (passed ++ text.takeWhile isBlank) (text.dropWhile isBlank) :=
    Cursor.skipWhile_after isBlank passed text
  unfold skipGap skipComment
  rw [blanks, Cursor.current?, Cursor.after_rest]
  split
  · rename_i mark
    obtain ⟨rest, hash⟩ := List.head?_eq_some_iff.1 mark
    rw [hash] at cut
    rw [← cut] at closed
    have inside : '\n' ∉ rest.takeWhile (· ≠ '\n') := by
      intro member
      simpa using List.mem_takeWhile_imp member
    refine ⟨_, _, ?_, .comment blank inside (comment_ended closed.of_append), ?_⟩
    · rw [List.append_assoc, List.cons_append, List.takeWhile_append_dropWhile, cut]
    · rw [hash, Cursor.skipWhile_after]
      simp
  · exact ⟨_, _, cut.symm, .blanks blank, rfl⟩

end Scanner

/-! ## Pieces -/

/-- The place of the character that stands after a text. -/
def placeAfter (file : String) (passed : List Char) : Location :=
  ⟨file, 1 + passed.count '\n', 1 + (openLine passed).length⟩

/-- A token with the gap before it. -/
structure Piece where
  gap : List Char
  token : Token

def Piece.text (piece : Piece) : List Char := piece.gap ++ piece.token.lexeme

/-- A piece as it lies in a file, between the text before it and the text after it. -/
structure Laid (file : String) (before : List Char) (piece : Piece) (after : List Char) : Prop where
  gap : Gap piece.gap (piece.token.lexeme ++ after)
  place : piece.token.location = placeAfter file (before ++ piece.gap)
  spelled : piece.token.IsSpelled
  complete : piece.token.kind.Complete after

namespace Scanner

/-- One step of a scanner cuts one piece off its text. -/
theorem next_laid {sc sc' : Scanner} {token : Token} {passed text : List Char}
    (stands : sc.cursor = .after passed text) (closed : Closed text)
    (step : next sc = .ok token sc') :
    ∃ piece rest, piece.token = token ∧ text = piece.text ++ rest ∧
      Laid sc.file passed piece rest ∧ sc'.file = sc.file ∧
      sc'.cursor = .after (passed ++ piece.text) rest := by
  have spelled := next_spelled step
  obtain ⟨gap, behind, cut, blank, skipped⟩ := skipGap_after passed closed
  rw [← stands] at skipped
  obtain ⟨lexeme, found, rfl, rfl⟩ := next_ok step
  rw [skipped] at found spelled ⊢
  obtain ⟨rest, rfl, width, -, complete⟩ := Lexeme.read_heads found
  refine ⟨⟨gap, _⟩, rest, rfl, ?_, ⟨?_, rfl, spelled, complete⟩, rfl, ?_⟩
  · simpa [Piece.text, Token.lexeme] using cut
  · simpa [Token.lexeme] using blank
  · simp only [width, Cursor.skip_after]
    simp [Piece.text, Token.lexeme]

end Scanner

/-- Pieces that lie one after the other in a file, behind the text before them. -/
def LaidOut (file : String) : List Char → List Piece → Prop
  | _, [] => True
  | before, piece :: pieces =>
      Laid file before piece (pieces.flatMap Piece.text) ∧ LaidOut file (before ++ piece.text) pieces

theorem LaidOut.split {file : String} {passed : List Char} {before after : List Piece} {piece : Piece}
    (laid : LaidOut file passed (before ++ piece :: after)) :
    Laid file (passed ++ before.flatMap Piece.text) piece (after.flatMap Piece.text) := by
  induction before generalizing passed with
  | nil => simpa using laid.1
  | cons first before ih => simpa using ih laid.2

namespace Scanner

theorem drain_laid (sc : Scanner) : ∀ passed text : List Char, sc.cursor = .after passed text →
    Closed text → sc.drain.fault = none →
    ∃ pieces, pieces.map Piece.token = sc.drain.tokens ∧ pieces.flatMap Piece.text = text ∧
      LaidOut sc.file passed pieces := by
  fun_induction drain sc with
  | case1 sc fault sc' failed =>
    intro passed text stands closed whole
    cases whole
  | case2 sc token sc' step isEnd =>
    intro passed text stands closed whole
    obtain ⟨piece, rest, rfl, cut, laid, -, -⟩ := next_laid stands closed step
    have ended := laid.complete.2 isEnd
    subst ended
    exact ⟨[piece], rfl, by simpa using cut.symm, laid, trivial⟩
  | case3 sc token sc' step more later ih =>
    intro passed text stands closed whole
    obtain ⟨piece, rest, rfl, rfl, laid, sameFile, moved⟩ := next_laid stands closed step
    obtain ⟨pieces, same, rebuilt, behind⟩ := ih _ _ moved closed.of_append whole
    subst rebuilt
    rw [sameFile] at behind
    exact ⟨piece :: pieces, congrArg (_ :: ·) same, by simp, laid, behind⟩

/-- A run without a fault ends with the end, which is handed out once. -/
theorem drain_last (sc : Scanner) : sc.drain.fault = none →
    ∃ front last, sc.drain.tokens = front ++ [last] ∧ last.kind = .eof ∧
      ∀ token ∈ front, token.kind ≠ .eof := by
  fun_induction drain sc with
  | case1 sc fault sc' failed =>
    intro whole
    cases whole
  | case2 sc token sc' step isEnd => exact fun _ => ⟨[], token, rfl, isEnd, by simp⟩
  | case3 sc token sc' step more later ih =>
    intro whole
    obtain ⟨front, last, same, isEnd, others⟩ := ih whole
    exact ⟨token :: front, last, congrArg (token :: ·) same, isEnd, by simpa using ⟨more, others⟩⟩

end Scanner

/-! ## Lines -/

/-- Newlines are the texts of newline tokens, and stand nowhere else. -/
theorem Spelled.newline_not_mem {kind : Kind} {text : List Char} (spelled : Spelled kind text)
    (other : kind ≠ .newline) : '\n' ∉ kind.written text := by
  intro member
  cases kind with
  | newline => exact other rfl
  | eof => simp_all [Spelled, Kind.written]
  | unknown => exact spelled
  | number =>
    cases spelled with
    | whole written => exact absurd (written.2 _ member) (by decide)
    | decimal written fraction =>
      rcases List.mem_append.1 member with inside | inside
      · exact absurd (written.2 _ inside) (by decide)
      · rcases List.mem_cons.1 inside with point | inside
        · cases point
        · exact absurd (fraction.2 _ inside) (by decide)
  | ident => exact absurd (spelled.2.1 _ member) (by decide)
  | string =>
    simp only [Kind.written, List.cons_append, List.mem_cons, List.mem_append] at member
    rcases member with quote | inside | quote | none
    · cases quote
    · exact absurd (spelled _ inside) (by decide)
    · cases quote
    · cases none
  | keyword word =>
    rw [show text = _ from spelled] at member
    revert member
    cases word <;> decide
  | operator op =>
    rw [show text = _ from spelled] at member
    revert member
    cases op <;> decide

theorem Laid.newline_not_mem {file : String} {before after : List Char} {piece : Piece}
    (laid : Laid file before piece after) (other : piece.token.kind ≠ .newline) :
    '\n' ∉ piece.text := by
  rw [Piece.text, List.mem_append, not_or]
  exact ⟨laid.gap.newline_not_mem, laid.spelled.newline_not_mem other⟩

theorem Laid.count_newline {file : String} {before after : List Char} {piece : Piece}
    (laid : Laid file before piece after) :
    piece.text.count '\n' = if piece.token.kind = .newline then 1 else 0 := by
  split
  · rename_i newline
    rw [Piece.text, laid.spelled.newline_lexeme newline, List.count_append,
      List.count_eq_zero.2 laid.gap.newline_not_mem]
    rfl
  · rename_i other
    exact List.count_eq_zero.2 (laid.newline_not_mem other)

theorem LaidOut.count_newline {file : String} {passed : List Char} {pieces : List Piece}
    (laid : LaidOut file passed pieces) :
    (pieces.flatMap Piece.text).count '\n' =
      (pieces.map Piece.token).countP fun token => token.kind = .newline := by
  induction pieces generalizing passed with
  | nil => rfl
  | cons piece pieces ih =>
    rw [List.flatMap_cons, List.count_append, laid.1.count_newline, ih laid.2, List.map_cons,
      List.countP_cons, Nat.add_comm]
    simp

theorem Spelled.written_ne_nil {kind : Kind} {text : List Char} (spelled : Spelled kind text)
    (more : kind ≠ .eof) : kind.written text ≠ [] := by
  cases kind with
  | newline => rw [show text = _ from spelled]; simp [Kind.written]
  | eof => exact absurd rfl more
  | unknown => exact spelled.elim
  | number =>
    cases spelled with
    | whole written => exact written.1
    | decimal written fraction => simp [Kind.written]
  | ident => exact spelled.1
  | string => simp [Kind.written]
  | keyword word => rw [show text = _ from spelled]; cases word <;> decide
  | operator op => rw [show text = _ from spelled]; cases op <;> decide

/-- The pieces of a closed text end with a newline and the end, and no gap is between them. -/
theorem LaidOut.closing {file : String} {text : List Char} {front : List Piece} {last : Piece}
    (laid : LaidOut file [] (front ++ [last])) (isEnd : last.token.kind = .eof)
    (others : ∀ piece ∈ front, piece.token.kind ≠ .eof)
    (rebuilt : (front ++ [last]).flatMap Piece.text = text ++ ['\n']) :
    last.text = [] ∧ ∃ before newline, front = before ++ [newline] ∧
      newline.token.kind = .newline := by
  obtain ⟨gap, -, spelled, -⟩ := laid.split
  have nothing : last.token.lexeme = [] := spelled.eof_lexeme isEnd
  have closed := closed_concat text
  rw [← rebuilt, List.flatMap_append, List.flatMap_singleton] at closed
  have empty : last.text = [] := by
    rw [nothing] at gap
    rw [Piece.text, nothing, List.append_nil] at closed ⊢
    exact gap.eq_nil_of_closed closed
  refine ⟨empty, ?_⟩
  rw [empty, List.append_nil] at closed
  obtain rfl | ⟨before, newline, rfl⟩ := front.eq_nil_or_concat'
  · simp [empty] at rebuilt
  refine ⟨before, newline, rfl, ?_⟩
  rw [List.append_assoc] at laid
  have here := laid.split
  rw [List.flatMap_append, List.flatMap_singleton] at closed
  -- The piece before the end is not empty, so the last newline of the text is in it.
  have some : newline.text ≠ [] := by
    have written := here.spelled.written_ne_nil (others newline (by simp))
    simp [Piece.text, Token.lexeme, written]
  have isNewline := closed.of_append _ (List.getLast?_eq_some_getLast some)
  by_contra other
  exact here.newline_not_mem other (isNewline ▸ List.getLast_mem some)

/-- **Scanning is lossless, and places are exact.** -/
theorem scan_lossless (file source : String)
    (whole : (Scanner.start file source).drain.fault = none) :
    ∃ pieces : List Piece,
      pieces.map Piece.token = (Scanner.start file source).drain.tokens ∧
      pieces.flatMap Piece.text = source.toList ++ ['\n'] ∧
      (∀ before piece after, pieces = before ++ piece :: after →
        Laid file (before.flatMap Piece.text) piece (after.flatMap Piece.text)) ∧
      ((Scanner.start file source).drain.tokens.countP fun token => token.kind = .newline) =
        source.toList.count '\n' + 1 ∧
      ∃ front newline last, (Scanner.start file source).drain.tokens = front ++ [newline, last] ∧
        newline.kind = .newline ∧ last.kind = .eof ∧
        last.location = ⟨file, source.toList.count '\n' + 2, 1⟩ := by
  obtain ⟨pieces, same, rebuilt, laid⟩ := Scanner.drain_laid _ _ _
    (Cursor.start_eq_after (source.toList ++ ['\n'])) (closed_concat _) whole
  obtain ⟨front, last, tokens, isEnd, others⟩ := Scanner.drain_last _ whole
  refine ⟨pieces, same, rebuilt, ?_, ?_, ?_⟩
  · rintro before piece after rfl
    exact laid.split
  · rw [← same, ← laid.count_newline, rebuilt, List.count_append]
    rfl
  · rw [tokens, List.map_eq_append_iff] at same
    obtain ⟨frontPieces, lastPieces, rfl, rfl, lastPiece⟩ := same
    obtain ⟨piece, rfl, rfl⟩ := List.map_eq_singleton_iff.1 lastPiece
    obtain ⟨empty, before, newline, rfl, isNewline⟩ := laid.closing isEnd
      (fun piece member => others _ (List.mem_map_of_mem member)) rebuilt
    refine ⟨before.map Piece.token, newline.token, piece.token, ?_, isNewline, isEnd, ?_⟩
    · rw [tokens]
      simp
    · have noGap := (List.append_eq_nil_iff.1 empty).1
      rw [List.flatMap_append, List.flatMap_singleton, empty, List.append_nil] at rebuilt
      rw [laid.split.place, noGap, rebuilt]
      simp [placeAfter, Scanner.start, List.count_append]
      omega

/-- A source with a comment, a carriage return, a number sign in a string and two-character marks. -/
theorem scan_lossless_commented :
    (Scanner.start "demo" "IF a>=1 THEN#c\n\tPRINT \"#\"\r\nENDIF").drain.fault = none ∧
    ∃ pieces : List Piece,
      pieces.map Piece.token =
        (Scanner.start "demo" "IF a>=1 THEN#c\n\tPRINT \"#\"\r\nENDIF").drain.tokens ∧
      pieces.flatMap Piece.text = "IF a>=1 THEN#c\n\tPRINT \"#\"\r\nENDIF\n".toList ∧
      ∀ before piece after, pieces = before ++ piece :: after →
        Laid "demo" (before.flatMap Piece.text) piece (after.flatMap Piece.text) := by
  have whole : (Scanner.start "demo" "IF a>=1 THEN#c\n\tPRINT \"#\"\r\nENDIF").drain.fault = none := by
    decide +kernel
  obtain ⟨pieces, same, rebuilt, laid, -⟩ := scan_lossless _ _ whole
  exact ⟨whole, pieces, same, rebuilt, laid⟩

end LineBasic
