import LineBasic.Proofs.Concat.Scan
import LineBasic.Proofs.Source.Replace

/-!
# Line ends with and without a carriage return

A carriage return is a blank between tokens, a part of a comment, and forbidden in a string. So the texts that
differ only in carriage returns before newlines (`Alike`) have the same tokens on the same lines, up to a fault
in both or to the end of both (`Scanner.stream_abreast`).

Two things are not compared. Columns are left out (`Token.lined`), as a newline stands one further behind a carriage
return. And where a line ends inside a string, the one text lacks a quote and the other one has an illegal
character, so the diagnostics differ.
-/

namespace LineBasic

set_option autoImplicit false

/-- Texts that differ only in carriage returns before newlines. -/
inductive Alike : List Char → List Char → Prop where
  | nil : Alike [] []
  | cons (c : Char) {text text' : List Char} (more : Alike text text') : Alike (c :: text) (c :: text')
  | left {text text' : List Char} (more : Alike text text') :
      Alike ('\r' :: '\n' :: text) ('\n' :: text')
  | right {text text' : List Char} (more : Alike text text') :
      Alike ('\n' :: text) ('\r' :: '\n' :: text')

namespace Alike

variable {text text' : List Char}

theorem refl (text : List Char) : Alike text text := by
  induction text with
  | nil => exact .nil
  | cons c text ih => exact .cons c ih

theorem symm (alike : Alike text text') : Alike text' text := by
  induction alike with
  | nil => exact .nil
  | cons c _ ih => exact .cons c ih
  | left _ ih => exact .right ih
  | right _ ih => exact .left ih

theorem append {more more' : List Char} (alike : Alike text text') (follows : Alike more more') :
    Alike (text ++ more) (text' ++ more') := by
  induction alike with
  | nil => exact follows
  | cons c _ ih => exact .cons c ih
  | left _ ih => exact .left ih
  | right _ ih => exact .right ih

theorem tail {c : Char} (alike : Alike (c :: text) (c :: text')) : Alike text text' := by
  generalize one : c :: text = whole, two : c :: text' = whole' at alike
  cases alike with
  | nil => cases one
  | cons d more =>
    cases one
    cases two
    exact more
  | left | right =>
    rw [List.cons.injEq] at one two
    exact absurd (one.1.symm.trans two.1) (by decide)

/-- What two texts begin with in common can be cut off. -/
theorem cancel {front : List Char} (alike : Alike (front ++ text) (front ++ text')) :
    Alike text text' := by
  induction front with
  | nil => exact alike
  | cons c front ih => exact ih alike.tail

/-- A run that ends before line ends is the same in both texts. -/
theorem span {p : Char → Bool} (newline : p '\n' = false) (blank : p '\r' = false) (alike : Alike text text') :
    text'.takeWhile p = text.takeWhile p ∧ Alike (text.dropWhile p) (text'.dropWhile p) := by
  induction alike with
  | nil => exact ⟨rfl, .nil⟩
  | cons c more ih =>
    by_cases inside : p c = true
    · simp only [List.takeWhile_cons_of_pos inside, List.dropWhile_cons_of_pos inside, ih.1, ih.2, and_self]
    · rw [List.takeWhile_cons_of_neg inside, List.takeWhile_cons_of_neg inside,
        List.dropWhile_cons_of_neg inside, List.dropWhile_cons_of_neg inside]
      exact ⟨rfl, .cons c more⟩
  | left more ih =>
    simp only [List.takeWhile, List.dropWhile, newline, blank]
    exact ⟨trivial, .left more⟩
  | right more ih =>
    simp only [List.takeWhile, List.dropWhile, newline, blank]
    exact ⟨trivial, .right more⟩

/-- Behind a run that takes carriage returns in, the texts begin alike. -/
theorem dropWhile {p : Char → Bool} (newline : p '\n' = false) (taken : p '\r' = true)
    (alike : Alike text text') :
    Alike (text.dropWhile p) (text'.dropWhile p) ∧
      (text'.dropWhile p).head? = (text.dropWhile p).head? := by
  induction alike with
  | nil => exact ⟨.nil, rfl⟩
  | cons c more ih =>
    by_cases inside : p c = true
    · rw [List.dropWhile_cons_of_pos inside, List.dropWhile_cons_of_pos inside]
      exact ih
    · rw [List.dropWhile_cons_of_neg inside, List.dropWhile_cons_of_neg inside]
      exact ⟨.cons c more, rfl⟩
  | left more ih =>
    simp only [List.dropWhile, newline, taken]
    exact ⟨.cons _ more, rfl⟩
  | right more ih =>
    simp only [List.dropWhile, newline, taken]
    exact ⟨.cons _ more, rfl⟩

/-- A character other than those of line ends heads both texts or none. -/
theorem head?_iff {c : Char} (inside : c ≠ '\n') (other : c ≠ '\r') (alike : Alike text text') :
    text'.head? = some c ↔ text.head? = some c := by
  cases alike with
  | nil | cons => exact Iff.rfl
  | left | right => simp [inside.symm, other.symm]

end Alike

/-! ## One token -/

namespace Lexeme

variable {text text' : List Char}

theorem readWord_alike (alike : Alike text text') : readWord text' = readWord text := by
  rw [readWord, readWord, (alike.span (p := isLetter) (by decide) (by decide)).1]

theorem readNumber_alike (alike : Alike text text') : readNumber text' = readNumber text := by
  obtain ⟨whole, behind⟩ := alike.span (p := isDigit) (by decide) (by decide)
  unfold readNumber
  rw [whole]
  generalize text.dropWhile isDigit = rest, text'.dropWhile isDigit = rest' at behind
  cases behind with
  | nil | left | right => rfl
  | cons c more =>
    have places := (more.span (p := isDigit) (by decide) (by decide)).1
    by_cases point : c = '.'
    · subst point
      simp only [places]
    · simp [point]

/-- Where a string is not closed, the diagnostic may be another one. -/
theorem readString_alike (alike : Alike text text') :
    (readString text').toOption = (readString text).toOption := by
  obtain ⟨content, behind⟩ := alike.span (p := isStringChar) (by decide) (by decide)
  unfold readString
  rw [content]
  generalize text.dropWhile isStringChar = rest, text'.dropWhile isStringChar = rest' at behind
  cases behind with
  | nil | left | right => rfl
  | cons c more => split <;> simp_all

/-- Where two texts that are alike begin with the same character, the same token is read, or none. -/
theorem read_alike (alike : Alike text text') (heads : text'.head? = text.head?) :
    (read text').toOption = (read text).toOption := by
  -- a sign that may be the first half of a longer one looks at one more character
  have goesOn {c : Char} {rest : List Char} (shape : text = c :: '=' :: rest) :
      ∃ rest', text' = c :: '=' :: rest' := by
    subst shape
    obtain ⟨tail, rfl⟩ := List.head?_eq_some_iff.1 heads
    have equals := (alike.tail.head?_iff (c := '=') (by decide) (by decide)).2 rfl
    obtain ⟨rest', rfl⟩ := List.head?_eq_some_iff.1 equals
    exact ⟨rest', rfl⟩
  have alone {c : Char} {rest : List Char} (shape : text = c :: rest)
      (single : ∀ more, rest = '=' :: more → False) :
      ∃ rest', text' = c :: rest' ∧ ∀ more, rest' = '=' :: more → False := by
    subst shape
    obtain ⟨rest', rfl⟩ := List.head?_eq_some_iff.1 heads
    refine ⟨rest', rfl, ?_⟩
    rintro more rfl
    have equals := (alike.tail.head?_iff (c := '=') (by decide) (by decide)).1 rfl
    obtain ⟨rest, rfl⟩ := List.head?_eq_some_iff.1 equals
    exact single rest rfl
  fun_cases read text
  case case1 => rw [List.head?_eq_none_iff.1 heads]; rfl
  case case7 | case9 | case11 | case13 =>
    obtain ⟨rest', rfl⟩ := goesOn rfl
    rfl
  case case8 | case10 | case12 | case14 =>
    obtain ⟨rest', rfl, single⟩ := alone rfl (by assumption)
    simp only [read]
  all_goals obtain ⟨rest', rfl⟩ := List.head?_eq_some_iff.1 heads
  case case15 => exact readString_alike alike.tail
  case case16 digit => rw [read_digit digit, readNumber_alike alike]
  case case17 letter => rw [read_letter letter, readWord_alike alike]
  case case18 noDigit noLetter =>
    rw [read, if_neg noDigit, if_neg noLetter]
    all_goals
      intros
      contradiction
  all_goals rfl

end Lexeme

/-! ## One step -/

/-- The token on its line, at no column. -/
def Token.lined (token : Token) : Token := { token with location := { token.location with column := 0 } }

namespace Scanner

/-- Two scanners of one file are on the same line, and the texts before them are alike. -/
structure Abreast (sc sc' : Scanner) : Prop where
  file : sc'.file = sc.file
  stand : ∃ passed passed' text text', sc.cursor = .after passed text ∧ sc'.cursor = .after passed' text' ∧
    Closed text ∧ Closed text' ∧ passed'.count '\n' = passed.count '\n' ∧ Alike text text'

variable {sc sc' : Scanner}

theorem Abreast.symm (abreast : Abreast sc sc') : Abreast sc' sc := by
  obtain ⟨file, passed, passed', text, text', stands, stands', closed, closed', lines, alike⟩ := abreast
  exact ⟨file.symm, passed', passed, text', text, stands', stands, closed', closed, lines.symm, alike.symm⟩

/-- Behind the gap the texts are alike still, and begin with the same character. -/
theorem skipGap_alike {text text' : List Char} (alike : Alike text text') (passed passed' : List Char) :
    Alike (skipGap (.after passed text)).rest (skipGap (.after passed' text')).rest ∧
      (skipGap (.after passed' text')).rest.head? = (skipGap (.after passed text)).rest.head? := by
  obtain ⟨behind, heads⟩ := alike.dropWhile (p := isBlank) (by decide) (by decide)
  unfold skipGap skipBlanks skipComment
  simp only [Cursor.skipWhile_after, Cursor.current?, Cursor.after_rest, heads]
  split
  · exact behind.dropWhile (by decide) (by decide)
  · exact ⟨behind, heads⟩

/-- Two scanners that are abreast hand out the same token, and are abreast again. -/
theorem next_abreast {t : Scanner} {token : Token} (abreast : Abreast sc sc')
    (step : next sc = .ok token t) :
    ∃ token' t', next sc' = .ok token' t' ∧ token'.lined = token.lined ∧ Abreast t t' := by
  obtain ⟨file, passed, passed', text, text', stands, stands', closed, closed', lines, alike⟩ := abreast
  obtain ⟨behind, heads⟩ := skipGap_alike alike passed passed'
  obtain ⟨gap, here, rfl, laid, skipped⟩ := skipGap_after passed closed
  obtain ⟨gap', here', rfl, laid', skipped'⟩ := skipGap_after passed' closed'
  rw [skipped, skipped', Cursor.after_rest, Cursor.after_rest] at behind heads
  rw [← stands] at skipped
  rw [← stands'] at skipped'
  obtain ⟨lexeme, found, rfl, rfl⟩ := next_ok step
  rw [skipped, Cursor.after_rest] at found
  have found' : Lexeme.read here' = .ok lexeme := by
    have same := Lexeme.read_alike behind heads
    rw [found] at same
    cases reading : Lexeme.read here' with
    | error misread =>
      rw [reading] at same
      cases same
    | ok other =>
      rw [reading] at same
      exact congrArg Except.ok (Option.some_inj.1 same)
  have line : (passed' ++ gap').count '\n' = (passed ++ gap).count '\n' := by
    rw [List.count_append, List.count_append, List.count_eq_zero.2 laid.newline_not_mem,
      List.count_eq_zero.2 laid'.newline_not_mem, lines]
  obtain ⟨rest, rfl, width, -, -⟩ := Lexeme.read_heads found
  obtain ⟨rest', rfl, -, -, -⟩ := Lexeme.read_heads found'
  refine ⟨_, _, @next_of_read sc' lexeme (by rw [skipped']; exact found'), ?_, file, ?_⟩
  · rw [skipped, skipped']
    simp only [Token.lined, locate, Cursor.after, file, line]
  · let written := lexeme.kind.written lexeme.text
    refine ⟨passed ++ gap ++ written, passed' ++ gap' ++ written, rest, rest', ?_, ?_,
      closed.of_append.of_append, closed'.of_append.of_append, ?_, behind.cancel⟩
    · rw [skipped, width]
      exact Cursor.skip_after _ _ _
    · rw [skipped', width]
      exact Cursor.skip_after _ _ _
    · rw [List.count_append, line, ← List.count_append]

theorem next_abreast_error {t : Scanner} {fault : Diagnostic} (abreast : Abreast sc sc')
    (failed : next sc = .error fault t) : ∃ fault' t', next sc' = .error fault' t' := by
  cases step : next sc' with
  | error fault' t' => exact ⟨fault', t', rfl⟩
  | ok token t' =>
    obtain ⟨token', u, again, -, -⟩ := next_abreast abreast.symm step
    rw [failed] at again
    cases again

/-! ## A whole run -/

/-- Two scanners that are abreast hand out the same tokens on the same lines, and one of them fails where the
other one does. -/
theorem stream_abreast (sc : Scanner) : ∀ sc', Abreast sc sc' →
    sc'.stream.tokens.map Token.lined = sc.stream.tokens.map Token.lined ∧
      sc'.stream.fault.isSome = sc.stream.fault.isSome := by
  induction sc using drain.induct with
  | case1 sc fault t failed =>
    intro sc' abreast
    obtain ⟨fault', t', failed'⟩ := next_abreast_error abreast failed
    rw [stream_of_error failed, stream_of_error failed']
    exact ⟨rfl, rfl⟩
  | case2 sc token t step isEnd =>
    intro sc' abreast
    obtain ⟨token', t', step', same, -⟩ := next_abreast abreast step
    have isEnd' : token'.kind = .eof := (congrArg Token.kind same).trans isEnd
    rw [stream_of_ok step, stream_of_ok step', Stream.cons_of_end isEnd, Stream.cons_of_end isEnd']
    exact ⟨congrArg ([·]) same, rfl⟩
  | case3 sc token t step more ih =>
    intro sc' abreast
    obtain ⟨token', t', step', same, again⟩ := next_abreast abreast step
    have more' : token'.kind ≠ .eof := fun isEnd => more ((congrArg Token.kind same).symm.trans isEnd)
    obtain ⟨tokens, faults⟩ := ih t' again
    rw [stream_of_ok step, stream_of_ok step', Stream.cons_of_more more, Stream.cons_of_more more']
    exact ⟨congrArg₂ List.cons same tokens, faults⟩

theorem start_abreast {source source' : String} (alike : Alike source.toList source'.toList) (file : String) :
    Abreast (start file source) (start file source') :=
  ⟨rfl, [], [], _, _, Cursor.start_eq_after _, Cursor.start_eq_after _, closed_concat _, closed_concat _, rfl,
    alike.append (.refl _)⟩

end Scanner

/-! ## Replacing all line ends -/

/-- Putting a carriage return before every newline gives a text that is alike. -/
theorem alike_replaceAll (text : List Char) : Alike text (Text.replaceAll ['\n'] ['\r', '\n'] text) := by
  induction text with
  | nil => exact .nil
  | cons c text ih =>
    by_cases newline : c = '\n'
    · subst newline
      have replaced := Text.replaceAll_old (List.cons_ne_nil '\n' []) ['\r', '\n'] text
      rw [List.singleton_append] at replaced
      rw [replaced]
      exact .right ih
    · rw [Text.replaceAll_cons (by simpa using Ne.symm newline)]
      exact .cons c ih

end LineBasic
