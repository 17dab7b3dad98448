import LineBasic.Proofs.Concat.Scan

/-!
# Why no token can be read

A text that begins with no token has one of five defects, and no two of them at once: `Defect` lists them, with
the diagnostic that each calls for and how far on it lies. A reader stops at exactly these texts
(`Lexeme.defect_of_read`, `Lexeme.read_of_defect`), so a step of a scanner fails exactly where the text behind
the gap has a defect, and a scan that fails has read tokens up to such a text (`scan_fault_classified`).
-/

namespace LineBasic

set_option autoImplicit false

open Lexeme (isDigit isLetter isStringChar)

/-- A character that some token begins with. -/
def BeginsToken (c : Char) : Prop :=
  c ∈ ['+', '-', '*', '/', '\n', '=', '<', '>', '!', '"'] ∨ isDigit c = true ∨ isLetter c = true

/-- A character that a C format string does not hold as it is. -/
def Forbidden (c : Char) : Prop := c.toNat < 0x20 ∨ c = '\x7f' ∨ c = '\\' ∨ c = '%'

/-- A character that a string does not go on over. -/
def StopsString (c : Char) : Prop := c = '"' ∨ c = '\n' ∨ Forbidden c

/-- What is wrong with a text that begins with no token, and how many characters on it shows. -/
inductive Defect : List Char → Cause → Nat → Prop where
  /-- No token begins with the character. -/
  | stray {c : Char} {rest : List Char} (unknown : ¬ BeginsToken c) :
      Defect (c :: rest) (.invalidCharacter c none) 0
  /-- No equals sign follows an exclamation mark. -/
  | bang {rest : List Char} (alone : rest.head? ≠ some '=') :
      Defect ('!' :: rest) (.invalidCharacter '!' (some "did you mean '!='?")) 0
  /-- No digit follows the point of a number. -/
  | point {digits rest : List Char} (written : Digits digits)
      (bare : ∀ c ∈ rest.head?, isDigit c = false) :
      Defect (digits ++ '.' :: rest) (.malformedNumber (String.ofList (digits ++ ['.']))) 0
  /-- The line ends before the string. -/
  | unterminated {body rest : List Char} (inside : ∀ c ∈ body, ¬ StopsString c) :
      Defect ('"' :: body ++ '\n' :: rest) .unterminatedString 0
  /-- A forbidden character comes before the end of the string and of the line. -/
  | illegal {body rest : List Char} {c : Char} (inside : ∀ c ∈ body, ¬ StopsString c)
      (forbidden : Forbidden c) (oneLine : c ≠ '\n') :
      Defect ('"' :: body ++ c :: rest) (.illegalStringCharacter (String.singleton c)) (body.length + 1)

/-! ## One token -/

theorem isStringChar_eq_false_iff (c : Char) : isStringChar c = false ↔ StopsString c := by
  have delete : c.toNat = 0x7f ↔ c = '\x7f' := ⟨fun same => Char.toNat_inj.1 same, fun same => by rw [same]; rfl⟩
  have newline : c = '\n' → c.toNat < 0x20 := by
    rintro rfl
    decide
  simp only [Lexeme.isStringChar, Lexeme.isIllegalInString, StopsString, Forbidden, Bool.not_eq_false',
    Bool.or_eq_true, decide_eq_true_eq, beq_iff_eq, delete, or_assoc]
  grind

theorem isStringChar_iff (c : Char) : isStringChar c = true ↔ ¬ StopsString c := by
  rw [← isStringChar_eq_false_iff, Bool.not_eq_false]

/-- How far behind the start of a token its misreading lies. -/
def Misread.offset (misread : Misread) : Nat := if misread.atStop then misread.width else 0

namespace Lexeme

theorem defect_of_readNumber {c : Char} {rest : List Char} {misread : Misread} (digit : isDigit c = true)
    (failed : readNumber (c :: rest) = .error misread) :
    Defect (c :: rest) misread.cause misread.offset := by
  have cut := List.takeWhile_append_dropWhile (p := isDigit) (l := c :: rest)
  unfold readNumber at failed
  dsimp only at failed
  split at failed
  · rename_i places behind
    split at failed <;> cases failed
    rename_i none
    have none := List.isEmpty_iff.1 none
    have bare : ∀ d ∈ places.head?, isDigit d = false := by
      intro d first
      obtain ⟨tail, rfl⟩ := List.head?_eq_some_iff.1 first
      by_contra other
      exact takeWhile_cons_ne_nil (Bool.not_eq_false _ ▸ other) tail none
    rw [behind] at cut
    have defect := Defect.point (@digits_takeWhile c rest digit) bare
    rw [cut] at defect
    rw [none]
    exact defect
  · cases failed

theorem defect_of_readString {text : List Char} {misread : Misread} (closed : Closed ('"' :: text))
    (failed : readString text = .error misread) :
    Defect ('"' :: text) misread.cause misread.offset := by
  have cut := List.takeWhile_append_dropWhile (p := isStringChar) (l := text)
  have inside : ∀ c ∈ text.takeWhile isStringChar, ¬ StopsString c := fun c member =>
    (isStringChar_iff c).1 (List.mem_takeWhile_imp member)
  unfold readString at failed
  dsimp only at failed
  split at failed
  · -- a closed text has a newline, at which the string stops
    rename_i behind
    have newline := mem_dropWhile_of_stop newline_not_string
      ((List.mem_cons.1 (closed.newline_mem (List.cons_ne_nil _ _))).resolve_left (by decide))
    rw [behind] at newline
    cases newline
  · rename_i rest behind
    cases failed
    rw [← cut, behind]
    exact .unterminated inside
  · cases failed
  · rename_i c rest notNewline notQuote behind
    cases failed
    have oneLine : c ≠ '\n' := fun same => notNewline (by rw [same])
    have unquoted : c ≠ '"' := fun same => notQuote (by rw [same])
    have stops := (isStringChar_eq_false_iff c).1 (head?_dropWhile_false c (by rw [behind]; rfl))
    have forbidden : Forbidden c := (stops.resolve_left unquoted).resolve_left oneLine
    have defect : Defect ('"' :: text.takeWhile isStringChar ++ c :: rest) _ _ :=
      .illegal inside forbidden oneLine
    rwa [List.cons_append, ← behind, cut] at defect

theorem defect_of_read {text : List Char} {misread : Misread} (closed : Closed text)
    (failed : read text = .error misread) : Defect text misread.cause misread.offset := by
  unfold read at failed
  split at failed
  case h_14 rest single =>
    cases failed
    refine .bang fun equals => ?_
    obtain ⟨tail, rfl⟩ := List.head?_eq_some_iff.1 equals
    exact single tail rfl
  case h_15 => exact defect_of_readString closed failed
  case h_16 c rest _ _ _ _ _ _ _ _ _ _ _ _ _ _ =>
    split at failed
    · exact defect_of_readNumber ‹_› failed
    · split at failed <;> cases failed
      rename_i noDigit noLetter
      refine .stray ?_
      rintro (mark | digit | letter)
      · simp only [List.mem_cons, List.not_mem_nil, or_false] at mark
        simp_all
      · exact noDigit digit
      · exact noLetter letter
  all_goals cases failed

/-- The text of a string up to where it stops. -/
theorem span_stopped {body : List Char} {c : Char} (inside : ∀ d ∈ body, ¬ StopsString d)
    (stops : StopsString c) (rest : List Char) :
    (body ++ c :: rest).takeWhile isStringChar = body ∧
      (body ++ c :: rest).dropWhile isStringChar = c :: rest := by
  refine span_run (fun d member => (isStringChar_iff d).2 (inside d member)) ?_
  rintro d ⟨⟩
  exact (isStringChar_eq_false_iff c).2 stops

theorem read_of_defect {text : List Char} {cause : Cause} {offset : Nat}
    (defect : Defect text cause offset) :
    ∃ misread, read text = .error misread ∧ misread.cause = cause ∧ misread.offset = offset := by
  cases defect with
  | @stray c rest unknown =>
    simp only [BeginsToken, List.mem_cons, List.not_mem_nil, or_false, not_or] at unknown
    obtain ⟨marks, noDigit, noLetter⟩ := unknown
    refine ⟨⟨.invalidCharacter c none, 0, false⟩, ?_, rfl, rfl⟩
    rw [read, if_neg noDigit, if_neg noLetter]
    all_goals simp_all
  | @bang rest alone =>
    refine ⟨⟨.invalidCharacter '!' (some "did you mean '!='?"), 0, false⟩, ?_, rfl, rfl⟩
    rw [read]
    rintro tail rfl
    exact alone rfl
  | @point digits rest written bare =>
    have pointed : ∀ c ∈ ('.' :: rest).head?, isDigit c = false := by
      rintro c ⟨⟩
      decide
    obtain ⟨front, behind⟩ := span_run written.2 pointed
    have places : rest.takeWhile isDigit = [] := (@span_run isDigit [] rest (List.forall_mem_nil _) bare).1
    obtain ⟨c, tail, rfl⟩ := List.exists_cons_of_ne_nil written.1
    refine ⟨⟨.malformedNumber (String.ofList (c :: tail ++ ['.'])), (c :: tail ++ ['.']).length, false⟩,
      ?_, rfl, rfl⟩
    rw [List.cons_append, read_digit (written.2 c List.mem_cons_self), ← List.cons_append, readNumber,
      front, behind]
    simp only [places, List.isEmpty_nil, if_true]
  | @unterminated body rest inside =>
    obtain ⟨front, behind⟩ := span_stopped inside (.inr (.inl rfl)) rest
    refine ⟨⟨.unterminatedString, body.length + 1, false⟩, ?_, rfl, rfl⟩
    show readString (body ++ '\n' :: rest) = _
    rw [readString, front, behind]
    rfl
  | @illegal body rest c inside forbidden oneLine =>
    obtain ⟨front, behind⟩ := span_stopped inside (.inr (.inr forbidden)) rest
    refine ⟨⟨.illegalStringCharacter (String.singleton c), body.length + 1, true⟩, ?_, rfl, rfl⟩
    have unquoted : c ≠ '"' := by
      rintro rfl
      exact absurd forbidden (by simp [Forbidden])
    show readString (body ++ c :: rest) = _
    rw [readString, front, behind]
    simp

end Lexeme

/-- A text has one defect at most. -/
theorem Defect.unique {text : List Char} {cause cause' : Cause} {offset offset' : Nat}
    (one : Defect text cause offset) (other : Defect text cause' offset') :
    cause' = cause ∧ offset' = offset := by
  obtain ⟨misread, read, rfl, rfl⟩ := Lexeme.read_of_defect one
  obtain ⟨misread', read', rfl, rfl⟩ := Lexeme.read_of_defect other
  rw [read, Except.error.injEq] at read'
  rw [read']
  exact ⟨rfl, rfl⟩

/-! ## One step -/

/-- The diagnostic for a defect so many characters on in a text, behind the text that was passed. -/
def Defect.diagnostic (file : String) (passed here : List Char) (cause : Cause) (offset : Nat) :
    Diagnostic where
  cause
  location := some (placeAfter file (passed ++ here.take offset))
  sourceLine := some (String.ofList (lineAt passed here))

/-- A text that a token, or the end, stands at the head of: gaps lie behind. -/
def Bare (text : List Char) : Prop := ∀ c ∈ text.head?, Scanner.isBlank c = false ∧ c ≠ '#'

namespace Scanner

theorem bare_skipGap (passed text : List Char) : Bare (skipGap (.after passed text)).rest := by
  have blanks : skipBlanks (.after passed text) =
      .after (passed ++ text.takeWhile isBlank) (text.dropWhile isBlank) :=
    Cursor.skipWhile_after isBlank passed text
  rw [skipGap, skipComment, blanks, Cursor.current?, Cursor.after_rest]
  split
  · -- a comment stops before a newline
    rw [Cursor.skipWhile_after, Cursor.after_rest]
    intro c first
    have stopped := Lexeme.head?_dropWhile_false c first
    obtain rfl : c = '\n' := by simpa using stopped
    decide
  · rename_i noComment
    intro c first
    refine ⟨Lexeme.head?_dropWhile_false c first, ?_⟩
    rintro rfl
    exact noComment first

variable {sc : Scanner} {passed text : List Char}

/-- A scanner complains about a misreading as the defect calls for. -/
theorem complaint_eq {misread : Misread} (failed : Lexeme.read text = .error misread) :
    sc.complaint (.after passed text) misread =
      Defect.diagnostic sc.file passed text misread.cause misread.offset := by
  obtain ⟨front, behind, subject, explained⟩ := Lexeme.read_error failed
  obtain ⟨rfl, wide, inside, -⟩ := explained
  have stop : (Cursor.after passed (front ++ behind)).skip misread.width =
      .after (passed ++ front) behind := by
    rw [← wide, Cursor.skip_after]
  have offset : (front ++ behind).take misread.offset = if misread.atStop then front else [] := by
    rw [Misread.offset]
    split
    · rw [← wide, List.take_left]
    · rfl
  rw [complaint, Defect.diagnostic, stop, Cursor.lineText_after, lineAt_append inside, offset]
  split
  · rfl
  · rw [List.append_nil]
    rfl

/-- A step passes the gap before it. If the text behind has a defect the step fails with its diagnostic, and
otherwise it hands out a token. -/
theorem next_classified (stands : sc.cursor = .after passed text) (closed : Closed text) :
    ∃ gap here, text = gap ++ here ∧ Gap gap here ∧ Bare here ∧
      (∀ cause offset, Defect here cause offset →
        ∃ after, next sc = .error (Defect.diagnostic sc.file (passed ++ gap) here cause offset) after) ∧
      ((∀ cause offset, ¬ Defect here cause offset) → ∃ token after, next sc = .ok token after) := by
  obtain ⟨gap, here, rfl, laid, skipped⟩ := skipGap_after passed closed
  have bare := bare_skipGap passed (gap ++ here)
  rw [skipped] at bare
  rw [← stands] at skipped
  have at_here : (skipGap sc.cursor).rest = here := by rw [skipped, Cursor.after_rest]
  refine ⟨gap, here, rfl, laid, bare, ?_, ?_⟩
  · intro cause offset defect
    obtain ⟨misread, failed, rfl, rfl⟩ := Lexeme.read_of_defect defect
    have step := @next_of_misread sc misread (by rw [at_here, failed])
    rw [skipped, complaint_eq failed] at step
    exact ⟨_, step⟩
  · intro sound
    cases found : Lexeme.read here with
    | ok lexeme => exact ⟨_, _, @next_of_read sc lexeme (by rw [at_here, found])⟩
    | error misread => exact absurd (Lexeme.defect_of_read closed.of_append found) (sound _ _)

/-- A step that fails is at a defect. -/
theorem defect_of_next {fault : Diagnostic} {after : Scanner} (stands : sc.cursor = .after passed text)
    (closed : Closed text) (failed : next sc = .error fault after) :
    ∃ gap here cause offset, text = gap ++ here ∧ Gap gap here ∧ Bare here ∧ Defect here cause offset ∧
      fault = Defect.diagnostic sc.file (passed ++ gap) here cause offset := by
  obtain ⟨gap, here, cut, laid, bare, fails, goesOn⟩ := next_classified stands closed
  by_cases sound : ∀ cause offset, ¬ Defect here cause offset
  · obtain ⟨token, after', step⟩ := goesOn sound
    rw [failed] at step
    cases step
  · simp only [not_forall, not_not] at sound
    obtain ⟨cause, offset, defect⟩ := sound
    obtain ⟨after', step⟩ := fails cause offset defect
    rw [failed] at step
    cases step
    exact ⟨gap, here, cause, offset, cut, laid, bare, defect, rfl⟩

/-! ## A whole run -/

/-- A run that fails has cut its text into pieces up to a defect. -/
theorem drain_fault (sc : Scanner) : ∀ (passed text : List Char) (fault : Diagnostic),
    sc.cursor = .after passed text → Closed text → sc.drain.fault = some fault →
    ∃ (pieces : List Piece) (gap here : List Char) (cause : Cause) (offset : Nat),
      pieces.map Piece.token = sc.drain.tokens ∧
      text = pieces.flatMap Piece.text ++ gap ++ here ∧
      (∀ before piece after, pieces = before ++ piece :: after →
        Laid sc.file (passed ++ before.flatMap Piece.text) piece
          (after.flatMap Piece.text ++ gap ++ here)) ∧
      Gap gap here ∧ Bare here ∧ Defect here cause offset ∧
      fault = Defect.diagnostic sc.file (passed ++ pieces.flatMap Piece.text ++ gap) here cause offset := by
  fun_induction drain sc with
  | case1 sc fault sc' failed =>
    rintro passed text _ stands closed ⟨⟩
    obtain ⟨gap, here, cause, offset, rfl, laid, bare, defect, rfl⟩ := defect_of_next stands closed failed
    exact ⟨[], gap, here, cause, offset, rfl, rfl, by simp, laid, bare, defect, by simp⟩
  | case2 sc token sc' step isEnd => rintro passed text fault stands closed ⟨⟩
  | case3 sc token sc' step more later ih =>
    intro passed text fault stands closed failed
    obtain ⟨piece, rest, rfl, rfl, laid, sameFile, moved⟩ := next_laid stands closed step
    obtain ⟨pieces, gap, here, cause, offset, same, rfl, behind, blank, bare, defect, rfl⟩ :=
      ih _ _ _ moved closed.of_append failed
    rw [sameFile] at behind ⊢
    refine ⟨piece :: pieces, gap, here, cause, offset, congrArg (_ :: ·) same, by simp, ?_, blank, bare,
      defect, by simp⟩
    intro before next after split
    cases before with
    | nil =>
      cases split
      simpa using laid
    | cons first before =>
      cases split
      simpa using behind before next after rfl

end Scanner

/-- **Faults of a scan are classified exactly.** A scan fails where the tokens that it has handed out, with the gaps
before them, reach up to a text with a defect, and the defect, of which there is one, determines the
diagnostic. And wherever a scanner stands in the text, a step fails so if the text behind the gap has a defect, and
otherwise hands out a token. -/
theorem scan_fault_classified (file source : String) :
    (∀ fault, (Scanner.start file source).drain.fault = some fault →
      ∃ (pieces : List Piece) (gap here : List Char) (cause : Cause) (offset : Nat),
        pieces.map Piece.token = (Scanner.start file source).drain.tokens ∧
        source.toList ++ ['\n'] = pieces.flatMap Piece.text ++ gap ++ here ∧
        (∀ before piece after, pieces = before ++ piece :: after →
          Laid file (before.flatMap Piece.text) piece (after.flatMap Piece.text ++ gap ++ here)) ∧
        Gap gap here ∧ Bare here ∧ Defect here cause offset ∧
        (∀ cause' offset', Defect here cause' offset' → cause' = cause ∧ offset' = offset) ∧
        fault = Defect.diagnostic file (pieces.flatMap Piece.text ++ gap) here cause offset) ∧
    ∀ passed rest count, source.toList ++ ['\n'] = passed ++ rest →
      ∃ gap here, rest = gap ++ here ∧ Gap gap here ∧ Bare here ∧
        (∀ cause offset, Defect here cause offset →
          ∃ after, Scanner.next ⟨file, source.toList ++ ['\n'], .after passed rest, count⟩ =
            .error (Defect.diagnostic file (passed ++ gap) here cause offset) after) ∧
        ((∀ cause offset, ¬ Defect here cause offset) →
          ∃ token after, Scanner.next ⟨file, source.toList ++ ['\n'], .after passed rest, count⟩ =
            .ok token after) := by
  have closed := closed_concat source.toList
  constructor
  · intro fault failed
    obtain ⟨pieces, gap, here, cause, offset, same, cut, laid, blank, bare, defect, diagnosed⟩ :=
      Scanner.drain_fault _ [] _ fault (Cursor.start_eq_after (source.toList ++ ['\n'])) closed failed
    exact ⟨pieces, gap, here, cause, offset, same, cut, laid, blank, bare, defect,
      fun _ _ => defect.unique, diagnosed⟩
  · intro passed rest count cut
    exact Scanner.next_classified rfl (cut ▸ closed).of_append

/-- A string with a forbidden character and no end, behind a line that is read: the character comes first. -/
theorem scan_fault_classified_percent :
    ∃ (pieces : List Piece) (gap here : List Char),
      pieces.map Piece.token = (Scanner.start "demo" "LET a = 1.5\nPRINT \"50% off").drain.tokens ∧
      "LET a = 1.5\nPRINT \"50% off\n".toList = pieces.flatMap Piece.text ++ gap ++ here ∧
      Gap gap here ∧ Bare here ∧ (∃ offset, Defect here (.illegalStringCharacter "%") offset) ∧
      (Scanner.start "demo" "LET a = 1.5\nPRINT \"50% off").drain.fault =
        some ⟨.illegalStringCharacter "%", some ⟨"demo", 2, 10⟩, some "PRINT \"50% off"⟩ := by
  have failed : (Scanner.start "demo" "LET a = 1.5\nPRINT \"50% off").drain.fault =
      some ⟨.illegalStringCharacter "%", some ⟨"demo", 2, 10⟩, some "PRINT \"50% off"⟩ := by
    decide +kernel
  obtain ⟨pieces, gap, here, cause, offset, same, cut, -, blank, bare, defect, -, diagnosed⟩ :=
    (scan_fault_classified _ _).1 _ failed
  obtain rfl : Cause.illegalStringCharacter "%" = cause := congrArg Diagnostic.cause diagnosed
  exact ⟨pieces, gap, here, same, cut, blank, bare, ⟨offset, defect⟩, failed⟩

end LineBasic
