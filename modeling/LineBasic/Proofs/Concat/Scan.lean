import LineBasic.Proofs.Diagnosis.Pointing
import LineBasic.Proofs.Token.Printed

/-!
# Scanning goes line by line

No lexeme, gap or fault reaches over a newline. So a scanner that reads whole lines does the same whatever
text stands behind them (`stream_append`), and since it only counts the lines that it has passed, the lines
above a text move its tokens and faults down and change nothing else (`stream_below`). Together: the tokens
of two texts with a newline between them are those of the first text without its end, and those of the
second one moved down (`scan_append_line`).
-/

namespace LineBasic

set_option autoImplicit false

/-! ## Lines above -/

/-- The place so many lines further down. -/
def Location.down (lines : Nat) (place : Location) : Location := { place with line := place.line + lines }

def Token.down (lines : Nat) (token : Token) : Token := { token with location := token.location.down lines }

def Diagnostic.down (lines : Nat) (fault : Diagnostic) : Diagnostic :=
  { fault with location := fault.location.map (Location.down lines) }

def Stream.down (lines : Nat) (stream : Stream) : Stream :=
  ⟨stream.tokens.map (Token.down lines), stream.fault.map (Diagnostic.down lines)⟩

theorem Stream.down_cons (lines : Nat) (token : Token) (rest : Stream) :
    (cons token rest).down lines = cons (token.down lines) (rest.down lines) := by
  unfold cons
  by_cases isEnd : token.kind = .eof
  · rw [if_pos isEnd, if_pos (show (token.down lines).kind = .eof from isEnd)]
    rfl
  · rw [if_neg isEnd, if_neg (show (token.down lines).kind ≠ .eof from isEnd)]
    rfl

namespace Cursor

/-- The cursor in a text with whole lines put above it. -/
def below (above : List Char) (c : Cursor) : Cursor :=
  { c with pos := above.length + c.pos, line := above.count '\n' + c.line }

theorem after_eq_below {above : List Char} (whole : openLine above = []) (text : List Char) :
    after above text = (start text).below above := by
  simp [after, start, below, whole, Nat.add_comm]

theorem advance_below (above : List Char) (c : Cursor) :
    (c.below above).advance = c.advance.below above := by
  obtain ⟨rest, lineRest, pos, line, column⟩ := c
  unfold advance below
  dsimp only
  split <;> simp [Nat.add_assoc]

theorem skip_below (above : List Char) (n : Nat) (c : Cursor) :
    (c.below above).skip n = (c.skip n).below above := by
  induction n generalizing c with
  | zero => rfl
  | succ n ih => rw [skip, skip, advance_below, ih]

theorem skipWhile_below (above : List Char) (p : Char → Bool) (c : Cursor) :
    (c.below above).skipWhile p = (c.skipWhile p).below above :=
  skip_below above _ c

end Cursor

namespace Scanner

theorem skipGap_below (above : List Char) (c : Cursor) :
    skipGap (c.below above) = (skipGap c).below above := by
  unfold skipGap skipBlanks skipComment
  rw [Cursor.skipWhile_below]
  by_cases comment : (c.skipWhile isBlank).current? = some '#'
  · rw [if_pos comment, if_pos (show ((c.skipWhile isBlank).below above).current? = some '#' from comment),
      Cursor.skipWhile_below]
  · rw [if_neg comment, if_neg (show ((c.skipWhile isBlank).below above).current? ≠ some '#' from comment)]

theorem locate_below {sc sc' : Scanner} (file : sc'.file = sc.file) (above : List Char) (c : Cursor) :
    sc'.locate (c.below above) = (sc.locate c).down (above.count '\n') := by
  simp only [locate, Location.down, Cursor.below, file]
  congr 1
  omega

/-! ## Below other lines -/

variable {sc sc' t : Scanner} {above : List Char}

/-- A step hands out the same token below other lines, so many lines further down. -/
theorem next_below_ok {token : Token} (step : next sc = .ok token t) (file : sc'.file = sc.file)
    (stands : sc'.cursor = sc.cursor.below above) :
    ∃ t', next sc' = .ok (token.down (above.count '\n')) t' ∧ t'.file = t.file ∧
      t'.cursor = t.cursor.below above := by
  obtain ⟨lexeme, found, rfl, rfl⟩ := next_ok step
  have here : skipGap sc'.cursor = (skipGap sc.cursor).below above := by rw [stands, skipGap_below]
  have step' := @next_of_read sc' lexeme (by rw [here]; exact found)
  rw [here, locate_below file, Cursor.skip_below] at step'
  exact ⟨_, step', file, rfl⟩

theorem next_below_error {fault : Diagnostic} (failed : next sc = .error fault t)
    (file : sc'.file = sc.file) (stands : sc'.cursor = sc.cursor.below above) :
    ∃ t', next sc' = .error (fault.down (above.count '\n')) t' := by
  obtain ⟨misread, found, rfl, -⟩ := next_error failed
  have here : skipGap sc'.cursor = (skipGap sc.cursor).below above := by rw [stands, skipGap_below]
  have failed' := @next_of_misread sc' misread (by rw [here]; exact found)
  rw [here, Cursor.skip_below] at failed'
  have same : sc'.complaint ((skipGap sc.cursor).below above) misread =
      (sc.complaint (skipGap sc.cursor) misread).down (above.count '\n') := by
    unfold complaint Diagnostic.down
    rw [Cursor.skip_below, ← apply_ite (Cursor.below above), locate_below file]
    rfl
  rw [same] at failed'
  exact ⟨_, failed'⟩

/-- Below other lines a scanner hands out the same tokens and meets the same fault, further down. -/
theorem stream_below (sc : Scanner) : ∀ (sc' : Scanner) (above : List Char), sc'.file = sc.file →
    sc'.cursor = sc.cursor.below above → sc'.stream = sc.stream.down (above.count '\n') := by
  fun_induction drain sc with
  | case1 sc fault t failed =>
    intro sc' above file stands
    obtain ⟨t', failed'⟩ := next_below_error failed file stands
    rw [stream_of_error failed, stream_of_error failed']
    rfl
  | case2 sc token t step isEnd =>
    intro sc' above file stands
    obtain ⟨t', step', -⟩ := next_below_ok step file stands
    have isEnd' : (token.down (above.count '\n')).kind = .eof := isEnd
    rw [stream_of_ok step, stream_of_ok step', Stream.cons_of_end isEnd, Stream.cons_of_end isEnd']
    rfl
  | case3 sc token t step more later ih =>
    intro sc' above file stands
    obtain ⟨t', step', file', stands'⟩ := next_below_ok step file stands
    rw [stream_of_ok step, stream_of_ok step', Stream.down_cons, ih t' above file' stands']

end Scanner

/-! ## Text behind whole lines -/

section Behind

variable {p : Char → Bool} {text : List Char}

theorem takeWhile_append_of_stop (stop : p '\n' = false) (ended : '\n' ∈ text) (more : List Char) :
    (text ++ more).takeWhile p = text.takeWhile p := by
  rw [List.takeWhile_append, if_neg]
  intro whole
  have all := List.takeWhile_eq_self_iff.1 (List.Sublist.eq_of_length (List.takeWhile_sublist p) whole)
  rw [all _ ended] at stop
  cases stop

theorem mem_dropWhile_of_stop (stop : p '\n' = false) (ended : '\n' ∈ text) :
    '\n' ∈ text.dropWhile p := by
  rw [← List.takeWhile_append_dropWhile (p := p) (l := text), List.mem_append] at ended
  exact ended.resolve_left (Lexeme.newline_not_mem_takeWhile stop text)

theorem dropWhile_append_of_stop (stop : p '\n' = false) (ended : '\n' ∈ text) (more : List Char) :
    (text ++ more).dropWhile p = text.dropWhile p ++ more := by
  rw [List.dropWhile_append, if_neg]
  intro empty
  have member := mem_dropWhile_of_stop stop ended
  rw [List.isEmpty_iff.1 empty] at member
  cases member

theorem Cursor.skipWhile_append (stop : p '\n' = false) (ended : '\n' ∈ text) (passed more : List Char) :
    (after passed (text ++ more)).skipWhile p =
      after (passed ++ text.takeWhile p) (text.dropWhile p ++ more) := by
  rw [skipWhile_after, takeWhile_append_of_stop stop ended, dropWhile_append_of_stop stop ended]

end Behind

namespace Lexeme

variable {text : List Char}

theorem readNumber_append (ended : '\n' ∈ text) (more : List Char) :
    readNumber (text ++ more) = readNumber text := by
  have stop : isDigit '\n' = false := by decide
  have rest := mem_dropWhile_of_stop stop ended
  unfold readNumber
  rw [takeWhile_append_of_stop stop ended, dropWhile_append_of_stop stop ended]
  cases behind : text.dropWhile isDigit with
  | nil =>
    rw [behind] at rest
    cases rest
  | cons c places =>
    rw [behind] at rest
    by_cases point : c = '.'
    · subst point
      have later : '\n' ∈ places := (List.mem_cons.1 rest).resolve_left (by decide)
      simp only [List.cons_append, takeWhile_append_of_stop stop later]
    · simp [point]

theorem readString_append (ended : '\n' ∈ text) (more : List Char) :
    readString (text ++ more) = readString text := by
  have stop : isStringChar '\n' = false := by decide
  have rest := mem_dropWhile_of_stop stop ended
  unfold readString
  rw [takeWhile_append_of_stop stop ended, dropWhile_append_of_stop stop ended]
  cases behind : text.dropWhile isStringChar with
  | nil =>
    rw [behind] at rest
    cases rest
  | cons c rest =>
    rw [List.cons_append]
    split <;> simp_all

theorem readWord_append (ended : '\n' ∈ text) (more : List Char) :
    readWord (text ++ more) = readWord text := by
  unfold readWord
  rw [takeWhile_append_of_stop (by decide) ended]

/-- What is read does not depend on the text behind the line. -/
theorem read_append (ended : '\n' ∈ text) (more : List Char) : read (text ++ more) = read text := by
  -- a sign that may be the first half of a longer one looks at one more character, which is there
  have alone {c : Char} {tail : List Char} (sign : c ≠ '\n') (ended : '\n' ∈ c :: tail)
      (single : ∀ rest, tail = '=' :: rest → False) : ∀ rest, tail ++ more = '=' :: rest → False := by
    cases tail with
    | nil => exact absurd (List.mem_singleton.1 ended) sign.symm
    | cons d tail =>
      intro rest same
      rw [List.cons_append, List.cons.injEq] at same
      exact single tail (by rw [same.1])
  fun_cases read text
  case case1 => cases ended
  case case8 | case10 | case12 | case14 =>
    have single := alone (by decide) ended (by assumption)
    simp only [List.cons_append, read]
  case case15 rest =>
    have later : '\n' ∈ rest := (List.mem_cons.1 ended).resolve_left (by decide)
    exact readString_append later more
  case case16 digit =>
    rw [List.cons_append, read_digit digit, ← List.cons_append, readNumber_append ended more]
  case case17 letter =>
    rw [List.cons_append, read_letter letter, ← List.cons_append, readWord_append ended more]
  case case18 noDigit noLetter =>
    rw [List.cons_append, read, if_neg noDigit, if_neg noLetter]
    all_goals
      intros
      contradiction
  all_goals rfl

end Lexeme

namespace Scanner

variable {sc sc' t : Scanner} {passed text more : List Char}

theorem skipComment_append (passed : List Char) (ended : '\n' ∈ text) (more : List Char) :
    ∃ gap rest, text = gap ++ rest ∧ '\n' ∈ rest ∧
      skipComment (.after passed text) = .after (passed ++ gap) rest ∧
      skipComment (.after passed (text ++ more)) = .after (passed ++ gap) (rest ++ more) := by
  have stop : decide ('\n' ≠ '\n') = false := by decide
  obtain ⟨c, rest, rfl⟩ := List.exists_cons_of_ne_nil (List.ne_nil_of_mem ended)
  unfold skipComment
  by_cases mark : some c = some '#'
  · refine ⟨(c :: rest).takeWhile (· ≠ '\n'), (c :: rest).dropWhile (· ≠ '\n'),
      List.takeWhile_append_dropWhile.symm, mem_dropWhile_of_stop stop ended, ?_, ?_⟩
    · exact (if_pos mark).trans (Cursor.skipWhile_after _ _ _)
    · exact (if_pos mark).trans (Cursor.skipWhile_append stop ended _ _)
  · refine ⟨[], c :: rest, rfl, ended, ?_, ?_⟩
    · rw [List.append_nil]
      exact if_neg mark
    · rw [List.append_nil]
      exact if_neg mark

theorem skipGap_append (passed : List Char) (ended : '\n' ∈ text) (more : List Char) :
    ∃ gap rest, text = gap ++ rest ∧ '\n' ∈ rest ∧
      skipGap (.after passed text) = .after (passed ++ gap) rest ∧
      skipGap (.after passed (text ++ more)) = .after (passed ++ gap) (rest ++ more) := by
  have stop : isBlank '\n' = false := by decide
  obtain ⟨gap, rest, cut, later, alone, followed⟩ := skipComment_append
    (passed ++ text.takeWhile isBlank) (mem_dropWhile_of_stop stop ended) more
  rw [List.append_assoc] at alone followed
  refine ⟨text.takeWhile isBlank ++ gap, rest, ?_, later, ?_, ?_⟩
  · rw [List.append_assoc, ← cut, List.takeWhile_append_dropWhile]
  · rw [skipGap, skipBlanks, Cursor.skipWhile_after, alone]
  · rw [skipGap, skipBlanks, Cursor.skipWhile_append stop ended, followed]

theorem locate_after (file : sc'.file = sc.file) (passed rest rest' : List Char) :
    sc'.locate (.after passed rest') = sc.locate (.after passed rest) := by
  rw [locate, file]
  rfl

/-- A step over whole lines is the same with more text behind them, and does not hand out the end. -/
theorem next_append_ok {token : Token} (step : next sc = .ok token t) (file : sc'.file = sc.file)
    (stands : sc.cursor = .after passed text) (stands' : sc'.cursor = .after passed (text ++ more))
    (ended : '\n' ∈ text) :
    token.kind ≠ .eof ∧ ∃ t' front rest, next sc' = .ok token t' ∧ t'.file = t.file ∧
      text = front ++ rest ∧ t.cursor = .after (passed ++ front) rest ∧
      t'.cursor = .after (passed ++ front) (rest ++ more) := by
  obtain ⟨lexeme, found, rfl, rfl⟩ := next_ok step
  obtain ⟨gap, behind, rfl, later, alone, followed⟩ := skipGap_append passed ended more
  rw [← stands] at alone
  rw [← stands'] at followed
  rw [alone, Cursor.after_rest] at found
  refine ⟨fun isEnd => ?_, ?_⟩
  · rw [Lexeme.read_eof found isEnd] at later
    cases later
  have step' := @next_of_read sc' lexeme
    (by rw [followed, Cursor.after_rest, Lexeme.read_append later more, found])
  obtain ⟨rest, rfl, width, -, -⟩ := Lexeme.read_heads found
  rw [followed, locate_after file _ (_ ++ rest), ← alone, width, List.append_assoc,
    Cursor.skip_after] at step'
  refine ⟨_, gap ++ lexeme.kind.written lexeme.text, rest, step', file, ?_, ?_, ?_⟩
  · rw [List.append_assoc]
  · rw [alone, width, Cursor.skip_after, List.append_assoc]
  · rw [List.append_assoc]

/-- A fault in whole lines is the same with more text behind them. -/
theorem next_append_error {fault : Diagnostic} (failed : next sc = .error fault t)
    (file : sc'.file = sc.file) (stands : sc.cursor = .after passed text)
    (stands' : sc'.cursor = .after passed (text ++ more)) (ended : '\n' ∈ text) :
    ∃ t', next sc' = .error fault t' := by
  obtain ⟨misread, found, rfl, -⟩ := next_error failed
  obtain ⟨gap, behind, rfl, later, alone, followed⟩ := skipGap_append passed ended more
  rw [← stands] at alone
  rw [← stands'] at followed
  rw [alone, Cursor.after_rest] at found
  have failed' := @next_of_misread sc' misread
    (by rw [followed, Cursor.after_rest, Lexeme.read_append later more, found])
  obtain ⟨front, back, -, rfl, width, inside, -⟩ := Lexeme.read_error found
  have closing : '\n' ∈ back := (List.mem_append.1 later).resolve_left inside
  have same : sc'.complaint (skipGap sc'.cursor) misread = sc.complaint (skipGap sc.cursor) misread := by
    rw [followed, alone, complaint, complaint, ← width, List.append_assoc, Cursor.skip_after,
      Cursor.skip_after, Cursor.lineText_after, Cursor.lineText_after, lineAt, lineAt,
      takeWhile_append_of_stop (p := (· ≠ '\n')) (by decide) closing]
    split
    · rw [locate_after file _ back]
    · rw [locate_after file _ (front ++ back)]
  rw [same] at failed'
  exact ⟨_, failed'⟩

end Scanner

theorem Closed.newline_mem {text : List Char} (closed : Closed text) (some : text ≠ []) : '\n' ∈ text := by
  have last := List.getLast?_eq_some_getLast some
  rw [← closed _ last]
  exact List.getLast_mem some

/-- One stream after another: the end of the first is left out, and nothing follows its fault. -/
def Stream.append (first second : Stream) : Stream :=
  match first.fault with
  | some _ => first
  | none => ⟨first.tokens.filter (·.kind ≠ .eof) ++ second.tokens, second.fault⟩

theorem Stream.append_cons {token : Token} (more : token.kind ≠ .eof) (first second : Stream) :
    (cons token first).append second = cons token (first.append second) := by
  obtain ⟨tokens, fault⟩ := first
  rw [cons_of_more more, cons_of_more more]
  cases fault with
  | some fault => rfl
  | none =>
    unfold append
    dsimp only
    rw [List.filter_cons_of_pos (by simpa using more), List.cons_append]

theorem Stream.append_of_fault {first : Stream} {fault : Diagnostic} (found : first.fault = some fault)
    (second : Stream) : first.append second = first := by
  simp only [append, found]

theorem Stream.append_of_whole {front : List Token} {last : Token} (isEnd : last.kind = .eof)
    (others : ∀ token ∈ front, token.kind ≠ .eof) (second : Stream) :
    append ⟨front ++ [last], none⟩ second = ⟨front ++ second.tokens, second.fault⟩ := by
  simpa [append, List.filter_append, isEnd] using others

/-- A scanner goes over whole lines as if they were all, and then on to the text behind them. -/
theorem Scanner.stream_append (sc : Scanner) {more : List Char} {tail : Stream} :
    ∀ (sc' : Scanner) (passed text : List Char), sc'.file = sc.file → sc.cursor = .after passed text →
      sc'.cursor = .after passed (text ++ more) → Closed text →
      (∀ behind : Scanner, behind.file = sc.file → behind.cursor = .after (passed ++ text) more →
        behind.stream = tail) →
      sc'.stream = sc.stream.append tail := by
  fun_induction drain sc with
  | case1 sc fault t failed =>
    intro sc' passed text file stands stands' closed behind
    have some : text ≠ [] := by
      rintro rfl
      rw [next_at_end (by rw [stands]; rfl)] at failed
      cases failed
    obtain ⟨t', failed'⟩ := next_append_error failed file stands stands' (closed.newline_mem some)
    rw [stream_of_error failed, stream_of_error failed']
    rfl
  | case2 sc token t step isEnd =>
    intro sc' passed text file stands stands' closed behind
    have none : text = [] := by
      by_contra some
      exact (next_append_ok step file stands stands' (closed.newline_mem some)).1 isEnd
    subst none
    rw [behind sc' file (by simpa using stands'), stream_of_ok step, Stream.cons_of_end isEnd]
    simp [Stream.append, isEnd]
  | case3 sc token t step more later ih =>
    intro sc' passed text file stands stands' closed behind
    have some : text ≠ [] := by
      rintro rfl
      rw [next_at_end (by rw [stands]; rfl)] at step
      cases step
      exact more rfl
    obtain ⟨-, t', front, rest, step', file', rfl, moved, moved'⟩ :=
      next_append_ok step file stands stands' (closed.newline_mem some)
    have sameFile : t.file = sc.file := by
      obtain ⟨_, -, -, rfl⟩ := next_ok step
      rfl
    rw [stream_of_ok step, stream_of_ok step', Stream.append_cons more,
      ih t' _ _ file' moved moved' closed.of_append fun far placed stood =>
        behind far (placed.trans sameFile) (by rw [stood, List.append_assoc])]

/-- The tokens of two texts with a newline between them. -/
theorem Scanner.stream_join (file first second : String) :
    (start file (first ++ "\n" ++ second)).stream =
      (start file first).stream.append
        ((start file second).stream.down (first.toList.count '\n' + 1)) := by
  have text : (first ++ "\n" ++ second).toList ++ ['\n'] =
      (first.toList ++ ['\n']) ++ (second.toList ++ ['\n']) := by simp
  have lines : (first.toList ++ ['\n']).count '\n' = first.toList.count '\n' + 1 := by
    rw [List.count_append]
    rfl
  have stands : (start file (first ++ "\n" ++ second)).cursor =
      .after [] ((first.toList ++ ['\n']) ++ (second.toList ++ ['\n'])) := by
    rw [← text]
    rfl
  refine stream_append _ _ _ _ rfl (Cursor.start_eq_after _) stands (closed_concat _) ?_
  · intro behind inFile stands
    rw [List.nil_append, Cursor.after_eq_below (openLine_newline _)] at stands
    rw [← lines]
    exact stream_below (start file second) behind _ inFile stands

theorem Scanner.stream_join_of_whole {file first : String}
    (whole : (start file first).drain.fault = none) (second : String) :
    ∃ front last, (start file first).drain.tokens = front ++ [last] ∧ last.kind = .eof ∧
      (∀ token ∈ front, token.kind ≠ .eof) ∧
      (start file (first ++ "\n" ++ second)).stream =
        ⟨front ++ (start file second).drain.tokens.map (Token.down (first.toList.count '\n' + 1)),
          (start file second).drain.fault.map (Diagnostic.down (first.toList.count '\n' + 1))⟩ := by
  obtain ⟨front, last, tokens, isEnd, others⟩ := drain_last _ whole
  have alone : (start file first).stream = ⟨front ++ [last], none⟩ := by
    rw [stream, tokens, whole]
  refine ⟨front, last, tokens, isEnd, others, ?_⟩
  rw [stream_join, alone, Stream.append_of_whole isEnd others]
  rfl

/-- **Scanning is a homomorphism over lines.** The tokens of two texts with a newline between them are the
tokens of the first without its end, and the tokens and the fault of the second, so many lines further
down. A fault of the first text is the fault of both. -/
theorem scan_append_line (file first second : String) :
    let one := (Scanner.start file first).drain
    let two := (Scanner.start file second).drain
    let both := (Scanner.start file (first ++ "\n" ++ second)).drain
    let lines := first.toList.count '\n' + 1
    match one.fault with
    | some fault => both.tokens = one.tokens ∧ both.fault = some fault
    | none => ∃ front last, one.tokens = front ++ [last] ∧ last.kind = .eof ∧
        (∀ token ∈ front, token.kind ≠ .eof) ∧
        both.tokens = front ++ two.tokens.map (Token.down lines) ∧
        both.fault = two.fault.map (Diagnostic.down lines) := by
  intro one two both lines
  cases found : one.fault with
  | some fault =>
    have joined := Scanner.stream_join file first second
    rw [Stream.append_of_fault found] at joined
    exact ⟨congrArg Stream.tokens joined, (congrArg Stream.fault joined).trans found⟩
  | none =>
    obtain ⟨front, last, tokens, isEnd, others, joined⟩ := Scanner.stream_join_of_whole found second
    exact ⟨front, last, tokens, isEnd, others, congrArg Stream.tokens joined, congrArg Stream.fault joined⟩

end LineBasic
