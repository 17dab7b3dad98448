import LineBasic.Compile
import LineBasic.Proofs.Token.Lexeme

/-!
# The tokens that a pass sees

A pass holds two tokens and a scanner, but what it reads is one stream: the tokens up to the end of the
text or up to the first fault, and that fault. `State.stream` is this stream as it lies before a state.
At the start of a pass it is the stream of the whole source (`stream_start`), and each move takes one
token off its front (`stream_advance`). A move fails only where the stream has a fault, two tokens
ahead (`advance_fault`). What a step of the scanner and the start of a pass can do at all is said by
`next_ok`, `next_error` and `start_ok`.
-/

namespace LineBasic

set_option autoImplicit false

/-- Tokens up to the end of a text, or up to a fault. -/
structure Stream where
  tokens : List Token
  fault : Option Diagnostic
  deriving DecidableEq

namespace Stream

/-- A token before a stream. Nothing follows the end of the text. -/
def cons (token : Token) (rest : Stream) : Stream :=
  if token.kind = .eof then ⟨[token], none⟩ else ⟨token :: rest.tokens, rest.fault⟩

theorem cons_of_more {token : Token} (more : token.kind ≠ .eof) (rest : Stream) :
    cons token rest = ⟨token :: rest.tokens, rest.fault⟩ := if_neg more

theorem cons_of_end {token : Token} (isEnd : token.kind = .eof) (rest : Stream) :
    cons token rest = ⟨[token], none⟩ := if_pos isEnd

theorem cons_tokens (token : Token) (rest : Stream) :
    ∃ later, (cons token rest).tokens = token :: later := by
  unfold cons
  split
  · exact ⟨[], rfl⟩
  · exact ⟨rest.tokens, rfl⟩

end Stream

/-! ## The scanner -/

namespace Scanner

/-- The tokens that a scanner has still to hand out. -/
def stream (sc : Scanner) : Stream := ⟨sc.drain.tokens, sc.drain.fault⟩

/-- A scanner at the end of its text hands out the end and stays. -/
theorem next_at_end {sc : Scanner} (ended : sc.cursor.rest = []) :
    next sc = .ok ⟨.eof, "", sc.location⟩ sc := by
  have gap : skipGap sc.cursor = sc.cursor := by
    have blanks : skipBlanks sc.cursor = sc.cursor := by
      simp [skipBlanks, Cursor.skipWhile, ended, Cursor.skip]
    simp [skipGap, blanks, skipComment, Cursor.current?, ended]
  unfold next
  simp only [gap, ended, Lexeme.read]
  rfl

theorem next_of_read {sc : Scanner} {lexeme : Lexeme}
    (found : Lexeme.read (skipGap sc.cursor).rest = .ok lexeme) :
    next sc = .ok ⟨lexeme.kind, String.ofList lexeme.text, sc.locate (skipGap sc.cursor)⟩
      { sc with
        cursor := (skipGap sc.cursor).skip lexeme.width
        count := if lexeme.kind = .eof then sc.count else sc.count + 1 } := by
  unfold next
  simp only [found]

/-- The diagnostic for a misreading at a cursor. -/
def complaint (sc : Scanner) (here : Cursor) (misread : Misread) : Diagnostic :=
  { cause := misread.cause
    location := some (sc.locate (if misread.atStop then here.skip misread.width else here))
    sourceLine := some (String.ofList (here.skip misread.width).lineText) }

theorem next_of_misread {sc : Scanner} {misread : Misread}
    (found : Lexeme.read (skipGap sc.cursor).rest = .error misread) :
    next sc = .error (sc.complaint (skipGap sc.cursor) misread)
      { sc with cursor := (skipGap sc.cursor).skip misread.width } := by
  unfold next
  simp only [found]
  rfl

/-- All that a step does when it hands out a token. -/
theorem next_ok {sc sc' : Scanner} {token : Token} (step : next sc = .ok token sc') :
    ∃ lexeme, Lexeme.read (skipGap sc.cursor).rest = .ok lexeme ∧
      token = ⟨lexeme.kind, String.ofList lexeme.text, sc.locate (skipGap sc.cursor)⟩ ∧
      sc' = { sc with
        cursor := (skipGap sc.cursor).skip lexeme.width
        count := if lexeme.kind = .eof then sc.count else sc.count + 1 } := by
  cases found : Lexeme.read (skipGap sc.cursor).rest with
  | ok lexeme =>
    rw [next_of_read found] at step
    cases step
    exact ⟨lexeme, rfl, rfl, rfl⟩
  | error misread =>
    rw [next_of_misread found] at step
    cases step

/-- All that a step does when it fails. -/
theorem next_error {sc sc' : Scanner} {fault : Diagnostic} (failed : next sc = .error fault sc') :
    ∃ misread, Lexeme.read (skipGap sc.cursor).rest = .error misread ∧
      fault = sc.complaint (skipGap sc.cursor) misread ∧
      sc' = { sc with cursor := (skipGap sc.cursor).skip misread.width } := by
  cases found : Lexeme.read (skipGap sc.cursor).rest with
  | ok lexeme =>
    rw [next_of_read found] at failed
    cases failed
  | error misread =>
    rw [next_of_misread found] at failed
    cases failed
    exact ⟨misread, rfl, rfl, rfl⟩

theorem next_text {sc sc' : Scanner} {token : Token} (step : next sc = .ok token sc') :
    sc'.text = sc.text := by
  obtain ⟨lexeme, -, -, rfl⟩ := next_ok step
  rfl

/-- Once the end was handed out there is no text left. -/
theorem next_end_rest {sc sc' : Scanner} {token : Token} (step : next sc = .ok token sc')
    (isEnd : token.kind = .eof) : sc'.cursor.rest = [] := by
  obtain ⟨lexeme, found, rfl, rfl⟩ := next_ok step
  simp [Lexeme.read_eof found isEnd]

theorem stream_of_ok {sc sc' : Scanner} {token : Token} (step : next sc = .ok token sc') :
    sc.stream = .cons token sc'.stream := by
  unfold stream
  rw [drain]
  split
  · rename_i fault sc'' failed
    rw [step] at failed
    cases failed
  · rename_i token' sc'' step'
    rw [step] at step'
    cases step'
    unfold Stream.cons
    split <;> rfl

theorem stream_of_error {sc sc' : Scanner} {fault : Diagnostic} (failed : next sc = .error fault sc') :
    sc.stream = ⟨[], some fault⟩ := by
  unfold stream
  rw [drain]
  split
  · rename_i fault' sc'' failed'
    rw [failed] at failed'
    cases failed'
    rfl
  · rename_i token sc'' step
    rw [failed] at step
    cases step

end Scanner

namespace Pass

namespace State

/-- The tokens from the current one on. -/
def stream (s : State) : Stream := .cons s.current (.cons s.ahead s.scanner.stream)

/-- Once the end is among the two tokens, the scanner has no text left. -/
def Primed (s : State) : Prop := s.ahead.kind = .eof → s.scanner.cursor.rest = []

theorem stream_current (s : State) : ∃ later, s.stream.tokens = s.current :: later :=
  Stream.cons_tokens _ _

theorem stream_at_end {s : State} (isEnd : s.current.kind = .eof) : s.stream = ⟨[s.current], none⟩ :=
  Stream.cons_of_end isEnd _

end State

/-- A pass that starts has read two tokens, and done nothing else. -/
theorem start_ok {options : Options} {file source : String} {s : State}
    (started : start options file source = .ok s) :
    ∃ sc, Scanner.next (Scanner.start file source) = .ok s.current sc ∧
      Scanner.next sc = .ok s.ahead s.scanner ∧
      s = { options, scanner := s.scanner, current := s.current, ahead := s.ahead, output := .empty
            vars := .empty, labels := .empty, jumps := .empty, statements := 0 } := by
  unfold start at started
  split at started
  · cases started
  · rename_i current sc first
    split at started
    · cases started
    · rename_i ahead sc' second
      cases started
      exact ⟨sc, first, second, rfl⟩

theorem stream_start {options : Options} {file source : String} {s : State}
    (started : start options file source = .ok s) :
    s.stream = (Scanner.start file source).stream ∧ s.Primed := by
  obtain ⟨sc, first, second, -⟩ := start_ok started
  refine ⟨?_, fun isEnd => Scanner.next_end_rest second isEnd⟩
  rw [Scanner.stream_of_ok first, Scanner.stream_of_ok second]
  rfl

/-- A pass that cannot start stumbles over the fault of its source, among the first two tokens. -/
theorem fault_start {options : Options} {file source : String} {fault : Diagnostic}
    (failed : start options file source = .error fault) :
    (Scanner.start file source).stream.fault = some fault := by
  unfold start at failed
  split at failed
  · rename_i first
    cases failed
    rw [Scanner.stream_of_error first]
  · rename_i current sc first
    split at failed
    · rename_i second
      cases failed
      have more : current.kind ≠ .eof := fun isEnd => by
        rw [Scanner.next_at_end (Scanner.next_end_rest first isEnd)] at second
        cases second
      rw [Scanner.stream_of_ok first, Scanner.stream_of_error second, Stream.cons_of_more more]
    · cases failed

theorem text_start {options : Options} {file source : String} {s : State}
    (started : start options file source = .ok s) : s.scanner.text = source.toList ++ ['\n'] := by
  obtain ⟨sc, first, second, -⟩ := start_ok started
  exact (Scanner.next_text second).trans (Scanner.next_text first)

/-- A move takes the current token off the stream. It changes nothing but the tokens. -/
theorem stream_advance {s t : State} (moved : advance s = .ok () t) :
    s.stream = .cons s.current t.stream ∧ (s.Primed → t.Primed) ∧
      t = { s with scanner := t.scanner, current := t.current, ahead := t.ahead } ∧
      t.scanner.text = s.scanner.text := by
  unfold advance at moved
  split at moved
  · rename_i token sc step
    cases moved
    refine ⟨?_, fun _ isEnd => Scanner.next_end_rest step isEnd, rfl, Scanner.next_text step⟩
    rw [State.stream, Scanner.stream_of_ok step]
    rfl
  · cases moved

/-- A move fails only over a fault of the stream, with no token left to read. -/
theorem advance_fault {s t : State} {fault : Diagnostic} (primed : s.Primed)
    (more : s.current.kind ≠ .eof) (failed : advance s = .error fault t) :
    s.stream = ⟨[s.current, s.ahead], some fault⟩ := by
  unfold advance at failed
  split at failed
  · cases failed
  · rename_i sc step
    cases failed
    have further : s.ahead.kind ≠ .eof := fun isEnd => by
      rw [Scanner.next_at_end (primed isEnd)] at step
      cases step
    rw [State.stream, Scanner.stream_of_error step, Stream.cons_of_more more,
      Stream.cons_of_more further]

end Pass

end LineBasic
