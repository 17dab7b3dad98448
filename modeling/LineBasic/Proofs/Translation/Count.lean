import LineBasic.Proofs.Token.Lossless
import LineBasic.Proofs.Translation.Program

/-!
# Every token is counted once

The scanner counts the tokens that it hands out before the end. A pass asks it for tokens ahead of need,
and for more of them when the end was handed out. Still the count of a whole pass is the number of tokens
of the source: what was counted and what is to come have the same sum in all states (`lasting_tallied`),
and when the end is the current token, nothing is to come.
-/

namespace LineBasic

set_option autoImplicit false

namespace Scanner

/-- The tokens before the end that were counted or are still to come. -/
def total (sc : Scanner) : Nat := sc.count + sc.stream.tokens.countP (·.kind ≠ .eof)

theorem stream_at_end {sc : Scanner} (ended : sc.cursor.rest = []) :
    sc.stream = ⟨[⟨.eof, "", sc.location⟩], none⟩ := by
  rw [stream_of_ok (next_at_end ended), Stream.cons_of_end rfl]

theorem total_at_end {sc : Scanner} (ended : sc.cursor.rest = []) : sc.total = sc.count := by
  simp [total, stream_at_end ended]

theorem next_total {sc t : Scanner} {token : Token} (step : next sc = .ok token t)
    (whole : sc.stream.fault = none) : t.stream.fault = none ∧ t.total = sc.total := by
  have stream := stream_of_ok step
  obtain ⟨lexeme, -, kind, counted⟩ := next_ok step
  by_cases isEnd : token.kind = .eof
  · have ended := next_end_rest step isEnd
    have same : t.count = sc.count := by
      rw [counted]
      exact if_pos (by rw [kind] at isEnd; exact isEnd)
    refine ⟨by rw [stream_at_end ended], ?_⟩
    rw [total_at_end ended, same, total, stream, Stream.cons_of_end isEnd]
    simp [isEnd]
  · have more : t.count = sc.count + 1 := by
      rw [counted]
      exact if_neg (by rw [kind] at isEnd; exact isEnd)
    rw [Stream.cons_of_more isEnd] at stream
    refine ⟨by rw [stream] at whole; exact whole, ?_⟩
    rw [total, total, more, stream, List.countP_cons_of_pos (by simpa using isEnd)]
    omega

/-- The tokens of a source without a fault, the end among them. -/
theorem total_start {file source : String} (whole : (start file source).drain.fault = none) :
    (start file source).total + 1 = (start file source).drain.tokens.length := by
  obtain ⟨front, last, tokens, isEnd, others⟩ := drain_last _ whole
  have all : front.countP (·.kind ≠ .eof) = front.length :=
    List.countP_eq_length.2 (by simpa using others)
  have none : [last].countP (·.kind ≠ .eof) = 0 := by simp [isEnd]
  show 0 + (start file source).drain.tokens.countP _ + 1 = _
  rw [tokens, List.countP_append, all, none, List.length_append]
  simp

end Scanner

namespace Pass

/-- Tokens were counted and are to come as in the whole source, and none after the end. -/
structure State.Tallied (total : Nat) (s : State) : Prop where
  whole : s.scanner.stream.fault = none
  sum : s.scanner.total = total
  closing : s.current.kind = .eof ∨ s.ahead.kind = .eof → s.scanner.cursor.rest = []

theorem State.Tallied.advance {total : Nat} {s : State} (tallied : s.Tallied total) :
    (after advance s).Tallied total := by
  unfold after Pass.advance
  cases step : Scanner.next s.scanner with
  | error fault sc =>
    have stuck := tallied.whole
    rw [Scanner.stream_of_error step] at stuck
    cases stuck
  | ok token sc =>
    obtain ⟨whole, sum⟩ := Scanner.next_total step tallied.whole
    refine ⟨whole, sum.trans tallied.sum, ?_⟩
    rintro (ended | ended)
    · have rest := tallied.closing (.inr ended)
      rw [Scanner.next_at_end rest] at step
      cases step
      exact rest
    · exact Scanner.next_end_rest step ended

theorem lasting_tallied (total : Nat) : Lasting fun s t => s.Tallied total → t.Tallied total where
  refl _ := id
  trans first second := second ∘ first
  moves _ := State.Tallied.advance
  writes _ _ tallied := ⟨tallied.whole, tallied.sum, tallied.closing⟩
  counts _ tallied := ⟨tallied.whole, tallied.sum, tallied.closing⟩
  labels _ _ tallied := ⟨tallied.whole, tallied.sum, tallied.closing⟩
  jumps _ tallied := ⟨tallied.whole, tallied.sum, tallied.closing⟩
  declares earlier _ _ _ tallied :=
    have tallied := earlier tallied
    ⟨tallied.whole, tallied.sum, tallied.closing⟩

theorem tallied_start {options : Options} {file source : String} {s : State}
    (started : start options file source = .ok s)
    (whole : (Scanner.start file source).stream.fault = none) :
    s.Tallied (Scanner.start file source).total := by
  obtain ⟨sc, first, second, -⟩ := start_ok started
  obtain ⟨whole, sum⟩ := Scanner.next_total first whole
  obtain ⟨whole, sum'⟩ := Scanner.next_total second whole
  refine ⟨whole, sum'.trans sum, ?_⟩
  rintro (ended | ended)
  · have rest := Scanner.next_end_rest first ended
    rw [Scanner.next_at_end rest] at second
    injection second with _ same
    rwa [← same]
  · exact Scanner.next_end_rest second ended

theorem program_at_end {s t : State} (spelled : s.Spelled) (done : program s = .ok () t) :
    t.current.kind = .eof := by
  obtain ⟨q, r, u, rfl, skipped, read, rfl⟩ := program_cases done
  obtain ⟨blank, blanks, turned⟩ := skipNewlines_reads skipped
  exact (statements_read (turned.spelled spelled) read).1

end Pass

/-- The tokens of a compiled source are all tokens but the end. -/
theorem tokens_of_compile {options : Options} {file source : String} {result : Compiled}
    (compiled : compile options file source = .ok result) :
    result.tokens + 1 = (Scanner.start file source).drain.tokens.length := by
  obtain ⟨s, t, started, done, rfl, accepted⟩ := accepted_of_compile compiled
  have begun := Pass.tallied_start started accepted.whole
  have lasting := Pass.lasting_tallied (Scanner.start file source).total
  have within := lasting.within_program (fun _ _ _ tallied => ⟨tallied.whole, tallied.sum, tallied.closing⟩) s
  have ended := Pass.within_ok within done begun
  have rest := ended.closing (.inl (Pass.program_at_end (start_spelled started) done))
  have counted : t.scanner.count = (Scanner.start file source).total := by
    rw [← Scanner.total_at_end rest, ended.sum]
  rw [← Scanner.total_start accepted.whole, ← counted]
  rfl

end LineBasic
