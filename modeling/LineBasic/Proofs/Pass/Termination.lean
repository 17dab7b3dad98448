import LineBasic.Proofs.Diagnosis.Pointing
import LineBasic.Proofs.Pass.Descent
import LineBasic.Proofs.Pass.Invariant
import LineBasic.Proofs.Token.Acts
import LineBasic.Proofs.Translation.Figures

/-!
# Scanning and reading make progress, and end

A token that is not the end moves the scanner on, and behind the end nothing moves any more (`perform_at_end`). A
statement that a pass has read took at least three tokens, none of them the end, and all the newlines behind it
(`statement_takes`). So the text that is left bounds the rounds of every loop and the depth of nested statements:
with a limit above it the loops of `drainWithin` and of `Limited` steps are never cut off, whatever the source
(`scan_and_pass_end`).
-/

namespace LineBasic

set_option autoImplicit false

/-! ## The scanner -/

theorem Cursor.pos_lt_skip {n : Nat} {c : Cursor} (some : 0 < n) (more : 0 < c.rest.length) :
    c.pos < (c.skip n).pos := by
  obtain ⟨n, rfl⟩ := Nat.exists_eq_succ_of_ne_zero (Nat.pos_iff_ne_zero.1 some)
  obtain ⟨char, rest, text⟩ := List.exists_cons_of_length_pos more
  have first : c.advance.pos = c.pos + 1 := by
    unfold advance
    split <;> simp_all
  have later := pos_le_skip n c.advance
  rw [skip]
  omega

namespace Scanner

variable {sc sc' : Scanner} {token : Token}

theorem pos_lt_next (step : next sc = .ok token sc') (more : token.kind ≠ .eof) :
    sc.cursor.pos < sc'.cursor.pos := by
  obtain ⟨lexeme, found, rfl, rfl⟩ := next_ok step
  rcases Lexeme.read_width found with isEnd | ⟨wide, text⟩
  · exact absurd isEnd more
  · exact Nat.lt_of_le_of_lt (pos_le_skipGap _) (Cursor.pos_lt_skip wide text)

theorem run_at_end (ended : sc.cursor.rest = []) (act : Act) : act.run sc = sc := by
  have step := next_at_end ended
  cases act with
  | next => simp only [Act.run, step]
  | drain =>
    rw [Act.run, drain]
    split <;> simp_all
  | advance => rw [Act.run, Cursor.advance_of_end ended]
  | skipBlanks => rw [Act.run, skipBlanks, Cursor.skipWhile, Cursor.skip_of_end ended]
  | skipComment =>
    obtain ⟨n, moved⟩ := exists_skipComment_eq sc.cursor
    rw [Act.run, moved, Cursor.skip_of_end ended]

theorem perform_at_end (ended : sc.cursor.rest = []) (acts : List Act) : perform acts sc = sc := by
  induction acts with
  | nil => rfl
  | cons act acts ih =>
    rw [perform, List.foldl_cons, run_at_end ended]
    exact ih

/-- The end is handed out again and again, from the same place. -/
theorem next_again (step : next sc = .ok token sc') (isEnd : token.kind = .eof) :
    next sc' = .ok token sc' := by
  have ended := next_end_rest step isEnd
  obtain ⟨lexeme, found, rfl, rfl⟩ := next_ok step
  have nothing := Lexeme.read_eof found isEnd
  rw [nothing] at found
  cases found
  exact next_at_end ended

/-- Tokens up to the end or the first fault, if these come up within some rounds. -/
def drainWithin : (rounds : Nat) → Scanner → Option Listing
  | 0, _ => none
  | rounds + 1, sc =>
      match next sc with
      | .error fault sc' => some ⟨[], some fault, sc'⟩
      | .ok token sc' =>
          if token.kind = .eof then some ⟨[token], none, sc'⟩
          else
            (drainWithin rounds sc').map fun later =>
              ⟨token :: later.tokens, later.fault, later.scanner⟩

/-- Every round but the last takes a character. -/
theorem drainWithin_eq (rounds : Nat) (sc : Scanner) (enough : sc.cursor.rest.length < rounds) :
    drainWithin rounds sc = some sc.drain := by
  fun_induction drain sc generalizing rounds with
  | case1 sc fault sc' failed =>
    obtain ⟨rounds, rfl⟩ := Nat.exists_eq_add_one_of_ne_zero (Nat.ne_zero_of_lt enough)
    simp only [drainWithin, failed]
  | case2 sc token sc' step isEnd =>
    obtain ⟨rounds, rfl⟩ := Nat.exists_eq_add_one_of_ne_zero (Nat.ne_zero_of_lt enough)
    simp only [drainWithin, step, if_pos isEnd]
  | case3 sc token sc' step more later ih =>
    obtain ⟨rounds, rfl⟩ := Nat.exists_eq_add_one_of_ne_zero (Nat.ne_zero_of_lt enough)
    have shorter := next_rest_length_lt step more
    simp only [drainWithin, step, if_neg more, ih rounds (by omega), Option.map_some]
    rfl

end Scanner

namespace Pass

/-! ## What a statement takes -/

variable {s t : State}

theorem more_of_split_cons {first token : Token} {rest : Stream} {before after : List Token}
    (later : ∀ {before token after}, rest.tokens = before ++ token :: after →
      ∀ other ∈ before, other.kind ≠ .eof)
    (split : (Stream.cons first rest).tokens = before ++ token :: after) :
    ∀ other ∈ before, other.kind ≠ .eof := by
  intro other member
  obtain ⟨front, before, rfl⟩ := List.exists_cons_of_ne_nil (List.ne_nil_of_mem member)
  by_cases isEnd : first.kind = .eof
  · rw [Stream.cons_of_end isEnd] at split
    simp at split
  · rw [Stream.cons_of_more isEnd] at split
    obtain ⟨rfl, behind⟩ := List.cons.inj (split.trans (List.cons_append ..))
    rcases List.mem_cons.1 member with rfl | member
    · exact isEnd
    · exact later behind other member

/-- Nothing comes after the end in what a pass has before it. -/
theorem State.more_of_split {before after : List Token} {token : Token}
    (split : s.stream.tokens = before ++ token :: after) : ∀ other ∈ before, other.kind ≠ .eof :=
  more_of_split_cons (more_of_split_cons Scanner.more_of_split) split

theorem Took.more {tokens : List Token} (took : Took tokens s t) :
    ∀ token ∈ tokens, token.kind ≠ .eof := by
  obtain ⟨later, current⟩ := t.stream_current
  exact State.more_of_split (took.stream.trans (by rw [current]))

theorem statement_counted (done : statement s = .ok () t) : s.statements < t.statements := by
  unfold statement at done
  obtain ⟨opened, r, begun, done⟩ := bind_ok done
  have counted := openStatement_counted begun
  have grows := within_ok (lasting_grows.within_closeBlocks opened.toList r) done
  have := grows.statements
  omega

/-- All newlines at the end of a line are taken. -/
theorem newline_past (done : newline s = .ok () t) : t.current.kind ≠ .newline := by
  unfold newline at done
  obtain ⟨_, r, -, done⟩ := bind_ok done
  unfold skipNewlines at done
  fun_induction iterate newlineRound shrinking_newlineRound () r with
  | case1 a r u round =>
    cases done
    obtain ⟨rfl, past⟩ := newlineRound_none round
    exact past
  | case2 a r b u round ih => exact ih done
  | case3 => cases done

theorem statement_past (done : statement s = .ok () t) : t.current.kind ≠ .newline := by
  unfold statement at done
  obtain ⟨opened, r, begun, done⟩ := bind_ok done
  cases opened with
  | none =>
    rw [Option.toList_none, closeBlocks_nil] at done
    cases done
    obtain ⟨_, _, -, -, -, ⟨rest, v, -, -, -, ended⟩ | ⟨block, other, -⟩⟩ := openStatement_cases begun
    · exact newline_past ended
    · cases other
  | some block =>
    rw [Option.toList_some, closeBlocks_singleton] at done
    obtain ⟨_, u, -, done⟩ := bind_ok done
    obtain ⟨_, v, -, ended⟩ := bind_ok done
    exact newline_past ended

/-- A statement takes three tokens, none of them the end, and leaves no newline to be read. -/
theorem statement_takes (spelled : s.Spelled) (done : statement s = .ok () t) :
    ∃ tokens, s.stream.tokens = tokens ++ t.stream.tokens ∧ 3 ≤ tokens.length ∧
      (∀ token ∈ tokens, token.kind ≠ .eof) ∧ t.current.kind ≠ .newline := by
  obtain ⟨tokens, code, translated⟩ := statement_reads spelled done
  refine ⟨tokens, translated.stream, ?_, translated.toTook.more, statement_past done⟩
  have some := statement_counted done
  have counted := translated.counted
  have least := translated.reads.three_mul_starts_le
  omega

/-! ## The states of a program -/

theorem visited_of_lineRound {blocks : List Block} {handed : Option (List Block)} (visited : Visited s)
    (done : lineRound blocks s = .ok handed t) : Visited t := by
  have lasting := lasting_visited
  cases blocks with
  | nil =>
    rw [lineRound_nil, get_bind_apply] at done
    split at done
    · cases done
      exact visited
    · exact within_ok (lasting.within_bind (lasting.within_openStatement s) fun _ r _ =>
        lasting.within_pure _ r) done visited
  | cons block outer =>
    rw [lineRound_cons] at done
    exact within_ok (lasting.within_bind (lasting.within_blockMove block outer s) fun _ r _ =>
      lasting.within_pure _ r) done visited

/-- A pass over a program visits the states in which it enters statements, those of inner blocks among them. -/
theorem Visited.enters (visited : Visited s) (enters : Enters s t) : Visited t := by
  obtain ⟨blocks, ⟨r, begun, rounds⟩, -⟩ := enters
  induction rounds with
  | first =>
    exact within_ok (lasting_visited.within_skipNewlines _) begun ((visited.headed _).headed _)
  | next _ handed ih => exact visited_of_lineRound ih handed

/-! ## The measure -/

/-- There is no more to read than the characters of the source and the newline put after them. -/
theorem remaining_start {options : Options} {file source : String}
    (started : start options file source = .ok s) : s.remaining ≤ source.length + 1 := by
  obtain ⟨sc, first, second, -⟩ := start_ok started
  have paid := Scanner.next_rest_length first
  have paid' := Scanner.next_rest_length second
  have length : (Scanner.start file source).cursor.rest.length = source.length + 1 := by
    simp [Scanner.start, Cursor.start, String.length_toList]
  unfold State.remaining
  omega

end Pass

open Pass

/-- **Scanning and reading end, since every step makes progress.** A token that is not the end moves the scanner on;
once the end was handed out, nothing that the scanner is told changes it, and the same end is handed out again. A
pass over a program enters statements only in states that it visits, and a statement that is read in such a state
takes three tokens at least, none of them the end, and leaves no newline. So nothing goes on for ever, whether the
source is well-formed or not: the loop over the tokens makes no more rounds than there are characters left, one
round for the end aside; the loops over newlines and over the operators of a chain, the recursion of statements with
the loops over their bodies, and the loop over a program are not cut off by a limit above what is left to read, which
at the start is at most the source and the newline put after it. -/
theorem scan_and_pass_end :
    (∀ sc sc' token, Scanner.next sc = .ok token sc' → token.kind ≠ .eof →
      sc.cursor.pos < sc'.cursor.pos) ∧
    (∀ sc sc' token, Scanner.next sc = .ok token sc' → token.kind = .eof →
      Scanner.next sc' = .ok token sc' ∧ ∀ acts, Scanner.perform acts sc' = sc') ∧
    (∀ s, Visited s → (∀ t, Enters s t → Visited t) ∧
      ∀ t, statement s = .ok () t →
        ∃ tokens, s.stream.tokens = tokens ++ t.stream.tokens ∧ 3 ≤ tokens.length ∧
          (∀ token ∈ tokens, token.kind ≠ .eof) ∧ t.current.kind ≠ .newline) ∧
    (∀ sc limit, sc.cursor.rest.length < limit → Scanner.drainWithin limit sc = some sc.drain) ∧
    (∀ s limit, s.remaining < limit →
      Completes (Limited.loop (fun a => liftM (newlineRound a)) limit ()) skipNewlines s ∧
      (∀ joins stops operand steady,
        Completes (Limited.loop (fun _ => liftM (link joins operand)) limit ())
          (chain joins stops operand steady) s) ∧
      Completes (Limited.statement limit limit) statement s ∧
      Completes (Limited.program limit) program s) ∧
    ∀ options file source s, start options file source = .ok s → s.remaining ≤ source.length + 1 := by
  refine ⟨fun _ _ _ => Scanner.pos_lt_next, ?_, ?_, fun sc limit => Scanner.drainWithin_eq limit sc, ?_,
    fun _ _ _ _ => remaining_start⟩
  · intro sc sc' token step isEnd
    exact ⟨Scanner.next_again step isEnd, Scanner.perform_at_end (Scanner.next_end_rest step isEnd)⟩
  · intro s visited
    exact ⟨fun t => visited.enters, fun t => statement_takes visited.spelled⟩
  · intro s limit enough
    exact ⟨completes_skipNewlines enough, fun _ _ _ _ => completes_chain enough,
      completes_statement enough enough, completes_program enough⟩

/-- A word; a scanner that has come to the end behind a comment; a block that is read, with a statement behind it
that is cut off. -/
theorem scan_and_pass_end_cut_off :
    (∃ token sc, Scanner.next (Scanner.start "demo" "x") = .ok token sc ∧ token.kind ≠ .eof ∧
      0 < sc.cursor.pos) ∧
    (let sc := Scanner.perform [.drain] (Scanner.start "demo" "x # y")
      ∃ token, token.kind = .eof ∧ Scanner.next sc = .ok token sc ∧ ∀ acts, Scanner.perform acts sc = sc) ∧
    let source := "IF 1 > 0 THEN\nPRINT 2\n\nENDIF\nPRINT"
    Scanner.drainWithin 36 (Scanner.start "demo" source) = some (Scanner.start "demo" source).drain ∧
      trace? {} "demo" source [] .program = none ∧
      ∃ s t, trace? {} "demo" source [] .statement = some (s, t) ∧
        (∃ tokens, s.stream.tokens = tokens ++ t.stream.tokens ∧ 3 ≤ tokens.length ∧
          (∀ token ∈ tokens, token.kind ≠ .eof) ∧ t.current.kind ≠ .newline) ∧
        Completes (Limited.program (s.remaining + 1)) program s := by
  obtain ⟨moves, stays, takes, drains, completes, -⟩ := scan_and_pass_end
  refine ⟨?_, ?_, drains _ _ (by decide), by decide +kernel, ?_⟩
  · have step : Scanner.next (Scanner.start "demo" "x") = .ok ⟨.ident, "x", ⟨"demo", 1, 1⟩⟩
        ⟨"demo", ['x', '\n'], ⟨['\n'], ['x', '\n'], 1, 1, 2⟩, 1⟩ := rfl
    exact ⟨_, _, step, by decide, moves _ _ _ step (by decide)⟩
  · have ended : (Scanner.perform [.drain] (Scanner.start "demo" "x # y")).cursor.rest = [] := by
      decide +kernel
    have step := Scanner.next_at_end ended
    exact ⟨_, rfl, step, (stays _ _ _ step rfl).2⟩
  · have reads : (trace? {} "demo" "IF 1 > 0 THEN\nPRINT 2\n\nENDIF\nPRINT" [] .statement).isSome := by
      decide +kernel
    obtain ⟨⟨s, t⟩, traced⟩ := Option.isSome_iff_exists.1 reads
    obtain ⟨reached, done⟩ := reached_of_trace? traced
    exact ⟨s, t, traced, (takes s reached.visited).2 t done, (completes s _ (Nat.lt_succ_self _)).2.2.2⟩

end LineBasic
