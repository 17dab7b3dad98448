import LineBasic.Proofs.Diagnosis.Pointing

/-!
# The end of a source

A newline stands before the end of every source, so the end is met where a line starts and nowhere else. There it
ends the program or, if blocks are open, is refused in place of the end of the innermost one; `openBlocks` reads
off the kinds of the tokens which blocks these are. Blank lines are passed before a statement is entered. So
statements are entered neither at a newline nor at the end, and where a newline is expected the source is not
over (`compile_error_at_end`).
-/

namespace LineBasic

set_option autoImplicit false

open Grammar Pass

/-! ## Open blocks -/

namespace Grammar

/-- The open blocks after a token, innermost first. -/
def track (blocks : List Block) : Kind → List Block
  | .keyword .if_ => .choice :: blocks
  | .keyword .while_ => .loop :: blocks
  | .keyword .endif | .keyword .endwhile => blocks.tail
  | _ => blocks

/-- The blocks that some tokens leave open, innermost first. -/
def openBlocks (word : List Kind) : List Block := word.foldl track []

namespace Point

/-- The blocks that are open at a position, one whose condition is being read among them. -/
def pending : Point → List Block
  | ⟨.operand (.condition block _) _, blocks⟩ | ⟨.signed (.condition block _), blocks⟩
  | ⟨.joined (.condition block _), blocks⟩ => block :: blocks
  | ⟨_, blocks⟩ => blocks

variable {p q : Point} {k : Kind}

/-- Blocks are begun and ended only where a line starts. -/
theorem track_of_inside (inside : p.stage ≠ .lineStart) (leads : p.next k = some q) (blocks : List Block) :
    track blocks k = blocks := by
  obtain ⟨stage, outer⟩ := p
  unfold track
  split
  case h_5 => rfl
  all_goals
    cases stage with
    | lineStart => exact absurd rfl inside
    | operand goal text => cases goal <;> cases text <;> cases leads
    | joined goal =>
      cases goal with
      | line => cases leads
      | condition block compared => cases block <;> cases compared <;> cases leads
    | _ => cases leads

theorem eq_joined_of_afterPrimary {goal : Goal} {blocks : List Block}
    (leads : afterPrimary goal blocks k = some q) : q = ⟨.joined goal, blocks⟩ := by
  unfold afterPrimary at leads
  split at leads <;> cases leads <;> rfl

/-- Strings are read only for a line, never in a condition. -/
def Quotes (p : Point) : Prop := ∀ goal, p.stage = .operand goal true → goal = .line

theorem quotes_next (leads : p.next k = some q) : q.Quotes := by
  obtain ⟨stage, blocks⟩ := p
  unfold Quotes
  cases stage with
  | lineStart =>
    by_cases newline : k = .newline
    · rw [next, if_pos newline] at leads
      cases leads
      rintro goal ⟨⟩
    · rw [next, if_neg newline, Option.or_eq_some_iff] at leads
      rcases leads with begins | ⟨-, ends⟩
      · unfold beginStatement at begins
        split at begins <;> cases begins <;> grind
      · cases blocks <;> grind [endBlock]
  | name assigns => cases assigns <;> grind [next]
  | operand | signed => grind [next, → eq_joined_of_afterPrimary]
  | joined goal => cases goal <;> grind [next, afterExpression]
  | _ => grind [next]

theorem pending_of_inside (quotes : p.Quotes) (inside : p.stage ≠ .lineStart) (leads : p.next k = some q) :
    q.pending = p.pending := by
  obtain ⟨stage, blocks⟩ := p
  cases stage with
  | lineStart => exact absurd rfl inside
  | name assigns => cases assigns <;> grind [next, pending]
  | operand goal text =>
    cases goal with
    | line => grind [next, pending, → eq_joined_of_afterPrimary]
    | condition block compared =>
      obtain rfl : text = false := by
        by_contra quoted
        cases quotes _ (by rw [Bool.not_eq_false] at quoted; rw [quoted])
      grind [next, pending, → eq_joined_of_afterPrimary]
  | signed goal => cases goal <;> grind [next, pending, → eq_joined_of_afterPrimary]
  | joined goal => cases goal <;> grind [next, pending, afterExpression]
  | _ => grind [next, pending]

theorem pending_next (quotes : p.Quotes) (leads : p.next k = some q) : q.pending = track p.pending k := by
  by_cases inside : p.stage = .lineStart
  · obtain ⟨stage, blocks⟩ := p
    obtain rfl : stage = .lineStart := inside
    by_cases newline : k = .newline
    · rw [next, if_pos newline] at leads
      cases leads
      rw [newline]
      rfl
    · rw [next, if_neg newline, Option.or_eq_some_iff] at leads
      rcases leads with begins | ⟨-, ends⟩
      · unfold beginStatement at begins
        split at begins <;> cases begins <;> rfl
      · cases blocks with
        | nil => grind [endBlock, track, pending]
        | cons block outer => cases block <;> grind [endBlock, track, pending, Block.closer]
  · rw [track_of_inside inside leads, pending_of_inside quotes inside leads]

/-- The kinds of the tokens alone tell which blocks are open. -/
theorem openBlocks_of_run {word : List Kind} (leads : start.run word = some p) :
    openBlocks word = p.pending := by
  have run (r : Point) (quotes : r.Quotes) (word : List Kind) (leads : r.run word = some p) :
      word.foldl track r.pending = p.pending := by
    induction word generalizing r with
    | nil => cases leads; rfl
    | cons k word ih =>
      obtain ⟨next, step, leads⟩ := Option.bind_eq_some_iff.1 leads
      rw [List.foldl_cons, ← pending_next quotes step, ih next (quotes_next step) leads]
  exact run start nofun word leads

/-- A newline leads to the start of a line. -/
theorem lineStart_of_newline (leads : p.next .newline = some q) : q.stage = .lineStart := by
  obtain ⟨stage, blocks⟩ := p
  cases stage with
  | name assigns => cases assigns <;> cases leads
  | operand goal text => cases goal <;> cases text <;> cases leads
  | joined goal =>
    cases goal with
    | line => cases leads; rfl
    | condition block compared => cases block <;> cases compared <;> cases leads
  | lineStart | lineEnd => cases leads; rfl
  | _ => cases leads

/-- Whatever cannot stand where a line starts is refused as a statement, but for the end inside a block. -/
theorem lineStart_of_expectation (unexpected : p.expectation k = none) (unfinished : p.stage ≠ .done) :
    p.stage = .lineStart := by
  obtain ⟨stage, blocks⟩ := p
  cases stage with
  | lineStart => rfl
  | joined goal =>
    cases goal with
    | line => cases unexpected
    | condition block compared => cases compared <;> cases unexpected
  | done => exact absurd rfl unfinished
  | _ => cases unexpected

theorem of_complaint_unexpected {token : Token} {expected found : String} {advice : Option String}
    (complains : p.complaint token = .unexpectedToken expected found advice) :
    p.expectation token.kind = some expected ∧ token.describe = found := by
  rw [complaint] at complains
  split at complains
  · cases complains
    exact ⟨‹_›, rfl⟩
  · cases complains

end Point

end Grammar

/-! ## The end of the tokens -/

/-- The tokens of a source that can be read end with a newline and the end, on a line of its own. -/
theorem Scanner.start_closing {file source : String} (whole : (Scanner.start file source).drain.fault = none) :
    ∃ front newline last, (Scanner.start file source).drain.tokens = front ++ [newline] ++ [last] ∧
      newline.kind = .newline ∧ (∀ token ∈ front ++ [newline], token.kind ≠ .eof) ∧
      last.location = ⟨file, source.toList.count '\n' + 2, 1⟩ := by
  obtain ⟨pieces, same, rebuilt, laid⟩ := Scanner.drain_laid _ _ _
    (Cursor.start_eq_after (source.toList ++ ['\n'])) (closed_concat _) whole
  obtain ⟨front, last, tokens, isEnd, others⟩ := Scanner.drain_last _ whole
  rw [tokens, List.map_eq_append_iff] at same
  obtain ⟨frontPieces, lastPieces, rfl, rfl, lastPiece⟩ := same
  obtain ⟨piece, rfl, rfl⟩ := List.map_eq_singleton_iff.1 lastPiece
  obtain ⟨empty, before, newline, rfl, isNewline⟩ := laid.closing isEnd
    (fun piece member => others _ (List.mem_map_of_mem member)) rebuilt
  rw [List.map_append] at tokens others
  refine ⟨before.map Piece.token, newline.token, piece.token, tokens, isNewline, others, ?_⟩
  have noGap := (List.append_eq_nil_iff.1 empty).1
  rw [List.flatMap_append, List.flatMap_singleton, empty, List.append_nil] at rebuilt
  rw [laid.split.place, noGap, rebuilt]
  simp [placeAfter, Scanner.start, List.count_append]
  omega

variable {file source : String}

/-- The end stands behind all other tokens, where a line starts. -/
theorem lineStart_of_eof {before after : List Token} {token : Token} {p : Point}
    (split : (Scanner.start file source).stream.tokens = before ++ token :: after)
    (isEnd : token.kind = .eof) (leads : Point.start.run (before.map (·.kind)) = some p) :
    p.stage = .lineStart ∧ after = [] ∧
      token.location = ⟨file, source.toList.count '\n' + 2, 1⟩ := by
  have whole : (Scanner.start file source).stream.fault = none := by
    cases met : (Scanner.start file source).stream.fault with
    | none => rfl
    | some fault => exact absurd isEnd (Scanner.stream_more met token (by simp [split]))
  obtain ⟨front, newline, last, tokens, isNewline, others, place⟩ := Scanner.start_closing whole
  rw [show (Scanner.start file source).drain.tokens = _ from split] at tokens
  rcases List.eq_nil_or_concat' after with rfl | ⟨later, final, rfl⟩
  · obtain ⟨rfl, same⟩ := List.append_inj' tokens rfl
    cases same
    rw [List.map_append, List.map_singleton, Point.run_concat, Option.bind_eq_some_iff] at leads
    obtain ⟨q, -, step⟩ := leads
    rw [isNewline] at step
    exact ⟨Point.lineStart_of_newline step, rfl, place⟩
  · rw [← List.cons_append, ← List.append_assoc] at tokens
    obtain ⟨same, -⟩ := List.append_inj' tokens rfl
    exact absurd isEnd (others token (by rw [← same]; simp))

/-! ## Rounds -/

namespace Pass

variable {origin : Scanner} {blocks : List Block} {s t : State}

theorem inside_of_enter {kind : Kind} (enters : turn blocks kind = .enter) :
    kind ≠ .eof ∧ Point.endBlock blocks kind = none := by
  cases blocks <;> grind [turn, Point.endBlock]

theorem closes_of_close {kind : Kind} {block : Block} {outer : List Block}
    (closes : turn blocks kind = .close block outer) :
    blocks = block :: outer ∧ kind = .keyword block.closer := by
  cases blocks <;> grind [turn]

theorem lacks_of_lack {kind : Kind} {block : Block} (lacks : turn blocks kind = .lack block) :
    (∃ outer, blocks = block :: outer) ∧ kind = .eof := by
  cases blocks <;> grind [turn]

theorem ends_readLine (here : AtLine origin ⟨.lineStart, blocks⟩ s) (blank : s.current.kind ≠ .newline) :
    Ends (readLine blocks) s
      (fun handed t => ∀ opened, handed = some opened →
        ∃ q, AtLine origin q t ∧ LineOver q opened t.current.kind)
      (Refused origin) := by
  have ⟨_, stands, _⟩ := here
  refine ends_get_bind ?_
  cases turned : turn blocks s.current.kind with
  | stop => exact ends_pure nofun
  | lack block =>
    obtain ⟨⟨outer, rfl⟩, ended⟩ := lacks_of_lack turned
    refine ends_throw (stands.unexpected ?_ ?_)
    all_goals
      rw [ended]
      rfl
  | close block outer =>
    obtain ⟨rfl, closes⟩ := closes_of_close turned
    refine ends_bind ((ends_closingLine here closes).mono fun _ t _ line => ?_)
    refine ends_pure ?_
    rintro _ ⟨⟩
    exact line
  | enter =>
    obtain ⟨more, inside⟩ := inside_of_enter turned
    refine ends_bind ((ends_statementLine here blank more inside).mono fun opened t _ line => ?_)
    refine ends_pure ?_
    rintro _ ⟨⟩
    exact line

/-- One round leads from the start of a line to the start of the next one that is not blank. -/
theorem ends_lineRound (here : AtLine origin ⟨.lineStart, blocks⟩ s) (blank : s.current.kind ≠ .newline) :
    Ends (lineRound blocks) s
      (fun handed t => ∀ opened, handed = some opened →
        AtLine origin ⟨.lineStart, opened⟩ t ∧ t.current.kind ≠ .newline)
      (Refused origin) := by
  refine ends_bind ((ends_readLine here blank).mono fun handed r _ line => ?_)
  cases handed with
  | none => exact ends_pure nofun
  | some opened =>
    obtain ⟨q, there, past⟩ := line opened rfl
    refine ends_bind ((ends_newline there past).mono fun _ u _ after => ?_)
    refine ends_pure ?_
    rintro _ ⟨⟩
    exact after

/-- All rounds start so. -/
theorem atLine_of_rounds {r : State} (here : AtLine origin .start r) (blank : r.current.kind ≠ .newline)
    (rounds : Rounds lineRound [] r blocks t) :
    AtLine origin ⟨.lineStart, blocks⟩ t ∧ t.current.kind ≠ .newline := by
  induction rounds with
  | first => exact ⟨here, blank⟩
  | next earlier handed ih => exact ends_ok (ends_lineRound ih.1 ih.2) handed _ rfl

theorem ends_beforeLines (here : AtLine origin .start s) :
    Ends beforeLines s (fun _ t => AtLine origin .start t ∧ t.current.kind ≠ .newline) (Refused origin) := by
  refine ends_bind ((ends_writeHeaderLine here).mono fun _ _ _ there => ?_)
  refine ends_bind ((ends_writeHeaderLine there).mono fun _ _ _ there => ?_)
  exact ends_skipNewlines there

/-- Where a pass comes to a line, the grammar has the same blocks open, and the line is not blank. -/
theorem ComesTo.atLine (comes : ComesTo s blocks t) (here : AtLine origin .start s) :
    AtLine origin ⟨.lineStart, blocks⟩ t ∧ t.current.kind ≠ .newline := by
  obtain ⟨r, done, rounds⟩ := comes
  obtain ⟨there, blank⟩ := ends_ok (ends_beforeLines here) done
  exact atLine_of_rounds there blank rounds

/-- Where a line is over and only its newline is left to come, no line starts. -/
theorem LineOver.stage_ne {q : Point} {kind : Kind} (past : LineOver q blocks kind) (more : kind ≠ .newline) :
    q.stage ≠ .lineStart := by
  obtain ⟨stage, outer⟩ := q
  rintro rfl
  have expects := (past.needed more).2
  cases outer with
  | nil => cases expects
  | cons block outer =>
    rw [Point.expectation] at expects
    split at expects
    · exact absurd expects (by cases block <;> decide)
    · cases expects

end Pass

/-! ## Faults at the end -/

/-- Only the end is described as the end. -/
theorem Token.kind_of_describe_eof {token : Token} (described : token.describe = "EOF") :
    token.kind = .eof := by
  unfold describe at described
  split at described
  · rename_i newline
    rw [newline] at described
    exact absurd described (by decide)
  · assumption
  · -- any other token is described with its text between apostrophes
    have quoted : '\x27' ∈ "EOF".toList := by
      rw [← described, String.toList_append]
      exact List.mem_append_right _ (by decide)
    exact absurd quoted (by decide)

/-- What begins no statement is named by neither of the two marks nor by the keyword of a statement. -/
theorem name_not_mem_of_stuck {blocks : List Block} {kind : Kind}
    (stuck : Point.next ⟨.lineStart, blocks⟩ kind = none) (more : kind ≠ .eof) :
    kind.name ∉ ["NEWLINE", "EOF", "PRINT", "IF", "WHILE", "LABEL", "GOTO", "LET", "INPUT"] := by
  cases kind with
  | newline => cases stuck
  | eof => exact absurd rfl more
  | keyword word =>
    cases word with
    | then_ | repeat_ | endif | endwhile => decide
    | _ => cases stuck
  | operator op => cases op <;> decide
  | _ => decide

variable {options : Options} {fault : Diagnostic}

/-- A fault of syntax is a token that cannot stand where it is. -/
theorem misplaced_of_compile (failed : compile options file source = .error fault)
    (syntactic : fault.cause.IsSyntactic) :
    ∃ before token after p, (Scanner.start file source).stream.tokens = before ++ token :: after ∧
      Point.start.run (before.map (·.kind)) = some p ∧ p.next token.kind = none ∧
      fault.cause = p.complaint token ∧ fault.location = some token.location := by
  cases refused_of_compile failed with
  | unread met =>
    have scanning := Scanner.stream_phase met
    rw [syntactic.phase] at scanning
    cases scanning
  | misplaced split _ leads stuck => exact ⟨_, _, _, _, split, leads, stuck, rfl, rfl⟩
  | misnamed _ _ _ breaks => exact absurd syntactic (not_isSyntactic_of_violation breaks)
  | unlabelled => exact absurd syntactic id

/-- The end is refused where a block is open. -/
theorem openBlocks_of_stuck {before after : List Token} {token : Token} {p : Point}
    (split : (Scanner.start file source).stream.tokens = before ++ token :: after)
    (isEnd : token.kind = .eof) (leads : Point.start.run (before.map (·.kind)) = some p)
    (stuck : p.next token.kind = none) :
    ∃ block outer, p = ⟨.lineStart, block :: outer⟩ ∧
      openBlocks ((Scanner.start file source).stream.tokens.map (·.kind)) = block :: outer := by
  obtain ⟨starts, rfl, -⟩ := lineStart_of_eof split isEnd leads
  obtain ⟨stage, blocks⟩ := p
  obtain rfl : stage = .lineStart := starts
  cases blocks with
  | nil =>
    rw [isEnd] at stuck
    cases stuck
  | cons block outer =>
    refine ⟨block, outer, rfl, ?_⟩
    have tracked := Point.openBlocks_of_run leads
    rw [openBlocks] at tracked
    rw [split, List.map_append, List.map_singleton, isEnd, openBlocks, List.foldl_append, tracked]
    rfl

/-- What is refused as a statement stands where a line starts, and is not the end. -/
theorem lineStart_of_invalid {before after : List Token} {token : Token} {p : Point} {text kind : String}
    (split : (Scanner.start file source).stream.tokens = before ++ token :: after)
    (leads : Point.start.run (before.map (·.kind)) = some p) (stuck : p.next token.kind = none)
    (invalid : p.complaint token = .invalidStatement text kind) :
    p.stage = .lineStart ∧ token.kind ≠ .eof ∧ kind = token.kind.name := by
  have more : token.kind ≠ .eof := by
    intro isEnd
    obtain ⟨block, outer, rfl, -⟩ := openBlocks_of_stuck split isEnd leads stuck
    rw [Point.complaint, isEnd] at invalid
    cases invalid
  have unfinished : p.stage ≠ .done := by
    intro finished
    obtain ⟨other, earlier, isEnd⟩ := List.mem_map.1 (Point.eof_mem_of_done leads finished)
    exact Scanner.more_of_split split other earlier isEnd
  rw [Point.complaint] at invalid
  split at invalid
  · cases invalid
  · rename_i unexpected
    cases invalid
    exact ⟨Point.lineStart_of_expectation unexpected unfinished, more, rfl⟩

/-- **The end of a source is met only where a line starts.** If the end is refused, a block is open: the
diagnostic asks for the end of the innermost one, on the line behind the last newline. What is refused as a
statement is neither a newline nor the end, and no statement begins with it. A pass goes over the lines of a
source in one loop; in this loop statements are entered neither at a newline nor at the end, and where a
newline is expected the source is not over. -/
theorem compile_error_at_end (options : Options) (file source : String) :
    (∀ fault expected advice, compile options file source = .error fault →
      fault.cause = .unexpectedToken expected "EOF" advice →
      (expected = "ENDIF" ∨ expected = "ENDWHILE") ∧
        (∃ block outer,
          openBlocks ((Scanner.start file source).drain.tokens.map (·.kind)) = block :: outer ∧
            expected = block.closer.spelling) ∧
        fault.location = some ⟨file, source.toList.count '\n' + 2, 1⟩) ∧
    (∀ fault text kind, compile options file source = .error fault →
      fault.cause = .invalidStatement text kind →
      kind ∉ ["NEWLINE", "EOF", "PRINT", "IF", "WHILE", "LABEL", "GOTO", "LET", "INPUT"]) ∧
    program = (do beforeLines; readLines []; afterLines) ∧
    ∀ s, start options file source = .ok s →
      (∀ t, Enters s t → t.current.kind ≠ .newline ∧ t.current.kind ≠ .eof) ∧
        ∀ t, ExpectsNewline s t → t.current.kind ≠ .eof := by
  refine ⟨?_, ?_, program_by_lines, fun s started => ⟨?_, ?_⟩⟩
  · intro fault expected advice failed cause
    obtain ⟨before, token, after, p, split, leads, stuck, complaint, place⟩ :=
      misplaced_of_compile failed (by rw [cause]; trivial)
    obtain ⟨expects, described⟩ := Point.of_complaint_unexpected (complaint.symm.trans cause)
    have isEnd := Token.kind_of_describe_eof described
    obtain ⟨block, outer, rfl, blocks⟩ := openBlocks_of_stuck split isEnd leads stuck
    obtain rfl : block.closer.spelling = expected := by
      rw [isEnd] at expects
      exact Option.some_inj.1 expects
    refine ⟨?_, ⟨block, outer, blocks, rfl⟩, ?_⟩
    · cases block
      · exact .inl rfl
      · exact .inr rfl
    · rw [place, (lineStart_of_eof split isEnd leads).2.2]
  · intro fault text kind failed cause
    obtain ⟨before, token, after, p, split, leads, stuck, complaint, -⟩ :=
      misplaced_of_compile failed (by rw [cause]; trivial)
    obtain ⟨starts, more, rfl⟩ := lineStart_of_invalid split leads stuck (complaint.symm.trans cause)
    obtain ⟨stage, blocks⟩ := p
    obtain rfl : stage = .lineStart := starts
    exact name_not_mem_of_stuck stuck more
  · rintro t ⟨blocks, comes, enters⟩
    exact ⟨(comes.atLine (atLine_start started)).2, (inside_of_enter enters).1⟩
  · rintro t ⟨blocks, opened, r, comes, read⟩ ended
    obtain ⟨there, blank⟩ := comes.atLine (atLine_start started)
    obtain ⟨q, ⟨before, stands, -⟩, past⟩ := ends_ok (ends_readLine there blank) read opened rfl
    obtain ⟨after, split, -⟩ := stands.split
    exact past.stage_ne (by simp [ended]) (lineStart_of_eof split ended stands.leads).1

/-- A program that is cut off inside two blocks, behind a third one that was ended and a comment. -/
theorem compile_error_at_end_nested :
    let source := "LET n = 1\nIF n > 0 THEN\nWHILE n < 5 REPEAT\nIF n == 2 THEN\nENDIF\n\n# over"
    compile {} "cut" source =
        .error ⟨.unexpectedToken "ENDWHILE" "EOF" none, some ⟨"cut", 8, 1⟩, some ""⟩ ∧
      ∃ block outer, openBlocks ((Scanner.start "cut" source).drain.tokens.map (·.kind)) = block :: outer ∧
        "ENDWHILE" = block.closer.spelling := by
  intro source
  have failed : compile {} "cut" source =
      .error ⟨.unexpectedToken "ENDWHILE" "EOF" none, some ⟨"cut", 8, 1⟩, some ""⟩ := by
    decide +kernel
  exact ⟨failed, ((compile_error_at_end _ _ _).1 _ _ _ failed rfl).2.1⟩

end LineBasic
