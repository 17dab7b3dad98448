import LineBasic.Proofs.Pass.Closure
import LineBasic.Proofs.Translation.Expression

/-!
# Statements are written as they are read

Each step for a statement that returns has read the tokens of a tree, added the text of that tree to the
body and counted its statements (`Translated`). The list of open blocks that the pass works with hides no
text: to close the innermost block is to read and write the rest of its body, with all blocks that are
opened and closed in it.
-/

namespace LineBasic.Pass

set_option autoImplicit false

open Syntax

variable {s r t : State}

/-! ## The ends of lines -/

theorem newlineRound_none {a : Unit} (done : newlineRound a s = .ok none t) :
    t = s ∧ s.current.kind ≠ .newline := by
  unfold newlineRound at done
  obtain ⟨seen, r, got, done⟩ := bind_ok done
  cases got
  split at done
  · obtain ⟨_, r, _, done⟩ := bind_ok done
    cases done
  · rename_i apart
    cases done
    exact ⟨rfl, apart⟩

theorem newlineRound_some {a b : Unit} (done : newlineRound a s = .ok (some b) t) :
    s.current.kind = .newline ∧ Turned [s.current] "" s t := by
  unfold newlineRound at done
  obtain ⟨seen, r, got, done⟩ := bind_ok done
  cases got
  split at done
  · rename_i blank
    obtain ⟨_, r, moved, done⟩ := bind_ok done
    cases done
    exact ⟨blank, turned_advance (by simp [blank]) moved⟩
  · cases done

theorem skipNewlines_reads (done : skipNewlines s = .ok () t) :
    ∃ tokens : List Token, (∀ token ∈ tokens, token.kind = .newline) ∧ Turned tokens "" s t := by
  unfold skipNewlines at done
  fun_induction iterate newlineRound shrinking_newlineRound () s with
  | case1 a s r round =>
    cases done
    obtain ⟨rfl, -⟩ := newlineRound_none round
    exact ⟨[], by simp, .refl _⟩
  | case2 a s b r round ih =>
    obtain ⟨blank, first⟩ := newlineRound_some round
    obtain ⟨tokens, blanks, turned⟩ := ih done
    exact ⟨_, List.forall_mem_cons.2 ⟨blank, blanks⟩, first.trans turned⟩
  | case3 => cases done

theorem newline_reads (done : newline s = .ok () t) :
    ∃ tokens, LineEnd tokens ∧ Turned tokens "" s t := by
  unfold newline at done
  obtain ⟨token, r, first, done⟩ := bind_ok done
  obtain ⟨-, blank, turned⟩ := turned_expect (by simp) first
  obtain ⟨tokens, blanks, skipped⟩ := skipNewlines_reads done
  exact ⟨_, ⟨List.cons_ne_nil _ _, List.forall_mem_cons.2 ⟨blank, blanks⟩⟩, turned.trans skipped⟩

/-! ## Simple statements -/

theorem freeName_reads {reserved : List String} {token : Token}
    (done : freeName reserved s = .ok token t) :
    token.kind = .ident ∧ Turned [token] "" s t := by
  unfold freeName at done
  obtain ⟨found, r, expected, done⟩ := bind_ok done
  obtain ⟨_, u, allowed, done⟩ := bind_ok done
  cases done
  obtain ⟨-, kind, turned⟩ := turned_expect (by simp) expected
  unfold refuseReserved at allowed
  obtain ⟨seen, u, got, allowed⟩ := bind_ok allowed
  cases got
  split at allowed
  · cases allowed
  · cases allowed
    exact ⟨kind, turned⟩

theorem printRest_reads {keyword : Token} (begins : keyword.kind = .keyword .print)
    (spelled : s.Spelled) (done : printRest s = .ok () t) :
    ∃ tokens, ∃ statement : Simple, statement.Reads keyword tokens ∧
      Emitted tokens (statement.text s.options.precision) s t := by
  unfold printRest at done
  obtain ⟨seen, r, got, done⟩ := bind_ok done
  cases got
  split at done
  · rename_i kind
    obtain ⟨_, r, wrote, done⟩ := bind_ok done
    cases wrote
    have moved := turned_advance (by simp [kind]) done
    have whole := (turned_writeLine _ s).trans moved
    exact ⟨_, .printText s.current.text, .printText begins kind,
      (whole.cast rfl String.append_empty).toEmitted⟩
  · obtain ⟨_, r, wrote, done⟩ := bind_ok done
    cases wrote
    obtain ⟨_, u, read, done⟩ := bind_ok done
    cases done
    have first := turned_write s!"printf(\"%.{s.options.precision}f\\n\", (float)(" s
    obtain ⟨tokens, value, reads, turned⟩ := expression_reads (first.spelled spelled) read
    have whole := (first.trans turned).trans (turned_writeLine "));" u)
    exact ⟨tokens, .print value, .print begins reads,
      (whole.cast (List.append_nil _) rfl).toEmitted⟩

theorem emitted_of_same (scanner : t.scanner = s.scanner) (current : t.current = s.current)
    (ahead : t.ahead = s.ahead) (body : t.output.body = s.output.body)
    (options : t.options = s.options) : Emitted [] "" s t := by
  have stream : t.stream = s.stream := by rw [State.stream, State.stream, scanner, current, ahead]
  refine ⟨⟨?_, ?_, ?_, ?_⟩, ?_, options⟩
  · rw [stream, List.nil_append]
  · rw [stream]
  · rw [State.Primed, State.Primed, scanner, ahead]
    exact id
  · rw [scanner]
  · rw [body, String.append_empty]

theorem emitted_declare {token : Token} (done : declare token s = .ok () t) : Emitted [] "" s t := by
  cases done
  dsimp only
  split
  · exact .refl s
  · exact emitted_of_same rfl rfl rfl rfl rfl

theorem emitted_defineLabel {token : Token} (done : defineLabel token s = .ok () t) :
    Emitted [] "" s t := by
  unfold defineLabel at done
  obtain ⟨seen, r, got, done⟩ := bind_ok done
  cases got
  cases known : s.labels.get? token.text with
  | some first =>
    simp only [known] at done
    cases done
  | none =>
    simp only [known] at done
    cases done
    exact emitted_of_same rfl rfl rfl rfl rfl

theorem labelRest_reads {keyword : Token} (begins : keyword.kind = .keyword .label)
    (done : labelRest s = .ok () t) :
    ∃ tokens, ∃ statement : Simple, statement.Reads keyword tokens ∧
      Emitted tokens (statement.text s.options.precision) s t := by
  unfold labelRest at done
  obtain ⟨token, r, named, done⟩ := bind_ok done
  obtain ⟨_, u, defined, done⟩ := bind_ok done
  cases done
  obtain ⟨kind, turned⟩ := freeName_reads named
  have whole := (turned.toEmitted.trans (emitted_defineLabel defined)).trans
    (turned_writeLine s!"{token.text}:;" u).toEmitted
  exact ⟨[token], .label token.text, .label begins kind, whole.cast rfl String.empty_append⟩

theorem gotoRest_reads {keyword : Token} (begins : keyword.kind = .keyword .goto)
    (done : gotoRest s = .ok () t) :
    ∃ tokens, ∃ statement : Simple, statement.Reads keyword tokens ∧
      Emitted tokens (statement.text s.options.precision) s t := by
  unfold gotoRest at done
  obtain ⟨token, r, named, done⟩ := bind_ok done
  obtain ⟨_, u, noted, done⟩ := bind_ok done
  cases noted
  cases done
  obtain ⟨kind, turned⟩ := freeName_reads named
  have noted : Emitted [] "" r { r with jumps := r.jumps.note token.text token.location } :=
    emitted_of_same rfl rfl rfl rfl rfl
  have whole := (turned.toEmitted.trans noted).trans
    (turned_writeLine s!"goto {token.text};" _).toEmitted
  exact ⟨[token], .goto token.text, .goto begins kind, whole.cast rfl String.empty_append⟩

theorem letRest_reads {keyword : Token} (begins : keyword.kind = .keyword .let_)
    (spelled : s.Spelled) (done : letRest s = .ok () t) :
    ∃ tokens, ∃ statement : Simple, statement.Reads keyword tokens ∧
      Emitted tokens (statement.text s.options.precision) s t := by
  unfold letRest at done
  obtain ⟨token, r, named, done⟩ := bind_ok done
  obtain ⟨_, r', wrote, done⟩ := bind_ok done
  cases wrote
  obtain ⟨mark, u, expected, done⟩ := bind_ok done
  obtain ⟨_, v, read, done⟩ := bind_ok done
  obtain ⟨_, w, wrote, done⟩ := bind_ok done
  cases wrote
  obtain ⟨kind, turned⟩ := freeName_reads named
  obtain ⟨-, equals, marked⟩ := turned_expect (by simp) expected
  have first := (turned.trans (turned_write s!"{token.text} = " r)).trans marked
  obtain ⟨tokens, value, reads, valued⟩ := expression_reads (first.spelled spelled) read
  have whole := ((first.trans valued).trans (turned_writeLine ";" v)).toEmitted.trans
    (emitted_declare done)
  refine ⟨_, .assign token.text value, .assign begins kind equals reads, whole.cast ?_ ?_⟩
  · simp
  · simp only [String.empty_append, String.append_empty, Simple.text]

theorem emitted_writeLine {text : String} (done : writeLine text s = .ok () t) :
    Emitted [] (line text) s t := by
  cases done
  exact (turned_writeLine text s).toEmitted

theorem inputRest_reads {keyword : Token} (begins : keyword.kind = .keyword .input)
    (done : inputRest s = .ok () t) :
    ∃ tokens, ∃ statement : Simple, statement.Reads keyword tokens ∧
      Emitted tokens (statement.text s.options.precision) s t := by
  unfold inputRest at done
  obtain ⟨token, r, named, done⟩ := bind_ok done
  obtain ⟨_, u, declared, done⟩ := bind_ok done
  obtain ⟨_, v, scans, done⟩ := bind_ok done
  obtain ⟨_, w, clears, done⟩ := bind_ok done
  obtain ⟨_, x, skips, ends⟩ := bind_ok done
  obtain ⟨kind, turned⟩ := freeName_reads named
  have first := turned.toEmitted.trans (emitted_declare declared)
  have whole := (((first.trans (emitted_writeLine scans)).trans (emitted_writeLine clears)).trans
    (emitted_writeLine skips)).trans (emitted_writeLine ends)
  refine ⟨[token], .input token.text, .input begins kind, whole.cast rfl ?_⟩
  simp only [String.empty_append, Simple.text]

/-- The step for a simple statement reads and writes one. -/
theorem statementRest_reads {keyword : Token} {rest : Pass Unit} (spelled : s.Spelled)
    (found : statementRest? keyword.kind = some (.inl rest)) (done : rest s = .ok () t) :
    ∃ tokens, ∃ statement : Simple, statement.Reads keyword tokens ∧
      Emitted tokens (statement.text s.options.precision) s t := by
  unfold statementRest? at found
  split at found <;> cases found
  · exact printRest_reads ‹_› spelled done
  · exact labelRest_reads ‹_› done
  · exact gotoRest_reads ‹_› done
  · exact letRest_reads ‹_› spelled done
  · exact inputRest_reads ‹_› done

/-! ## Blocks -/

theorem word_eq_blockWord (block : Block) : block.word = blockWord block := by
  cases block <;> rfl

theorem blockHead_reads {block : Block} (spelled : s.Spelled) (done : blockHead block s = .ok () t) :
    ∃ tokens condition, HeadReads block tokens condition ∧
      Turned tokens (blockWord block ++ "(" ++ condition.text ++ line ")\x7b") s t := by
  unfold blockHead at done
  rw [word_eq_blockWord] at done
  obtain ⟨_, r, wrote, done⟩ := bind_ok done
  cases wrote
  obtain ⟨_, u, compared, done⟩ := bind_ok done
  obtain ⟨opener, v, expected, done⟩ := bind_ok done
  obtain ⟨_, w, wrote, done⟩ := bind_ok done
  cases wrote
  have begun := turned_write (blockWord block ++ "(") s
  obtain ⟨tokens, condition, reads, turned⟩ := comparison_reads (begun.spelled spelled) compared
  obtain ⟨-, opens, marked⟩ := turned_expect (by simp) expected
  obtain ⟨newlines, ends, skipped⟩ := newline_reads done
  have whole := (((begun.trans turned).trans marked).trans (turned_writeLine ")\x7b" v)).trans skipped
  refine ⟨_, condition, .mk reads opens ends, whole.cast ?_ ?_⟩
  · simp
  · simp only [String.append_empty]

theorem statementRest_block {kind : Kind} {block : Block}
    (found : statementRest? kind = some (.inr block)) : kind = .keyword block.keyword := by
  unfold statementRest? at found
  split at found <;> cases found <;> rfl

theorem emitted_beginStatement (done : beginStatement s = .ok () t) :
    Emitted [] (lineComment s.options s.current.location.line) s t ∧ t.current = s.current := by
  cases done
  dsimp only
  split
  · rename_i comments
    rw [lineComment, if_pos comments]
    exact ⟨⟨⟨rfl, rfl, id, rfl⟩, rfl, rfl⟩, rfl⟩
  · rename_i plain
    rw [lineComment, if_neg plain]
    exact ⟨emitted_of_same rfl rfl rfl rfl rfl, rfl⟩

/-- How a statement is opened: a simple one is read up to its end, a block up to its body. -/
theorem openStatement_cases {opened : Option Block} (done : openStatement s = .ok opened t) :
    ∃ r u, beginStatement s = .ok () r ∧ r.current.kind ≠ .eof ∧ advance r = .ok () u ∧
      ((∃ rest v, opened = none ∧ statementRest? r.current.kind = some (.inl rest) ∧
          rest u = .ok () v ∧ newline v = .ok () t) ∨
        ∃ block, opened = some block ∧ statementRest? r.current.kind = some (.inr block) ∧
          blockHead block u = .ok () t) := by
  unfold openStatement at done
  obtain ⟨_, r, begun, done⟩ := bind_ok done
  unfold dispatch at done
  obtain ⟨seen, u, got, done⟩ := bind_ok done
  cases got
  cases found : statementRest? r.current.kind with
  | none =>
    simp only [found] at done
    cases done
  | some rest =>
    have more : r.current.kind ≠ .eof := fun isEnd => by
      rw [isEnd, statementRest?_eof] at found
      cases found
    cases rest with
    | inl rest =>
      simp only [found] at done
      obtain ⟨_, u, moved, done⟩ := bind_ok done
      obtain ⟨_, v, read, done⟩ := bind_ok done
      obtain ⟨_, w, ended, done⟩ := bind_ok done
      cases done
      exact ⟨r, u, begun, more, moved, .inl ⟨rest, v, rfl, found, read, ended⟩⟩
    | inr block =>
      simp only [found] at done
      obtain ⟨_, u, moved, done⟩ := bind_ok done
      obtain ⟨_, v, read, done⟩ := bind_ok done
      cases done
      exact ⟨r, u, begun, more, moved, .inr ⟨block, rfl, found, read⟩⟩

theorem lineLasting_statements : LineLasting fun s t => t.statements = s.statements where
  refl _ := rfl
  trans first second := second.trans first
  moves s := by
    unfold after advance
    cases Scanner.next s.scanner <;> rfl
  writes _ _ := rfl
  declares earlier _ _ _ := earlier
  labels _ _ := rfl
  jumps _ := rfl

/-- A statement is counted when it is opened, and within it none. -/
theorem openStatement_counted {opened : Option Block} (done : openStatement s = .ok opened t) :
    t.statements = s.statements + 1 := by
  have kept := lineLasting_statements
  obtain ⟨r, u, begun, -, moved, inside⟩ := openStatement_cases done
  have counted : r.statements = s.statements + 1 := by
    cases begun
    dsimp only
    split <;> rfl
  have begins : u.statements = r.statements := within_ok (kept.within_advance r) moved
  have line : t.statements = u.statements := by
    rcases inside with ⟨rest, v, -, found, read, ended⟩ | ⟨block, -, -, read⟩
    · exact kept.trans (within_ok (kept.within_statementRest found u) read)
        (within_ok (kept.within_newline v) ended)
    · exact within_ok (kept.within_blockHead block u) read
  rw [line, begins, counted]

/-- The tokens of statements were read, their text was written, and the statements were counted. -/
structure Translated (tokens : List Token) (code : Code) (s t : State) : Prop
  extends Emitted tokens (code.text s.options) s t where
  reads : code.Reads tokens
  counted : t.statements = s.statements + code.starts.length

theorem Translated.append {tokens later : List Token} {code more : Code}
    (first : Translated tokens code s r) (second : Translated later more r t) :
    Translated (tokens ++ later) (code.append more) s t where
  toEmitted := (first.toEmitted.trans second.toEmitted).cast rfl
    (by rw [Code.text_append, first.options])
  reads := first.reads.append second.reads
  counted := by
    rw [second.counted, first.counted, Code.starts_append, List.length_append, Nat.add_assoc]

/-- A statement that was read up to its end is a simple one. -/
theorem openStatement_reads_simple (spelled : s.Spelled) (done : openStatement s = .ok none t) :
    ∃ tokens code, Translated tokens code s t := by
  have counted := openStatement_counted done
  obtain ⟨r, u, begun, more, moved, ⟨rest, v, -, found, read, ended⟩ | ⟨block, other, -⟩⟩ :=
    openStatement_cases done
  · obtain ⟨noted, same⟩ := emitted_beginStatement begun
    have begins := noted.trans (turned_advance more moved).toEmitted
    obtain ⟨tokens, statement, reads, turned⟩ :=
      statementRest_reads (begins.spelled spelled) found read
    obtain ⟨newlines, ends, skipped⟩ := newline_reads ended
    have whole := (begins.trans turned).trans skipped.toEmitted
    refine ⟨_, _, whole.cast ?_ ?_, .simple reads ends .done, counted⟩
    · simp
    · rw [begins.options, same]
      simp only [Code.text, String.append_empty]
  · cases other

/-- A statement that was read up to a body is the head of a block. -/
theorem openStatement_reads_head {block : Block} (spelled : s.Spelled)
    (done : openStatement s = .ok (some block) t) :
    s.current.kind = .keyword block.keyword ∧
      ∃ head condition, HeadReads block head condition ∧
        Emitted (s.current :: head)
          (lineComment s.options s.current.location.line ++ blockWord block ++ "(" ++ condition.text
            ++ line ")\x7b") s t := by
  obtain ⟨r, u, begun, more, moved, ⟨rest, v, other, -⟩ | ⟨opened, same, found, read⟩⟩ :=
    openStatement_cases done
  · cases other
  · cases same
    obtain ⟨noted, same⟩ := emitted_beginStatement begun
    have begins := noted.trans (turned_advance more moved).toEmitted
    obtain ⟨head, condition, reads, turned⟩ := blockHead_reads (begins.spelled spelled) read
    have whole := begins.trans turned.toEmitted
    rw [same] at whole
    refine ⟨same ▸ statementRest_block found, head, condition, reads, whole.cast rfl ?_⟩
    simp only [String.append_empty, String.append_assoc]

/-- What is read and written until a block is closed: the rest of its body and its closing keyword. -/
def ClosesBlock (block : Block) (s t : State) : Prop :=
  ∃ r inner body closer newlines, Translated inner body s r ∧ closer.kind = .keyword block.closer ∧
    LineEnd newlines ∧ Turned (closer :: newlines) (line "\x7d") r t

/-- A statement is read and written whole if every block that it opens is. -/
theorem statement_reads_of (spelled : s.Spelled)
    (closing : ∀ block r, r.remaining < s.remaining → r.Spelled →
      closeBlocks [block] r = .ok () t → ClosesBlock block r t)
    (done : statement s = .ok () t) : ∃ tokens code, Translated tokens code s t := by
  unfold statement at done
  obtain ⟨opened, r, begun, done⟩ := bind_ok done
  cases opened with
  | none =>
    rw [Option.toList_none, closeBlocks_nil] at done
    cases done
    exact openStatement_reads_simple spelled begun
  | some block =>
    obtain ⟨begins, head, condition, reads, emitted⟩ := openStatement_reads_head spelled begun
    have shorter := progressFrom_openStatement s begun
    obtain ⟨u, inner, body, closer, newlines, holds, closes, ends, closed⟩ :=
      closing block r shorter (emitted.spelled spelled) done
    have whole := (emitted.trans holds.toEmitted).trans closed.toEmitted
    refine ⟨_, _, whole.cast ?_ ?_, .block begins reads holds.reads closes ends .done, ?_⟩
    · simp
    · rw [emitted.options]
      simp only [Code.text, String.append_empty, String.append_assoc]
    · rw [closed.statements, holds.counted, openStatement_counted begun]
      simp only [Code.starts, List.append_nil, List.length_cons]
      omega

/-- A move in a block: it closes the block, or it reads on with a statement of its body. -/
theorem closeBlocks_cases {block : Block} (done : closeBlocks [block] s = .ok () t) :
    (∃ token r, expect (.keyword block.closer) s = .ok token r ∧
        newline { r with output := r.output.addBodyLine "\x7d" } = .ok () t) ∨
      ∃ r, statement s = .ok () r ∧ r.remaining < s.remaining ∧ closeBlocks [block] r = .ok () t := by
  rw [closeBlocks_cons] at done
  obtain ⟨blocks, r, moved, done⟩ := bind_ok done
  unfold blockMove at moved
  obtain ⟨seen, u, got, moved⟩ := bind_ok moved
  cases got
  split at moved
  · obtain ⟨token, u, expected, moved⟩ := bind_ok moved
    obtain ⟨_, v, wrote, moved⟩ := bind_ok moved
    cases wrote
    obtain ⟨_, w, ended, moved⟩ := bind_ok moved
    cases moved
    rw [closeBlocks_nil] at done
    cases done
    exact .inl ⟨token, u, expected, ended⟩
  · split at moved
    · cases moved
    · obtain ⟨opened, u, begun, moved⟩ := bind_ok moved
      cases moved
      rw [closeBlocks_append] at done
      obtain ⟨_, v, closed, done⟩ := bind_ok done
      have whole : statement s = .ok () v := by
        unfold statement
        rw [bind_apply, begun]
        exact closed
      exact .inr ⟨v, whole, progressFrom_statement s whole, done⟩

theorem closeBlocks_reads {block : Block} (spelled : s.Spelled)
    (done : closeBlocks [block] s = .ok () t) : ClosesBlock block s t := by
  generalize left : s.remaining = n
  -- A statement of the body may open a block of its own, so the induction is on what is left to read.
  induction n using Nat.strongRecOn generalizing block s t with
  | ind n ih =>
    rcases closeBlocks_cases done with ⟨token, r, expected, ended⟩ | ⟨r, first, shorter, done⟩
    · obtain ⟨-, closes, marked⟩ := turned_expect (by simp) expected
      obtain ⟨newlines, ends, skipped⟩ := newline_reads ended
      have whole := (marked.trans (turned_writeLine "\x7d" r)).trans skipped
      refine ⟨s, [], .done, token, newlines, ⟨.refl s, .done, rfl⟩, closes, ends, whole.cast rfl ?_⟩
      simp only [String.empty_append, String.append_empty]
    · obtain ⟨tokens, code, translated⟩ := statement_reads_of spelled
        (fun inner u less good closed => ih _ (left ▸ less) good closed rfl) first
      obtain ⟨u, inner, body, closer, newlines, holds, closes⟩ :=
        ih _ (left ▸ shorter) (translated.spelled spelled) done rfl
      exact ⟨u, _, _, closer, newlines, translated.append holds, closes⟩

theorem statement_reads (spelled : s.Spelled) (done : statement s = .ok () t) :
    ∃ tokens code, Translated tokens code s t :=
  statement_reads_of spelled (fun _ _ _ good closed => closeBlocks_reads good closed) done

end LineBasic.Pass
