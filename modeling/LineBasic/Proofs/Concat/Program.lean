import LineBasic.Proofs.Concat.Tree
import LineBasic.Proofs.Diagnosis.Language
import LineBasic.Proofs.Translation.Count

/-!
# Compiling one program after another

Where a program ends the next one may begin: no block is open, no name is awaited and no line is unfinished.
What the first program has declared can only help the second. So two programs that compile, and define no
label in common, compile together, and what is written for them is what is written for each
(`compile_append_line`).
-/

namespace LineBasic

set_option autoImplicit false

open Grammar Syntax

variable {front more tokens : List Token} {lines : Nat}

/-! ## Names -/

theorem throughout_append {holds : List Token → Token → Prop} :
    Throughout holds (front ++ more) ↔
      Throughout holds front ∧ Throughout (fun before token => holds (front ++ before) token) more := by
  induction more using List.reverseRecOn with
  | nil => simp [throughout_nil]
  | append_singleton more last ih =>
    rw [← List.append_assoc, throughout_concat, ih, throughout_concat, and_assoc]

theorem finished_append (past : finished front = front) (more : List Token) :
    finished (front ++ more) = front ++ finished more := by
  induction more using List.reverseRecOn with
  | nil => simpa [finished] using past
  | append_singleton more last ih =>
    rw [← List.append_assoc]
    by_cases newline : last.kind = .newline
    · rw [finished_concat_newline _ newline, finished_concat_newline _ newline, List.append_assoc]
    · rw [finished_concat_other _ newline, finished_concat_other _ newline, ih]

theorem inRole_append_of_plain (plain : Role.next front = .plain) (role : Role) (more : List Token) :
    inRole role (front ++ more) = inRole role front ++ inRole role more := by
  rw [inRole_append, plain]
  rfl

/-- Two programs with no label in common are well named together if the first is whole lines. -/
theorem WellNamed.append (plain : Role.next front = .plain) (past : finished front = front)
    (first : WellNamed front) (second : WellNamed more)
    (apart : ∀ label ∈ inRole .label front, ∀ other ∈ inRole .label more, label.text ≠ other.text) :
    WellNamed (front ++ more) where
  reads := by
    refine throughout_append.2 ⟨first.reads, ?_⟩
    intro before token after split read named
    rw [Role.next_append plain] at read
    obtain ⟨target, member, same⟩ := second.reads before token after split read named
    refine ⟨target, ?_, same⟩
    rw [finished_append past, inRole_append_of_plain plain]
    exact List.mem_append_right _ member
  labelsOnce := by
    rw [inRole_append_of_plain plain, List.map_append]
    refine List.nodup_append.2 ⟨first.labelsOnce, second.labelsOnce, ?_⟩
    intro name member other member'
    obtain ⟨label, listed, rfl⟩ := List.mem_map.1 member
    obtain ⟨label', listed', rfl⟩ := List.mem_map.1 member'
    exact apart label listed label' listed'
  jumpsDefined := by
    intro jump member
    rw [inRole_append_of_plain plain] at member ⊢
    rcases List.mem_append.1 member with earlier | later
    · obtain ⟨label, listed, same⟩ := first.jumpsDefined jump earlier
      exact ⟨label, List.mem_append_left _ listed, same⟩
    · obtain ⟨label, listed, same⟩ := second.jumpsDefined jump later
      exact ⟨label, List.mem_append_right _ listed, same⟩
  targetsFree := by
    rw [inRole_append_of_plain plain]
    exact List.forall_mem_append.2 ⟨first.targetsFree, second.targetsFree⟩
  labelsFree := by
    rw [inRole_append_of_plain plain]
    exact List.forall_mem_append.2 ⟨first.labelsFree, second.labelsFree⟩
  jumpsFree := by
    rw [inRole_append_of_plain plain]
    exact List.forall_mem_append.2 ⟨first.jumpsFree, second.jumpsFree⟩

/-- A token behind whole lines is in no role. -/
theorem inRole_front {front : List Token} {last : Token} {role : Role} (plain : Role.next front = .plain)
    (special : role ≠ .plain) : inRole role (front ++ [last]) = inRole role front :=
  inRole_concat_of_ne (by rw [plain]; exact special.symm) last

/-- The end of a program names nothing. -/
theorem WellNamed.of_concat {last : Token} (plain : Role.next front = .plain)
    (named : WellNamed (front ++ [last])) : WellNamed front := by
  obtain ⟨reads, labelsOnce, jumpsDefined, targetsFree, labelsFree, jumpsFree⟩ := named
  have roles : ∀ role, role ≠ .plain → inRole role (front ++ [last]) = inRole role front := fun role =>
    inRole_front plain
  rw [roles _ (by decide)] at labelsOnce targetsFree labelsFree jumpsFree
  rw [roles .jump (by decide), roles .label (by decide)] at jumpsDefined
  exact ⟨(throughout_concat.1 reads).1, labelsOnce, jumpsDefined, targetsFree, labelsFree, jumpsFree⟩

/-! Places do not matter to names. -/

theorem inRole_down (role : Role) (tokens : List Token) :
    inRole role (tokens.map (Token.down lines)) = (inRole role tokens).map (Token.down lines) :=
  inRole_map (relocates_down lines) role tokens

theorem WellNamed.down (named : WellNamed tokens) : WellNamed (tokens.map (Token.down lines)) :=
  (wellNamed_map (relocates_down lines)).2 named

/-! ## Positions -/

/-- The end of the text can only follow whole statements. -/
theorem Grammar.Point.eq_start_of_next_eof {p q : Point} (ends : p.next .eof = some q) : p = .start := by
  obtain ⟨stage, blocks⟩ := p
  cases stage with
  | lineStart =>
    cases blocks with
    | nil => rfl
    | cons block outer => cases ends
  | operand goal text => cases text <;> cases ends
  | joined goal =>
    cases goal with
    | line => cases ends
    | condition block compared => cases compared <;> cases ends
  | _ => cases ends

theorem Grammar.Point.run_of_concat_eof {front : List Kind} {p q : Point}
    (leads : p.run (front ++ [.eof]) = some q) : p.run front = some .start := by
  rw [run_concat, Option.bind_eq_some_iff] at leads
  obtain ⟨r, leads, ends⟩ := leads
  rw [leads, eq_start_of_next_eof ends]

/-! ## Programs -/

variable {options : Options} {file source : String} {result : Compiled}

theorem wellNamed_of_compile (compiled : compile options file source = .ok result) :
    WellNamed (Scanner.start file source).drain.tokens := by
  obtain ⟨-, t, -, -, -, accepted⟩ := accepted_of_compile compiled
  exact (wellNamed_iff _).2 ⟨accepted.clean, accepted.jumpsDefined⟩

theorem labels_of_compile (compiled : compile options file source = .ok result) :
    result.labels = (inRole .label (Scanner.start file source).drain.tokens).map (·.text) := by
  obtain ⟨-, t, -, -, rfl, accepted⟩ := accepted_of_compile compiled
  have once := ((clean_iff _).1 accepted.clean).2.1
  show t.labels.names = _
  rw [accepted.labels, labelsOf, NameTable.names_ofTokens, eraseDups_of_nodup once]
  rfl

/-- Two programs with no label in common compile together, and their tokens are the tokens of both. -/
theorem exists_compile_join {first second : String} {one two : Compiled}
    (compiled : compile options file first = .ok one)
    (compiled' : compile options file second = .ok two)
    (apart : ∀ name ∈ one.labels, name ∉ two.labels) :
    ∃ both front last, compile options file (first ++ "\n" ++ second) = .ok both ∧
      (Scanner.start file first).drain.tokens = front ++ [last] ∧ Role.next front = .plain ∧
      (Scanner.start file (first ++ "\n" ++ second)).drain.tokens =
        front ++ (Scanner.start file second).drain.tokens.map
          (Token.down (first.toList.count '\n' + 1)) := by
  obtain ⟨-, t, -, -, -, accepted⟩ := accepted_of_compile compiled
  obtain ⟨-, t', -, -, -, accepted'⟩ := accepted_of_compile compiled'
  obtain ⟨front, last, tokens, isEnd, -, joined⟩ := Scanner.stream_join_of_whole accepted.whole second
  have both := congrArg Stream.tokens joined
  have whole := congrArg Stream.fault joined
  -- After the first program the grammar and the rules of names are where they were at the start.
  have leads : Point.start.run (front.map (·.kind)) = some .start := by
    have finishes := accepted.leads
    rw [show (Scanner.start file first).stream.tokens = front ++ [last] from tokens, List.map_append,
      List.map_singleton, isEnd] at finishes
    exact Point.run_of_concat_eof finishes
  have plain := Pass.plain_of_run leads nofun
  have past := Pass.finished_of_run leads
  have named := (wellNamed_of_compile compiled)
  have labels := labels_of_compile compiled
  rw [tokens] at named labels
  rw [inRole_front plain (by decide)] at labels
  have fresh : ∀ label ∈ inRole .label front, ∀ other ∈ inRole .label
      ((Scanner.start file second).drain.tokens.map (Token.down (first.toList.count '\n' + 1))),
      label.text ≠ other.text := by
    intro label member other member' same
    rw [inRole_down] at member'
    obtain ⟨other, listed, rfl⟩ := List.mem_map.1 member'
    refine apart label.text (labels ▸ List.mem_map_of_mem member) ?_
    rw [labels_of_compile compiled', same]
    exact List.mem_map.2 ⟨other, listed, rfl⟩
  have namedBoth := (named.of_concat plain).append plain past (wellNamed_of_compile compiled').down fresh
  have derives : Derives (.symbol .program) ((Scanner.start file (first ++ "\n" ++ second)).stream.tokens.map
      (·.kind)) := by
    refine (derives_iff_run _).2 ⟨[], ?_⟩
    rw [both, List.map_append, Point.run_append, leads, List.map_map]
    exact accepted'.leads
  obtain ⟨result, compiledBoth⟩ := @exists_compile_of_wellNamed options file (first ++ "\n" ++ second)
    (by rw [whole]; exact Option.map_eq_none_iff.2 accepted'.whole) derives (by rw [both]; exact namedBoth)
  exact ⟨result, front, last, compiledBoth, tokens, plain, both⟩

theorem eraseDups_filter (p : String → Bool) (names : List String) :
    (names.filter p).eraseDups = names.eraseDups.filter p := by
  induction length : names.length using Nat.strongRecOn generalizing names with
  | ind n ih =>
    cases names with
    | nil => rfl
    | cons name names =>
      have shorter : (names.filter fun other => !other == name).length < n := by
        have := names.length_filter_le fun other => !other == name
        simp at length
        omega
      have rest := ih _ shorter _ rfl
      by_cases kept : p name = true
      · rw [List.filter_cons_of_pos kept, List.eraseDups_cons, List.eraseDups_cons,
          List.filter_cons_of_pos kept, ← rest, List.filter_filter, List.filter_filter]
        simp only [Bool.and_comm]
      · have apart : names.filter p = (names.filter fun other => !other == name).filter p := by
          rw [List.filter_filter]
          refine List.filter_congr fun other _ => ?_
          by_cases same : other = name <;> simp_all
        rw [List.filter_cons_of_neg kept, List.eraseDups_cons, List.filter_cons_of_neg kept, ← rest, apart]

theorem eraseDups_append_eq (names more : List String) :
    (names ++ more).eraseDups =
      names.eraseDups ++ more.eraseDups.filter (· ∉ names.eraseDups) := by
  rw [List.eraseDups_append, List.removeAll, eraseDups_filter]
  congr 1
  refine List.filter_congr fun name _ => ?_
  simp [List.mem_eraseDups]

/-- **Compiling composes.** Two sources that compile and define no label in common compile with a newline
between them. The statements of the second follow those of the first, its new variables follow those of the
first, and so do its labels; tokens and statements add up. -/
theorem compile_append_line {precision : Int} {file first second : String} {one two : Compiled}
    (compiled : compile ⟨precision, false⟩ file first = .ok one)
    (compiled' : compile ⟨precision, false⟩ file second = .ok two)
    (apart : ∀ name ∈ one.labels, name ∉ two.labels) :
    ∃ both statements,
      compile ⟨precision, false⟩ file (first ++ "\n" ++ second) = .ok both ∧
      one.output.body.text = statements ++ epilogue ∧
      both.output.body.text = statements ++ two.output.body.text ∧
      both.vars = one.vars ++ two.vars.filter (· ∉ one.vars) ∧
      both.output.header.text = prologue ++ declarations both.vars ∧
      both.labels = one.labels ++ two.labels ∧
      both.tokens = one.tokens + two.tokens ∧
      both.statements = one.statements + two.statements := by
  obtain ⟨both, front, last, compiledBoth, tokens, plain, joined⟩ :=
    exists_compile_join compiled compiled' apart
  obtain ⟨code, reads, -, body, vars⟩ := exists_tree_of_compile compiled
  obtain ⟨code', reads', -, body', vars'⟩ := exists_tree_of_compile compiled'
  obtain ⟨tree, readsBoth, header, bodyBoth, varsBoth⟩ := exists_tree_of_compile compiledBoth
  have statements := statements_of_compile compiledBoth readsBoth
  have labels := labels_of_compile compiled
  have counted := tokens_of_compile compiledBoth
  have counted₁ := tokens_of_compile compiled
  have counted₂ := tokens_of_compile compiled'
  rw [tokens] at reads labels counted₁
  have same : tree = code.append (code'.down (first.toList.count '\n' + 1)) := by
    rw [joined] at readsBoth
    exact readsBoth.eq (reads.join (reads'.down _))
  subst same
  rw [Code.targets_append, Code.targets_down] at header varsBoth
  rw [Code.text_append, Code.text_down rfl] at bodyBoth
  refine ⟨both, _, compiledBoth, body, ?_, ?_, ?_, ?_, ?_, ?_⟩
  · rw [bodyBoth, body', String.append_assoc]
  · rw [varsBoth, eraseDups_append_eq, vars, vars']
  · rw [header, varsBoth]
  · rw [labels_of_compile compiledBoth, joined, inRole_append_of_plain plain, inRole_down, List.map_append,
      List.map_map, labels, inRole_front plain (by decide), labels_of_compile compiled']
    rfl
  · rw [joined] at counted
    simp only [List.length_append, List.length_map, List.length_singleton] at counted counted₁
    omega
  · rw [statements, Code.starts_append, Code.down, Code.starts_relined, List.length_append, List.length_map,
      ← statements_of_compile compiled (tokens ▸ reads), ← statements_of_compile compiled' reads']

/-- A comment at the end of the first source, blank lines before the second, and a variable of both. -/
theorem compile_append_line_seam :
    let first := "LET x = 1\nLABEL up # and on"
    let second := "\nINPUT y\nLET x = y\nGOTO down\nLABEL down"
    ∃ one two both statements,
      compile ⟨2, false⟩ "demo" first = .ok one ∧ compile ⟨2, false⟩ "demo" second = .ok two ∧
      compile ⟨2, false⟩ "demo" (first ++ "\n" ++ second) = .ok both ∧
      one.output.body.text = statements ++ epilogue ∧
      both.output.body.text = statements ++ two.output.body.text ∧
      both.vars = ["x", "y"] ∧ both.labels = ["up", "down"] ∧ both.tokens = 23 ∧
      both.statements = 6 := by
  intro first second
  obtain ⟨one, compiled, figures⟩ := @compile_ok_of_any ⟨2, false⟩ "demo" first
    (fun result => decide (result.vars = ["x"] ∧ result.labels = ["up"] ∧ result.tokens = 8 ∧
      result.statements = 2)) (by decide +kernel)
  obtain ⟨two, compiled', figures'⟩ := @compile_ok_of_any ⟨2, false⟩ "demo" second
    (fun result => decide (result.vars = ["y", "x"] ∧ result.labels = ["down"] ∧ result.tokens = 15 ∧
      result.statements = 4)) (by decide +kernel)
  obtain ⟨vars, labels, tokens, statements⟩ := of_decide_eq_true figures
  obtain ⟨vars', labels', tokens', statements'⟩ := of_decide_eq_true figures'
  obtain ⟨both, text, compiledBoth, body, bodyBoth, varsBoth, -, labelsBoth, tokensBoth, statementsBoth⟩ :=
    compile_append_line compiled compiled' (by rw [labels, labels']; decide)
  refine ⟨one, two, both, text, compiled, compiled', compiledBoth, body, bodyBoth, ?_, ?_, ?_, ?_⟩
  · rw [varsBoth, vars, vars']
    decide
  · rw [labelsBoth, labels, labels']
    rfl
  · rw [tokensBoth, tokens, tokens']
  · rw [statementsBoth, statements, statements']

end LineBasic
