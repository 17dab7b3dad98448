import LineBasic.Proofs.Diagnosis.Expression
import LineBasic.Proofs.Pass.Rounds
import LineBasic.Proofs.Translation.Statement

/-!
# Statements go as far as the grammar goes

Each step for a statement takes the pass from the start of a line to the start of another one, with the
blocks open that the grammar has open there, or the source is refused. Names are entered into the tables
when their rule was checked, so that at the start of the next line the tables hold all of them.
-/

namespace LineBasic.Pass

set_option autoImplicit false

open Grammar

variable {origin : Scanner} {before known pending : List Token} {token : Token} {p : Point}
  {blocks : List Block} {s t : State}

theorem AtLine.same (here : AtLine origin p s) (took : Took [] s t) (vars : t.vars = s.vars)
    (labels : t.labels = s.labels) (jumps : t.jumps = s.jumps) : AtLine origin p t := by
  obtain ⟨before, stands, accounted⟩ := here
  exact ⟨before, stands.stay took, accounted.clean, vars.trans accounted.vars,
    labels.trans accounted.labels, jumps.trans accounted.jumps⟩

/-- A token that is no name breaks no rule where no name is needed. -/
theorem violation?_of_not_ident (plain : Role.next before = .plain) (other : token.kind ≠ .ident) :
    violation? before token = none := by
  rw [violation?_plain plain, undeclared?, if_neg fun both => other both.1]

/-! ## The ends of lines -/

/-- A place where a line can end, and nothing but its end is left to come at this kind. -/
structure LineOver (p : Point) (blocks : List Block) (kind : Kind) : Prop where
  apart : ∀ assigns, p.stage ≠ .name assigns
  leads : p.next .newline = some ⟨.lineStart, blocks⟩
  needed : kind ≠ .newline → p.next kind = none ∧ p.expectation kind = some Kind.newline.name

theorem lineOver_lineEnd (blocks : List Block) (kind : Kind) :
    LineOver ⟨.lineEnd, blocks⟩ blocks kind :=
  ⟨nofun, rfl, fun more => ⟨if_neg more, rfl⟩⟩

theorem lineOver_joined (blocks : List Block) {kind : Kind} (stops : StopsExpression kind) :
    LineOver ⟨.joined .line, blocks⟩ blocks kind := by
  refine ⟨nofun, rfl, fun more => ⟨?_, rfl⟩⟩
  rw [next_of_stopsExpression stops]
  cases kind with
  | newline => exact absurd rfl more
  | _ => rfl

/-- A newline takes the pass to the start of a line. -/
theorem AtLine.newline (here : AtLine origin p s) (apart : ∀ assigns, p.stage ≠ .name assigns)
    (leads : p.next .newline = some ⟨.lineStart, blocks⟩) (ends : token.kind = .newline)
    (turned : Turned [token] "" s t) : AtLine origin ⟨.lineStart, blocks⟩ t := by
  obtain ⟨before, stands, accounted⟩ := here
  have plain := plain_of_run stands.leads apart
  have allowed : violation? before token = none :=
    violation?_of_not_ident plain (by simp [ends])
  refine ⟨before ++ [token], stands.took turned.toTook ?_, ?_⟩
  · rw [List.map_singleton, Point.run_singleton, ends, leads]
  · rw [inRole_concat_of_ne (by simp [plain])]
    exact (accounted.kept turned.toKept).concat plain allowed

theorem ends_skipNewlines (here : AtLine origin ⟨.lineStart, blocks⟩ s) :
    Ends skipNewlines s
      (fun _ t => AtLine origin ⟨.lineStart, blocks⟩ t ∧ t.current.kind ≠ .newline)
      (Refused origin) := by
  refine ends_iterate (γ := Unit) (P := fun _ _ s => AtLine origin ⟨.lineStart, blocks⟩ s)
    (Q := fun _ _ _ t => AtLine origin ⟨.lineStart, blocks⟩ t ∧ t.current.kind ≠ .newline)
    ?_ () () s here
  intro _ _ s here
  refine ends_get_bind ?_
  by_cases blank : s.current.kind = .newline
  · rw [if_pos blank]
    have ⟨_, stands, _⟩ := here
    refine ends_bind ((stands.ends_advance (by simp [blank])).mono fun _ t _ turned => ?_)
    exact ends_pure ⟨(), here.newline nofun rfl blank turned, fun _ ended => ended⟩
  · rw [if_neg blank]
    exact ends_pure ⟨here, blank⟩

theorem ends_newline (here : AtLine origin p s) (past : LineOver p blocks s.current.kind) :
    Ends newline s
      (fun _ t => AtLine origin ⟨.lineStart, blocks⟩ t ∧ t.current.kind ≠ .newline)
      (Refused origin) := by
  have ⟨_, stands, _⟩ := here
  refine ends_bind ((stands.ends_expect (by simp) past.needed).mono fun token r _ found => ?_)
  obtain ⟨-, ends, turned⟩ := found
  exact ends_skipNewlines (here.newline past.apart past.leads ends turned)

/-! ## Names -/

/-- The names that may not be used in a role. -/
def reservedFor : Role → List String
  | .target => Reserved.forVariables
  | .label | .jump => Reserved.forLabels
  | .plain => []

/-- After the keyword of a statement, before its name. -/
def BeforeName (origin : Scanner) (role : Role) (p : Point) (s : State) : Prop :=
  ∃ before, Standing origin before p s ∧ Accounted (inRole .target before) before s ∧
    inRole .target (finished before) = inRole .target before ∧ Role.next before = role

/-- After the name of a statement, which may be used but was not entered. -/
def AfterName (origin : Scanner) (role : Role) (token : Token) (p : Point) (s : State) : Prop :=
  ∃ before, Standing origin (before ++ [token]) p s ∧ Accounted (inRole .target before) before s ∧
    inRole .target (finished before) = inRole .target before ∧ Role.next before = role ∧
    token.kind = .ident ∧ token.text ∉ reservedFor role

theorem beforeName_of_keyword {role : Role} {q : Point}
    (here : AtLine origin ⟨.lineStart, blocks⟩ s) (begins : Role.after s.current.kind = role)
    (leads : Point.next ⟨.lineStart, blocks⟩ s.current.kind = some q)
    (other : s.current.kind ≠ .ident) (more : s.current.kind ≠ .newline)
    (turned : Turned [s.current] "" s t) : BeforeName origin role q t := by
  obtain ⟨before, stands, accounted⟩ := here
  have plain := plain_of_run stands.leads nofun
  have past := finished_of_run stands.leads
  have allowed := violation?_of_not_ident plain other
  have targets : inRole .target (before ++ [s.current]) = inRole .target before :=
    inRole_concat_of_ne (by simp [plain]) _
  refine ⟨before ++ [s.current], stands.took turned.toTook ?_, ?_, ?_, ?_⟩
  · rw [List.map_singleton, Point.run_singleton, leads]
  · rw [targets]
    exact (accounted.kept turned.toKept).concat plain allowed
  · rw [finished_concat_other _ more, past, targets]
  · rw [Role.next_concat, begins]

/-- Where a token was just read, the source goes on after it. -/
theorem Standing.split_concat (stands : Standing origin (before ++ [token]) p s) :
    origin.stream.tokens = before ++ token :: s.stream.tokens ∧ s.stream.tokens ≠ [] := by
  obtain ⟨later, same⟩ := s.stream_current
  refine ⟨?_, same ▸ List.cons_ne_nil _ _⟩
  rw [stands.stream, List.append_assoc, List.singleton_append]

theorem violation?_of_reserved {role : Role} (named : Role.next before = role)
    (special : role ≠ .plain) (reserved : token.text ∈ reservedFor role) :
    violation? before token = some (.reservedName token.text) := by
  have contains : (reservedFor role).contains token.text = true := List.contains_iff_mem.2 reserved
  rw [violation?, named]
  cases role with
  | target => exact if_pos contains
  | jump => exact if_pos contains
  | label =>
    have found : reservedIn? Reserved.forLabels token = some (.reservedName token.text) :=
      if_pos contains
    simp only [found, Option.some_or]
  | plain => exact absurd rfl special

theorem ends_freeName {role : Role} {assigns : Bool}
    (here : BeforeName origin role ⟨.name assigns, blocks⟩ s) (special : role ≠ .plain) :
    Ends (freeName (reservedFor role)) s
      (fun token t =>
        AfterName origin role token ⟨if assigns then .assignment else .lineEnd, blocks⟩ t)
      (Refused origin) := by
  obtain ⟨before, stands, accounted, past, named⟩ := here
  have needed (other : s.current.kind ≠ .ident) :
      Point.next ⟨.name assigns, blocks⟩ s.current.kind = none ∧
        Point.expectation ⟨.name assigns, blocks⟩ s.current.kind = some Kind.ident.name :=
    ⟨if_neg other, rfl⟩
  refine ends_bind ((stands.ends_expect (by simp) needed).mono fun token r _ found => ?_)
  obtain ⟨-, kind, turned⟩ := found
  have there := stands.took turned.toTook (q := ⟨if assigns then .assignment else .lineEnd, blocks⟩)
    (by rw [List.map_singleton, Point.run_singleton, kind]; rfl)
  refine ends_bind (ends_get_bind ?_)
  by_cases reserved : token.text ∈ reservedFor role
  · rw [if_pos (List.contains_iff_mem.2 reserved), there.report]
    obtain ⟨split, more⟩ := there.split_concat
    exact ends_throw (.misnamed split (fun _ => more) accounted.clean
      (violation?_of_reserved named special reserved) there.leads)
  · rw [if_neg fun contains => reserved (List.contains_iff_mem.1 contains)]
    exact ends_pure (ends_pure
      ⟨before, there, accounted.kept turned.toKept, past, named, kind, reserved⟩)

/-! ## Simple statements -/

/-- After a variable that is set, inside its line. -/
theorem AfterName.inLine (here : AfterName origin .target token p s) :
    InLine origin [token] p s := by
  obtain ⟨before, stands, accounted, past, named, kind, free⟩ := here
  have allowed : violation? before token = none := by
    rw [violation?, named]
    exact (reservedIn?_eq_none_iff _ _).2 free
  have unfinished : finished (before ++ [token]) = finished before :=
    finished_concat_other _ (by simp [kind])
  refine ⟨before ++ [token], stands, ⟨clean_concat.2 ⟨accounted.clean, allowed⟩, ?_, ?_, ?_⟩, ?_⟩
  · rw [unfinished, past, accounted.vars]
  · rw [accounted.labels, labelsOf, labelsOf, inRole_concat_of_ne (by simp [named])]
  · rw [accounted.jumps, jumpsOf, jumpsOf, inRole_concat_of_ne (by simp [named])]
  · rw [unfinished, past, inRole_concat, if_pos named]

theorem declare_eq (token : Token) (s : State) :
    ∃ t, declare token s = .ok () t ∧ Took [] s t ∧
      t.vars = s.vars.note token.text token.location ∧ t.labels = s.labels ∧ t.jumps = s.jumps := by
  refine ⟨_, rfl, ?_⟩
  dsimp only
  by_cases known : s.vars.has token.text = true
  · rw [if_pos known, NameTable.note, if_pos known]
    exact ⟨.refl s, rfl, rfl, rfl⟩
  · rw [if_neg known]
    exact ⟨⟨rfl, rfl, id, rfl⟩, rfl, rfl, rfl⟩

/-- A variable that the line sets is entered before the line is over. -/
theorem ends_declare (here : InLine origin [token] p s) :
    Ends (declare token) s (fun _ t => AtLine origin p t) (Refused origin) := by
  obtain ⟨before, stands, accounted, targets⟩ := here
  obtain ⟨t, done, took, vars, labels, jumps⟩ := declare_eq token s
  unfold Ends
  rw [done]
  refine ⟨before, stands.stay took, accounted.clean, ?_, labels.trans accounted.labels,
    jumps.trans accounted.jumps⟩
  rw [vars, accounted.vars, targets, NameTable.ofTokens_concat]

theorem ends_writeLine {text : String} (here : AtLine origin p s) :
    Ends (writeLine text) s (fun _ t => AtLine origin p t) (Refused origin) :=
  ends_modify (here.turned (turned_writeLine text s))

/-- A step after which the line must end. -/
def ReadsLine (origin : Scanner) (blocks : List Block) (step : Pass Unit) (s : State) : Prop :=
  Ends step s (fun _ t => ∃ q, AtLine origin q t ∧ LineOver q blocks t.current.kind) (Refused origin)

theorem ends_printRest (here : InLine origin [] ⟨.operand .line true, blocks⟩ s) :
    ReadsLine origin blocks printRest s := by
  refine ends_get_bind ?_
  by_cases quoted : s.current.kind = .string
  · rw [if_pos quoted]
    refine ends_bind (ends_modify ?_)
    have wrote := turned_writeLine s!"printf(\"{s.current.text}\\n\");" s
    refine ((here.turned wrote).ends_advance (q := ⟨.lineEnd, blocks⟩) nofun ?_ ?_ ?_ ?_).mono
      fun _ t _ after => ⟨_, after.atLine, lineOver_lineEnd blocks _⟩
    · rw [wrote.current_eq, quoted]
      rfl
    · simp [quoted]
    · simp [quoted]
    · simp [quoted]
  · rw [if_neg quoted]
    refine ends_bind (ends_modify ?_)
    have wrote := turned_write s!"printf(\"%.{s.options.precision}f\\n\", (float)(" s
    refine ends_bind ((ends_expression (here.turned wrote) fun _ => quoted).mono
      fun _ t _ after => ?_)
    exact ends_modify ⟨_, (after.1.turned (turned_writeLine "));" t)).atLine,
      lineOver_joined blocks after.2⟩

theorem ends_labelRest (here : BeforeName origin .label ⟨.name false, blocks⟩ s) :
    ReadsLine origin blocks labelRest s := by
  refine ends_bind ((ends_freeName here (by simp)).mono fun token r _ there => ?_)
  obtain ⟨before, stands, accounted, past, named, kind, free⟩ := there
  have unreserved := (reservedIn?_eq_none_iff Reserved.forLabels token).2 free
  refine ends_bind (ends_get_bind ?_)
  cases found : r.labels.get? token.text with
  | some first =>
    obtain ⟨split, more⟩ := stands.split_concat
    dsimp only
    rw [stands.report]
    refine ends_throw (.misnamed split (fun _ => more) accounted.clean ?_ stands.leads)
    rw [violation?, named]
    simp only [unreserved, Option.none_or, duplicate?, ← accounted.labels, found, Option.map_some]
  | none =>
    have allowed : violation? before token = none := by
      rw [violation?, named]
      simp only [unreserved, Option.none_or, duplicate?, ← accounted.labels, found, Option.map_none]
    refine ends_modify ?_
    refine (ends_writeLine (p := ⟨.lineEnd, blocks⟩) ?_).mono fun _ t _ after =>
      ⟨_, after, lineOver_lineEnd blocks _⟩
    refine ⟨before ++ [token], stands.stay ⟨rfl, rfl, id, rfl⟩,
      clean_concat.2 ⟨accounted.clean, allowed⟩, ?_, ?_, ?_⟩
    · rw [inRole_concat_of_ne (by simp [named])]
      exact accounted.vars
    · rw [labelsOf, inRole_concat, if_pos named, NameTable.ofTokens_concat]
      exact congrArg (·.note token.text token.location) accounted.labels
    · rw [jumpsOf, inRole_concat_of_ne (by simp [named])]
      exact accounted.jumps

theorem ends_gotoRest (here : BeforeName origin .jump ⟨.name false, blocks⟩ s) :
    ReadsLine origin blocks gotoRest s := by
  refine ends_bind ((ends_freeName here (by simp)).mono fun token r _ there => ?_)
  obtain ⟨before, stands, accounted, past, named, kind, free⟩ := there
  have allowed : violation? before token = none := by
    rw [violation?, named]
    exact (reservedIn?_eq_none_iff _ _).2 free
  refine ends_bind (ends_modify ?_)
  refine (ends_writeLine (p := ⟨.lineEnd, blocks⟩) ?_).mono fun _ t _ after =>
    ⟨_, after, lineOver_lineEnd blocks _⟩
  refine ⟨before ++ [token], stands.stay ⟨rfl, rfl, id, rfl⟩,
    clean_concat.2 ⟨accounted.clean, allowed⟩, ?_, ?_, ?_⟩
  · rw [inRole_concat_of_ne (by simp [named])]
    exact accounted.vars
  · rw [labelsOf, inRole_concat_of_ne (by simp [named])]
    exact accounted.labels
  · rw [jumpsOf, inRole_concat, if_pos named, NameTable.ofTokens_concat]
    exact congrArg (·.note token.text token.location) accounted.jumps

theorem ends_letRest (here : BeforeName origin .target ⟨.name true, blocks⟩ s) :
    ReadsLine origin blocks letRest s := by
  refine ends_bind ((ends_freeName here (by simp)).mono fun token r _ there => ?_)
  refine ends_bind ((ends_write there.inLine).mono fun _ u _ there => ?_)
  have needed (other : u.current.kind ≠ .operator .assign) :
      Point.next ⟨.assignment, blocks⟩ u.current.kind = none ∧
        Point.expectation ⟨.assignment, blocks⟩ u.current.kind =
          some (Kind.operator .assign).name := ⟨if_neg other, rfl⟩
  refine ends_bind ((there.ends_expect nofun rfl (by simp) needed).mono fun _ v _ there => ?_)
  refine ends_bind ((ends_expression there nofun).mono fun _ w _ after => ?_)
  refine ends_bind (ends_modify ?_)
  have wrote := turned_writeLine ";" w
  refine (ends_declare (after.1.turned wrote)).mono fun _ t done there => ⟨_, there, ?_⟩
  have same := (emitted_declare done).current_eq
  rw [same, wrote.current_eq]
  exact lineOver_joined blocks after.2

theorem ends_inputRest (here : BeforeName origin .target ⟨.name false, blocks⟩ s) :
    ReadsLine origin blocks inputRest s := by
  refine ends_bind ((ends_freeName here (by simp)).mono fun token r _ there => ?_)
  refine ends_bind ((ends_declare there.inLine).mono fun _ u _ there => ?_)
  refine ends_bind ((ends_writeLine there).mono fun _ u _ there => ?_)
  refine ends_bind ((ends_writeLine there).mono fun _ u _ there => ?_)
  refine ends_bind ((ends_writeLine there).mono fun _ u _ there => ?_)
  exact (ends_writeLine there).mono fun _ t _ there => ⟨_, there, lineOver_lineEnd blocks _⟩

/-- A simple statement, keyword and all, up to the end of its line. -/
theorem ends_statementRest {rest : Pass Unit} (here : AtLine origin ⟨.lineStart, blocks⟩ s)
    (found : statementRest? s.current.kind = some (.inl rest)) :
    ReadsLine origin blocks (do advance; rest) s := by
  have ⟨_, stands, _⟩ := here
  have more : s.current.kind ≠ .eof := fun isEnd => by simp [isEnd, statementRest?] at found
  unfold statementRest? at found
  split at found <;> rename_i kind <;> cases found
  · refine ends_bind ((here.inLine.ends_advance (q := ⟨.operand .line true, blocks⟩) nofun ?_ more ?_
      ?_).mono fun _ r _ there => ends_printRest there)
    all_goals simp [kind, Point.next, Point.beginStatement]
  · refine ends_bind ((stands.ends_advance more).mono fun _ r _ turned =>
      ends_labelRest (beforeName_of_keyword here ?_ ?_ ?_ ?_ turned))
    all_goals simp [kind, Role.after, Point.next, Point.beginStatement]
  · refine ends_bind ((stands.ends_advance more).mono fun _ r _ turned =>
      ends_gotoRest (beforeName_of_keyword here ?_ ?_ ?_ ?_ turned))
    all_goals simp [kind, Role.after, Point.next, Point.beginStatement]
  · refine ends_bind ((stands.ends_advance more).mono fun _ r _ turned =>
      ends_letRest (beforeName_of_keyword here ?_ ?_ ?_ ?_ turned))
    all_goals simp [kind, Role.after, Point.next, Point.beginStatement]
  · refine ends_bind ((stands.ends_advance more).mono fun _ r _ turned =>
      ends_inputRest (beforeName_of_keyword here ?_ ?_ ?_ ?_ turned))
    all_goals simp [kind, Role.after, Point.next, Point.beginStatement]

/-! ## Blocks -/

theorem ends_openingLine {block : Block}
    (here : InLine origin [] ⟨.operand (.condition block false) false, blocks⟩ s) :
    ReadsLine origin (block :: blocks) (openingLine block) s := by
  refine ends_bind ((ends_write here).mono fun _ r _ there => ?_)
  refine ends_bind ((ends_comparison there).mono fun _ u _ after => ?_)
  obtain ⟨there, stops, compares⟩ := after
  have opens : Point.next ⟨.joined (.condition block true), blocks⟩ (.keyword block.opener) =
      some ⟨.lineEnd, block :: blocks⟩ := by
    cases block <;> rfl
  have needed (other : u.current.kind ≠ .keyword block.opener) :
      Point.next ⟨.joined (.condition block true), blocks⟩ u.current.kind = none ∧
        Point.expectation ⟨.joined (.condition block true), blocks⟩ u.current.kind =
          some (Kind.keyword block.opener).name := by
    refine ⟨?_, rfl⟩
    rw [next_of_stopsExpression stops, Point.afterExpression, if_neg (by simp [compares]),
      if_neg fun both => other both.2]
  refine ends_bind ((there.ends_expect (by simp) opens (by simp) needed).mono fun _ v _ there => ?_)
  exact (ends_writeLine there.atLine).mono fun _ w _ there => ⟨_, there, lineOver_lineEnd _ _⟩

theorem ends_closingLine {block : Block} (here : AtLine origin ⟨.lineStart, block :: blocks⟩ s)
    (closes : s.current.kind = .keyword block.closer) : ReadsLine origin blocks (closingLine block) s := by
  have leads : Point.next ⟨.lineStart, block :: blocks⟩ (.keyword block.closer) =
      some ⟨.lineEnd, blocks⟩ := by
    cases block <;> rfl
  refine ends_bind ((here.inLine.ends_expect nofun leads (by simp)
    fun other => absurd closes other).mono fun _ r _ there => ?_)
  exact (ends_writeLine there.atLine).mono fun _ w _ there => ⟨_, there, lineOver_lineEnd _ _⟩

theorem beginStatement_of_none {kind : Kind} (begins : statementRest? kind = none)
    (blocks : List Block) : Point.beginStatement blocks kind = none := by
  cases kind with
  | keyword word => cases word <;> cases begins <;> rfl
  | _ => rfl

theorem next_of_block {kind : Kind} {block : Block} (found : statementRest? kind = some (.inr block))
    (blocks : List Block) :
    Point.next ⟨.lineStart, blocks⟩ kind =
      some ⟨.operand (.condition block false) false, blocks⟩ := by
  rw [statementRest_block found]
  cases block <;> rfl

/-- What begins no statement and ends no block is refused as a statement, but for the end of the text
inside a block. -/
theorem complaint_lineStart {blocks : List Block} (more : token.kind ≠ .eof) :
    Point.complaint ⟨.lineStart, blocks⟩ token = .invalidStatement token.text token.kind.name := by
  cases blocks with
  | nil => rfl
  | cons block outer => rw [Point.complaint, Point.expectation, if_neg more]

theorem ends_beginStatement (here : AtLine origin p s) :
    Ends beginStatement s (fun _ t => AtLine origin p t ∧ t.current = s.current) (Refused origin) := by
  refine ends_modify ?_
  obtain ⟨noted, same⟩ := emitted_beginStatement (s := s) rfl
  refine ⟨here.same noted.toTook ?_ ?_ ?_, same⟩
  all_goals dsimp only; split <;> rfl

/-- The first line of a statement is read where the grammar lets one begin. -/
theorem ends_statementLine (here : AtLine origin ⟨.lineStart, blocks⟩ s)
    (blank : s.current.kind ≠ .newline) (more : s.current.kind ≠ .eof)
    (inside : Point.endBlock blocks s.current.kind = none) :
    Ends statementLine s
      (fun opened t => ∃ q, AtLine origin q t ∧ LineOver q (opened.toList ++ blocks) t.current.kind)
      (Refused origin) := by
  refine ends_bind ((ends_beginStatement here).mono fun _ r _ begun => ?_)
  obtain ⟨there, same⟩ := begun
  rw [← same] at blank more inside
  have ⟨_, stands, _⟩ := there
  refine ends_get_bind ?_
  cases found : statementRest? r.current.kind with
  | none =>
    have stuck : Point.next ⟨.lineStart, blocks⟩ r.current.kind = none := by
      rw [Point.next, if_neg blank, inside, beginStatement_of_none found]
      rfl
    have refused := stands.misplaced stuck
    rw [complaint_lineStart more] at refused
    exact ends_throw refused
  | some begins =>
    cases begins with
    | inl rest =>
      dsimp only
      rw [← bind_assoc]
      exact ends_bind ((ends_statementRest there found).mono fun _ t _ line => ends_pure line)
    | inr block =>
      have kind := statementRest_block found
      refine ends_bind ((there.inLine.ends_advance (by simp) (next_of_block found blocks) more blank
        (by simp [kind])).mono fun _ t _ head => ?_)
      exact ends_bind ((ends_openingLine head).mono fun _ u _ line => ends_pure line)

/-- A statement is opened where the grammar lets one begin. -/
theorem ends_openStatement (here : AtLine origin ⟨.lineStart, blocks⟩ s)
    (blank : s.current.kind ≠ .newline) (more : s.current.kind ≠ .eof)
    (inside : Point.endBlock blocks s.current.kind = none) :
    Ends openStatement s
      (fun opened t => AtLine origin ⟨.lineStart, opened.toList ++ blocks⟩ t ∧
        t.current.kind ≠ .newline)
      (Refused origin) := by
  rw [openStatement_by_lines]
  refine ends_bind ((ends_statementLine here blank more inside).mono fun opened t _ line => ?_)
  obtain ⟨q, line, past⟩ := line
  exact ends_bind ((ends_newline line past).mono fun _ u _ after => ends_pure after)

/-- A move inside the open blocks keeps to the grammar, whatever blocks are open further out. -/
theorem ends_blockMove {block : Block} {inner outer : List Block}
    (here : AtLine origin ⟨.lineStart, block :: inner ++ outer⟩ s) (blank : s.current.kind ≠ .newline) :
    Ends (blockMove block inner) s
      (fun blocks t => AtLine origin ⟨.lineStart, blocks ++ outer⟩ t ∧ t.current.kind ≠ .newline)
      (Refused origin) := by
  have ⟨_, stands, _⟩ := here
  refine ends_get_bind ?_
  by_cases closes : s.current.kind = .keyword block.closer
  · rw [if_pos closes]
    have byLine : (do
        let _ ← expect (.keyword block.closer)
        writeLine "\x7d"
        newline
        return inner) = (do closingLine block; newline; return inner) := by
      rw [closingLine, bind_assoc]
    rw [byLine]
    refine ends_bind ((ends_closingLine here closes).mono fun _ r _ line => ?_)
    obtain ⟨q, line, past⟩ := line
    exact ends_bind ((ends_newline line past).mono fun _ t _ after => ends_pure after)
  · rw [if_neg closes]
    by_cases ended : s.current.kind = .eof
    · rw [if_pos ended]
      refine ends_throw (stands.unexpected ?_ ?_)
      · rw [ended]
        rfl
      · rw [ended]
        rfl
    · rw [if_neg ended]
      have inside : Point.endBlock (block :: inner ++ outer) s.current.kind = none := if_neg closes
      refine ends_bind ((ends_openStatement here blank ended inside).mono fun opened t _ after => ?_)
      refine ends_pure ?_
      rw [List.append_assoc]
      exact after

theorem ends_closeBlocks {inner outer : List Block}
    (here : AtLine origin ⟨.lineStart, inner ++ outer⟩ s) (blank : s.current.kind ≠ .newline) :
    Ends (closeBlocks inner) s
      (fun _ t => AtLine origin ⟨.lineStart, outer⟩ t ∧ t.current.kind ≠ .newline)
      (Refused origin) := by
  refine ends_iterate (γ := Unit)
    (P := fun _ blocks s => AtLine origin ⟨.lineStart, blocks ++ outer⟩ s ∧ s.current.kind ≠ .newline)
    (Q := fun _ _ _ t => AtLine origin ⟨.lineStart, outer⟩ t ∧ t.current.kind ≠ .newline)
    ?_ () inner s ⟨here, blank⟩
  rintro - blocks s ⟨here, blank⟩
  cases blocks with
  | nil => exact ends_pure ⟨here, blank⟩
  | cons block inner =>
    refine ends_bind ((ends_blockMove here blank).mono fun rest t _ after => ?_)
    exact ends_pure ⟨(), after, fun _ ended => ended⟩

/-- A whole statement leaves the blocks around it as they were. -/
theorem ends_statement (here : AtLine origin ⟨.lineStart, blocks⟩ s)
    (blank : s.current.kind ≠ .newline) (more : s.current.kind ≠ .eof)
    (inside : Point.endBlock blocks s.current.kind = none) :
    Ends statement s
      (fun _ t => AtLine origin ⟨.lineStart, blocks⟩ t ∧ t.current.kind ≠ .newline)
      (Refused origin) := by
  refine ends_bind ((ends_openStatement here blank more inside).mono fun opened t _ after => ?_)
  exact ends_closeBlocks after.1 after.2

end LineBasic.Pass
