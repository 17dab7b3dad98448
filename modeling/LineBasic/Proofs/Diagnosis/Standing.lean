import LineBasic.Proofs.Grammar.Stage
import LineBasic.Proofs.Names.Rules
import LineBasic.Proofs.Pass.Outcome

/-!
# Where a pass stands

While a pass reads, the tokens before its current one led to a position of the grammar (`Standing`), and
its tables are those of the names among these tokens (`Accounted`). So the pass can go on exactly if the
grammar can, and it knows exactly the names that count.

`Refused` lists the ways in which a source can be refused: a fault of the scanner, a token that cannot
stand at the position before it, a token that breaks a rule of names, a jump without its label. Every
failure of a step is one of them.
-/

namespace LineBasic

set_option autoImplicit false

open Grammar

/-- The diagnostic for a cause at a place of the text. -/
def Scanner.report (sc : Scanner) (cause : Cause) (place : Location) : Diagnostic :=
  { cause, location := some place, sourceLine := sc.line? place.line }

namespace Grammar.Point

/-- What was needed at a position where the kind cannot stand; nothing if a statement was needed. -/
def expectation : Point → Kind → Option String
  | ⟨.lineStart, block :: _⟩, kind => if kind = .eof then some block.closer.spelling else none
  | ⟨.lineStart, []⟩, _ => none
  | ⟨.name _, _⟩, _ => some Kind.ident.name
  | ⟨.assignment, _⟩, _ => some (Kind.operator .assign).name
  | ⟨.operand _ _, _⟩, _ | ⟨.signed _, _⟩, _ => some "NUMBER or IDENT"
  | ⟨.joined (.condition block true), _⟩, _ => some (Kind.keyword block.opener).name
  | ⟨.joined (.condition _ false), _⟩, _ => some "comparison operator"
  | ⟨.joined .line, _⟩, _ | ⟨.lineEnd, _⟩, _ => some Kind.newline.name
  | ⟨.done, _⟩, _ => none

/-- What is wrong with a token that cannot stand at a position. -/
def complaint (p : Point) (token : Token) : Cause :=
  match p.expectation token.kind with
  | some expected => .unexpectedToken expected token.describe none
  | none => .invalidStatement token.text token.kind.name

theorem run_append (p : Point) (word more : List Kind) :
    p.run (word ++ more) = (p.run word).bind fun q => q.run more := by
  rw [run, List.foldlM_append]
  rfl

theorem run_singleton (p : Point) (k : Kind) : p.run [k] = p.next k := by
  simp [run]

theorem run_concat (p : Point) (word : List Kind) (k : Kind) :
    p.run (word ++ [k]) = (p.run word).bind fun q => q.next k := by
  rw [run_append]
  simp only [run_singleton]

end Grammar.Point

/-- Why a source is refused, and with which diagnostic. -/
inductive Refused (origin : Scanner) : Diagnostic → Prop where
  /-- Its tokens end in a fault. -/
  | unread {fault : Diagnostic} (met : origin.stream.fault = some fault) : Refused origin fault
  /-- A token cannot stand where it is. -/
  | misplaced {before after : List Token} {token : Token} {p : Point}
      (split : origin.stream.tokens = before ++ token :: after)
      (ahead : token.kind ≠ .eof → after ≠ [])
      (leads : Point.start.run (before.map (·.kind)) = some p)
      (stuck : p.next token.kind = none) :
      Refused origin (origin.report (p.complaint token) token.location)
  /-- A token, which may stand where it is, is the first one that breaks a rule of names. -/
  | misnamed {before after : List Token} {token : Token} {cause : Cause} {p : Point}
      (split : origin.stream.tokens = before ++ token :: after)
      (ahead : token.kind ≠ .eof → after ≠ [])
      (clean : Clean before) (breaks : violation? before token = some cause)
      (leads : Point.start.run ((before ++ [token]).map (·.kind)) = some p) :
      Refused origin (origin.report cause token.location)
  /-- A jump has no label, and nothing else is wrong. -/
  | unlabelled {blocks : List Pass.Block} {name : String} {place : Location}
      (whole : origin.stream.fault = none)
      (leads : Point.start.run (origin.stream.tokens.map (·.kind)) = some ⟨.done, blocks⟩)
      (clean : Clean origin.stream.tokens)
      (first : (jumpsOf origin.stream.tokens).entries.find?
        (fun jump => !(labelsOf origin.stream.tokens).has jump.1) = some (name, place)) :
      Refused origin (origin.report (.undefinedLabel name) place)

namespace Pass

variable {origin : Scanner} {before tokens known pending : List Token} {p q : Point} {s t : State}

/-- The tokens before the current one, and the position that they led to. -/
structure Standing (origin : Scanner) (before : List Token) (p : Point) (s : State) : Prop where
  stream : origin.stream.tokens = before ++ s.stream.tokens
  fault : s.stream.fault = origin.stream.fault
  primed : s.Primed
  source : s.scanner.text = origin.text
  leads : Point.start.run (before.map (·.kind)) = some p

namespace Standing

theorem took (stands : Standing origin before p s) (took : Took tokens s t)
    (moves : p.run (tokens.map (·.kind)) = some q) : Standing origin (before ++ tokens) q t where
  stream := by rw [stands.stream, took.stream, List.append_assoc]
  fault := took.fault.trans stands.fault
  primed := took.primed stands.primed
  source := took.source.trans stands.source
  leads := by rw [List.map_append, Point.run_append, stands.leads, Option.bind_some, moves]

theorem stay (stands : Standing origin before p s) (took : Took [] s t) :
    Standing origin before p t := by
  have := stands.took took rfl
  rwa [List.append_nil] at this

theorem split (stands : Standing origin before p s) :
    ∃ after, origin.stream.tokens = before ++ s.current :: after ∧
      (s.current.kind ≠ .eof → after ≠ []) := by
  obtain ⟨later, same⟩ := Stream.cons_tokens s.ahead s.scanner.stream
  by_cases isEnd : s.current.kind = .eof
  · refine ⟨[], ?_, fun more => absurd isEnd more⟩
    rw [stands.stream, State.stream_at_end isEnd]
  · refine ⟨s.ahead :: later, ?_, fun _ => List.cons_ne_nil _ _⟩
    rw [stands.stream, State.stream, Stream.cons_of_more isEnd, same]

theorem report (stands : Standing origin before p s) (cause : Cause) (place : Location) :
    s.report cause place = origin.report cause place := by
  rw [State.report, Scanner.report, Scanner.line?, Scanner.line?, stands.source]

theorem misplaced (stands : Standing origin before p s) (stuck : p.next s.current.kind = none) :
    Refused origin (s.report (p.complaint s.current) s.current.location) := by
  obtain ⟨after, split, ahead⟩ := stands.split
  rw [stands.report]
  exact .misplaced split ahead stands.leads stuck

theorem unexpected {expected : String} (stands : Standing origin before p s)
    (stuck : p.next s.current.kind = none) (expects : p.expectation s.current.kind = some expected) :
    Refused origin (s.unexpected expected) := by
  have := stands.misplaced stuck
  rwa [Point.complaint, expects] at this

theorem ends_advance (stands : Standing origin before p s) (more : s.current.kind ≠ .eof) :
    Ends advance s (fun _ t => Turned [s.current] "" s t) (Refused origin) := by
  refine ends_of_cases (fun _ t moved => turned_advance more moved) fun fault t failed => ?_
  have met := advance_fault stands.primed more failed
  refine .unread ?_
  rw [← stands.fault, met]

/-- A token is expected where the grammar needs it. -/
theorem ends_expect {kind : Kind} (stands : Standing origin before p s) (more : kind ≠ .eof)
    (needed : s.current.kind ≠ kind →
      p.next s.current.kind = none ∧ p.expectation s.current.kind = some kind.name) :
    Ends (expect kind) s (fun token t => token = s.current ∧ token.kind = kind ∧ Turned [token] "" s t)
      (Refused origin) := by
  refine ends_get_bind ?_
  by_cases same : s.current.kind = kind
  · rw [if_pos same]
    refine ends_bind ((stands.ends_advance (same ▸ more)).mono fun _ t _ turned => ?_)
    exact ends_pure ⟨rfl, same, turned⟩
  · rw [if_neg same]
    obtain ⟨stuck, expects⟩ := needed same
    exact ends_throw (stands.unexpected stuck expects)

end Standing

/-! ## Names -/

/-- No rule of names was broken, and the tables hold the names so far, of the variables the `known`
ones. -/
structure Accounted (known before : List Token) (s : State) : Prop where
  clean : Clean before
  vars : s.vars = .ofTokens known
  labels : s.labels = labelsOf before
  jumps : s.jumps = jumpsOf before

theorem Accounted.kept (accounted : Accounted known before s) (kept : Kept s t) :
    Accounted known before t where
  clean := accounted.clean
  vars := kept.vars.trans accounted.vars
  labels := kept.labels.trans accounted.labels
  jumps := kept.jumps.trans accounted.jumps

/-- A token in no special role enters no name. -/
theorem Accounted.concat (accounted : Accounted known before s) {token : Token}
    (plain : Role.next before = .plain) (allowed : violation? before token = none) :
    Accounted known (before ++ [token]) s where
  clean := clean_concat.2 ⟨accounted.clean, allowed⟩
  vars := accounted.vars
  labels := by rw [accounted.labels, labelsOf, labelsOf, inRole_concat_of_ne (by simp [plain])]
  jumps := by rw [accounted.jumps, jumpsOf, jumpsOf, inRole_concat_of_ne (by simp [plain])]

/-- Only a keyword before a name gives the next token a role. -/
theorem name_of_role {k : Kind} (special : Role.after k ≠ .plain) (leads : p.next k = some q) :
    ∃ assigns, q.stage = .name assigns := by
  obtain ⟨stage, blocks⟩ := p
  unfold Role.after at special
  split at special
  case h_5 => exact absurd rfl special
  all_goals
    cases stage with
    | lineStart => cases leads; exact ⟨_, rfl⟩
    | operand goal text => cases goal <;> cases text <;> cases leads
    | joined goal =>
      cases goal with
      | line => cases leads
      | condition block compared => cases block <;> cases compared <;> cases leads
    | _ => cases leads

theorem plain_of_run (leads : Point.start.run (before.map (·.kind)) = some p)
    (apart : ∀ assigns, p.stage ≠ .name assigns) : Role.next before = .plain := by
  rcases List.eq_nil_or_concat before with rfl | ⟨earlier, last, rfl⟩
  · rfl
  · rw [List.concat_eq_append, List.map_append, List.map_singleton, Point.run_concat,
      Option.bind_eq_some_iff] at leads
    obtain ⟨q, -, leads⟩ := leads
    rw [List.concat_eq_append, Role.next_concat]
    by_contra special
    obtain ⟨assigns, named⟩ := name_of_role special leads
    exact apart assigns named

theorem newline_of_next {k : Kind} {blocks : List Block} (leads : p.next k = some ⟨.lineStart, blocks⟩) :
    k = .newline := by
  obtain ⟨stage, outer⟩ := p
  by_contra more
  cases stage with
  | lineStart =>
    simp only [Point.next, more, if_false, Option.or_eq_some_iff] at leads
    rcases leads with begins | ⟨-, ends⟩
    · unfold Point.beginStatement at begins
      split at begins <;> cases begins
    · cases outer <;> simp [Point.endBlock] at ends
  | name assigns => cases assigns <;> simp [Point.next] at leads
  | operand goal text =>
    simp only [Point.next] at leads
    split at leads
    · cases leads
    · split at leads
      · cases leads
      · unfold Point.afterPrimary at leads
        split at leads <;> cases leads
  | signed goal =>
    simp only [Point.next, Point.afterPrimary] at leads
    split at leads <;> cases leads
  | joined goal =>
    simp only [Point.next] at leads
    split at leads
    · cases leads
    · cases goal with
      | line => simp_all [Point.afterExpression]
      | condition block compared =>
        simp only [Point.afterExpression] at leads
        split at leads
        · cases leads
        · split at leads <;> cases leads
  | _ => simp [Point.next, more] at leads

/-- A line starts where the one before it is over. -/
theorem finished_of_run {blocks : List Block}
    (leads : Point.start.run (before.map (·.kind)) = some ⟨.lineStart, blocks⟩) :
    finished before = before := by
  rcases List.eq_nil_or_concat before with rfl | ⟨earlier, last, rfl⟩
  · rfl
  · rw [List.concat_eq_append, List.map_append, List.map_singleton, Point.run_concat,
      Option.bind_eq_some_iff] at leads
    obtain ⟨q, -, leads⟩ := leads
    rw [List.concat_eq_append, finished_concat_newline _ (newline_of_next leads)]

/-- Inside a line the variables that earlier lines set are known; `pending` are those that this line
sets. -/
def InLine (origin : Scanner) (pending : List Token) (p : Point) (s : State) : Prop :=
  ∃ before, Standing origin before p s ∧ Accounted (inRole .target (finished before)) before s ∧
    inRole .target before = inRole .target (finished before) ++ pending

/-- Where a line ends or starts, all variables that were set are known. -/
def AtLine (origin : Scanner) (p : Point) (s : State) : Prop :=
  ∃ before, Standing origin before p s ∧ Accounted (inRole .target before) before s

theorem InLine.atLine (here : InLine origin [] p s) : AtLine origin p s := by
  obtain ⟨before, stands, accounted, targets⟩ := here
  rw [List.append_nil] at targets
  exact ⟨before, stands, targets ▸ accounted⟩

theorem AtLine.inLine {blocks : List Block} (here : AtLine origin ⟨.lineStart, blocks⟩ s) :
    InLine origin [] ⟨.lineStart, blocks⟩ s := by
  obtain ⟨before, stands, accounted⟩ := here
  have past := finished_of_run stands.leads
  exact ⟨before, stands, past.symm ▸ accounted, by rw [past, List.append_nil]⟩

theorem InLine.turned {text : String} (here : InLine origin pending p s) (turned : Turned [] text s t) :
    InLine origin pending p t := by
  obtain ⟨before, stands, accounted, targets⟩ := here
  exact ⟨before, stands.stay turned.toTook, accounted.kept turned.toKept, targets⟩

theorem AtLine.turned {text : String} (here : AtLine origin p s) (turned : Turned [] text s t) :
    AtLine origin p t := by
  obtain ⟨before, stands, accounted⟩ := here
  exact ⟨before, stands.stay turned.toTook, accounted.kept turned.toKept⟩

theorem ends_write {text : String} (here : InLine origin pending p s) :
    Ends (write text) s (fun _ t => InLine origin pending p t) (Refused origin) :=
  ends_modify (here.turned (turned_write text s))

theorem violation?_plain {token : Token} (plain : Role.next before = .plain) :
    violation? before token = undeclared? (variablesOf before) token := by
  rw [violation?, plain]

/-- Inside a line, any token but a name in a special role can be taken where it leads on. -/
theorem InLine.take {token : Token} (here : InLine origin pending p s)
    (apart : ∀ assigns, p.stage ≠ .name assigns) (leads : p.next token.kind = some q)
    (inside : token.kind ≠ .newline) (set : token.kind = .ident → s.vars.has token.text = true)
    (turned : Turned [token] "" s t) : InLine origin pending q t := by
  obtain ⟨before, stands, accounted, targets⟩ := here
  have plain := plain_of_run stands.leads apart
  have allowed : violation? before token = none := by
    rw [violation?_plain plain, undeclared?, if_neg]
    rintro ⟨named, unset⟩
    have known := set named
    rw [accounted.vars] at known
    rw [variablesOf, known] at unset
    cases unset
  have same : finished (before ++ [token]) = finished before := finished_concat_other _ inside
  refine ⟨before ++ [token], stands.took turned.toTook ?_, ?_, ?_⟩
  · rw [List.map_singleton, Point.run_singleton, leads]
  · rw [same]
    exact (accounted.kept turned.toKept).concat plain allowed
  · rw [same, inRole_concat_of_ne (by simp [plain]), targets]

theorem InLine.ends_advance (here : InLine origin pending p s)
    (apart : ∀ assigns, p.stage ≠ .name assigns) (leads : p.next s.current.kind = some q)
    (more : s.current.kind ≠ .eof) (inside : s.current.kind ≠ .newline)
    (set : s.current.kind = .ident → s.vars.has s.current.text = true) :
    Ends advance s (fun _ t => InLine origin pending q t) (Refused origin) := by
  have ⟨_, stands, _⟩ := here
  exact (stands.ends_advance more).mono fun _ t _ turned => here.take apart leads inside set turned

/-- A mark is expected where the grammar needs it. -/
theorem InLine.ends_expect {kind : Kind} (here : InLine origin pending p s)
    (apart : ∀ assigns, p.stage ≠ .name assigns) (leads : p.next kind = some q)
    (mark : kind ≠ .eof ∧ kind ≠ .newline ∧ kind ≠ .ident)
    (needed : s.current.kind ≠ kind →
      p.next s.current.kind = none ∧ p.expectation s.current.kind = some kind.name) :
    Ends (expect kind) s (fun _ t => InLine origin pending q t) (Refused origin) := by
  have ⟨_, stands, _⟩ := here
  refine (stands.ends_expect mark.1 needed).mono fun token t _ found => ?_
  obtain ⟨-, rfl, turned⟩ := found
  exact here.take apart leads mark.2.1 (fun named => absurd named mark.2.2) turned

end Pass

end LineBasic
