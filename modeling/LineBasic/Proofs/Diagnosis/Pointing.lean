import LineBasic.Proofs.Diagnosis.Message
import LineBasic.Proofs.Diagnosis.OnDemand
import LineBasic.Proofs.Token.Placed

/-!
# Diagnostics point at what they are about

Every diagnostic of a compilation names a place of the source and shows the line of that place, and what
it is about stands there: the character, number or name of its cause, or the token that was found. A fault
of the scanner is made by the scanner itself from its cursor (`Scanner.fault_shows`); all others take the
place of a token and look the line up in the text (`Token.Placed.shows`).
-/

namespace LineBasic

set_option autoImplicit false

open Grammar

/-- The text that a cause is about, unless it is about a token. -/
def Cause.subject? : Cause → Option (List Char)
  | .invalidCharacter char _ => some [char]
  | .unterminatedString => some ['"']
  | .illegalStringCharacter char => some char.toList
  | .malformedNumber text => some text.toList
  | .undeclaredVariable name _ | .duplicateLabel name _ | .undefinedLabel name | .reservedName name =>
      some name.toList
  | .unexpectedToken .. | .invalidStatement .. | .other .. => none

/-- What a cause is about stands at a column of a line: its subject, or the token at the place. -/
def Cause.PointsAt (tokens : List Token) (place : Location) (line : List Char) : Cause → Prop
  | .unexpectedToken _ found _ =>
      ∃ token ∈ tokens, token.location = place ∧ token.describe = found ∧ token.Shown line place.column
  | .invalidStatement text kind =>
      ∃ token ∈ tokens, token.location = place ∧ token.text = text ∧ token.kind.name = kind ∧
        token.Shown line place.column
  | cause => ∃ subject, cause.subject? = some subject ∧ StandsAt subject line place.column

/-! ## Faults of the scanner -/

/-- A misreading: the reader passes over one text and stops before another, all on one line, and the
subject of the cause stands at the start or where the reader stopped. -/
structure Misread.Explained (misread : Misread) (text front behind subject : List Char) : Prop where
  cut : text = front ++ behind
  width : front.length = misread.width
  inside : '\n' ∉ front
  about : misread.cause.subject? = some subject
  wide : subject ≠ []
  oneLine : '\n' ∉ subject
  starts : subject <+: if misread.atStop then behind else text
  plain : misread.cause.Plain

namespace Lexeme

theorem newline_not_string : isStringChar '\n' = false := by decide

theorem newline_not_mem_takeWhile {p : Char → Bool} (other : p '\n' = false) (text : List Char) :
    '\n' ∉ text.takeWhile p := by
  intro member
  rw [List.mem_takeWhile_imp member] at other
  cases other

theorem readNumber_error {text : List Char} {misread : Misread}
    (failed : readNumber text = .error misread) :
    ∃ front behind subject, misread.Explained text front behind subject := by
  have cut := List.takeWhile_append_dropWhile (p := isDigit) (l := text)
  have digits := newline_not_mem_takeWhile (p := isDigit) (by decide) text
  unfold readNumber at failed
  dsimp only at failed
  split at failed
  · rename_i rest behind
    split at failed
    · rename_i noPlaces
      cases failed
      rw [behind] at cut
      rw [List.isEmpty_iff.1 noPlaces]
      have inside : '\n' ∉ text.takeWhile isDigit ++ ['.'] := by simp [digits]
      have whole : text = text.takeWhile isDigit ++ ['.'] ++ rest := by simpa using cut.symm
      refine ⟨_, rest, text.takeWhile isDigit ++ ['.'], whole, rfl, inside, ?_, by simp, inside, ?_, ?_⟩
      · simp [Cause.subject?]
      · exact ⟨rest, whole.symm⟩
      · exact (oneLine_ofList _).2 inside
    · cases failed
  · cases failed

theorem readString_error {text : List Char} {misread : Misread}
    (failed : readString text = .error misread) :
    ∃ front behind subject, misread.Explained ('"' :: text) front behind subject := by
  have cut : '"' :: text = '"' :: text.takeWhile isStringChar ++ text.dropWhile isStringChar := by
    rw [List.cons_append, List.takeWhile_append_dropWhile]
  have inside : '\n' ∉ '"' :: text.takeWhile isStringChar := by
    simp [newline_not_mem_takeWhile newline_not_string text]
  have opening : ['"'] <+: '"' :: text := ⟨text, rfl⟩
  unfold readString at failed
  dsimp only at failed
  split at failed
  · cases failed
    exact ⟨_, _, ['"'], cut, rfl, inside, rfl, by simp, by simp, opening, trivial⟩
  · cases failed
    exact ⟨_, _, ['"'], cut, rfl, inside, rfl, by simp, by simp, opening, trivial⟩
  · cases failed
  · rename_i c rest notNewline notQuote behind
    cases failed
    rw [behind] at cut
    have oneLine : '\n' ∉ [c] := by simpa [eq_comm] using notNewline
    exact ⟨_, _, [c], cut, rfl, inside, by simp [Cause.subject?], by simp, oneLine, ⟨rest, rfl⟩, trivial⟩

theorem read_error {text : List Char} {misread : Misread} (failed : read text = .error misread) :
    ∃ front behind subject, misread.Explained text front behind subject := by
  cases text with
  | nil => cases failed
  | cons c rest =>
    by_cases newline : c = '\n'
    · subst newline
      cases failed
    · have oneLine : '\n' ∉ [c] := by simpa [eq_comm] using newline
      unfold read at failed
      split at failed
      case h_14 same =>
        cases same
        cases failed
        refine ⟨[], _, ['!'], rfl, rfl, by simp, rfl, by simp, oneLine, ⟨rest, rfl⟩, newline, ?_⟩
        rintro text ⟨⟩
        decide
      case h_15 same =>
        cases same
        exact readString_error failed
      case h_16 same =>
        cases same
        split at failed
        · exact readNumber_error failed
        · split at failed
          · cases failed
          · cases failed
            exact ⟨[], _, [c], rfl, rfl, by simp, rfl, by simp, oneLine, ⟨rest, rfl⟩, newline, nofun⟩
      all_goals cases failed

end Lexeme

/-- A diagnostic shows the line that a text is cut in, at the place of the cut. -/
structure Diagnostic.Shows (file : String) (passed rest : List Char) (fault : Diagnostic) : Prop where
  location : fault.location = some (placeAfter file passed)
  sourceLine : fault.sourceLine = some (String.ofList (lineAt passed rest))

/-- A diagnostic is placed where its subject stands in the text of a file. -/
def Diagnostic.ShowsSubject (file : String) (text : List Char) (fault : Diagnostic) : Prop :=
  ∃ passed rest subject, text = passed ++ (subject ++ rest) ∧ fault.Shows file passed (subject ++ rest) ∧
    fault.cause.subject? = some subject ∧ subject ≠ [] ∧ '\n' ∉ subject

namespace Scanner

theorem next_error_shows {sc sc' : Scanner} {fault : Diagnostic} {passed text : List Char}
    (stands : sc.cursor = .after passed text) (closed : Closed text)
    (failed : next sc = .error fault sc') :
    fault.ShowsSubject sc.file (passed ++ text) ∧ fault.cause.Plain := by
  obtain ⟨gap, here, rfl, -, skipped⟩ := skipGap_after passed closed
  rw [← stands] at skipped
  obtain ⟨misread, found, rfl, -⟩ := next_error failed
  rw [skipped, Cursor.after_rest] at found
  obtain ⟨front, behind, subject, explained⟩ := Lexeme.read_error found
  have cut := explained.cut
  subst cut
  have stop : (Cursor.after (passed ++ gap) (front ++ behind)).skip misread.width =
      .after (passed ++ gap ++ front) behind := by
    rw [← explained.width, Cursor.skip_after]
  have starts := explained.starts
  rw [skipped, complaint, stop, Cursor.lineText_after]
  refine ⟨?_, explained.plain⟩
  cases atStop : misread.atStop with
  | true =>
    rw [atStop, if_pos rfl] at starts
    obtain ⟨rest, rfl⟩ := starts
    exact ⟨passed ++ gap ++ front, rest, subject, by simp, ⟨rfl, rfl⟩, explained.about, explained.wide,
      explained.oneLine⟩
  | false =>
    rw [atStop, if_neg Bool.false_ne_true] at starts
    obtain ⟨rest, same⟩ := starts
    rw [lineAt_append explained.inside, ← same]
    exact ⟨passed ++ gap, rest, subject, by simp, ⟨rfl, rfl⟩, explained.about, explained.wide,
      explained.oneLine⟩

theorem fault_shows (sc : Scanner) : ∀ passed text : List Char, sc.cursor = .after passed text →
    Closed text → ∀ fault, sc.stream.fault = some fault →
    fault.ShowsSubject sc.file (passed ++ text) ∧ fault.cause.Plain := by
  unfold stream
  dsimp only
  fun_induction drain sc with
  | case1 sc fault sc' failed =>
    rintro passed text stands closed _ ⟨⟩
    exact next_error_shows stands closed failed
  | case2 sc token sc' step isEnd =>
    rintro passed text stands closed fault ⟨⟩
  | case3 sc token sc' step more later ih =>
    intro passed text stands closed fault met
    obtain ⟨piece, rest, -, rfl, -, sameFile, moved⟩ := next_laid stands closed step
    have behind := ih _ _ moved closed.of_append fault met
    rwa [sameFile, List.append_assoc] at behind

/-- Nothing comes after the end. -/
theorem more_of_split {sc : Scanner} {before after : List Token} {token : Token}
    (split : sc.stream.tokens = before ++ token :: after) : ∀ other ∈ before, other.kind ≠ .eof := by
  intro other member
  cases met : sc.stream.fault with
  | some fault => exact stream_more met other (by simp [split, member])
  | none =>
    obtain ⟨front, last, same, -, others⟩ := sc.drain_last met
    have early : other ∈ (before ++ token :: after).dropLast := by
      rw [List.dropLast_append_of_ne_nil (List.cons_ne_nil _ _)]
      exact List.mem_append_left _ member
    rw [← split, show sc.stream.tokens = _ from same, List.dropLast_concat] at early
    exact others other early

end Scanner

/-! ## Tokens in a message -/

theorem Kind.oneLine_name (kind : Kind) : OneLine kind.name := by
  cases kind with
  | keyword word => cases word <;> decide
  | operator op => cases op <;> decide
  | _ => decide

namespace Token

variable {token : Token}

theorem IsSpelled.oneLine_text (spelled : token.IsSpelled) (other : token.kind ≠ .newline) :
    OneLine token.text := by
  have written {kind : Kind} {text : List Char} {c : Char} (member : c ∈ text) :
      c ∈ kind.written text := by
    unfold Kind.written
    split
    · simp [member]
    · exact member
  exact fun member => spelled.newline_not_mem other (written member)

theorem IsSpelled.oneLine_describe (spelled : token.IsSpelled) : OneLine token.describe := by
  unfold describe
  split
  · exact Kind.oneLine_name _
  · exact Kind.oneLine_name _
  · rename_i other _
    have named : OneLine (token.kind.name ++ " '") := (Kind.oneLine_name _).append (by decide)
    exact (spelled.oneLine_text other).framed named (by decide)

theorem IsSpelled.lexeme_of_ident (spelled : token.IsSpelled) (kind : token.kind = .ident) :
    token.lexeme = token.text.toList ∧ token.lexeme ≠ [] ∧ '\n' ∉ token.lexeme := by
  refine ⟨?_, spelled.written_ne_nil (by simp [kind]), spelled.newline_not_mem (by simp [kind])⟩
  rw [lexeme, kind]
  rfl

end Token

/-! ## Misplaced tokens -/

namespace Grammar.Point

variable {p q : Point} {k : Kind}

theorem oneLine_expectation {expected : String} (needed : p.expectation k = some expected) :
    OneLine expected := by
  unfold expectation at needed
  split at needed
  case h_1 =>
    split at needed
    · cases needed
      exact Kind.oneLine_name (.keyword _)
    · cases needed
  case h_7 =>
    cases needed
    exact Kind.oneLine_name _
  all_goals cases needed
  all_goals decide

/-- A line may always end before a statement, so a line end is no invalid statement. -/
theorem not_newline_of_invalid (stuck : p.next k = none) (invalid : p.expectation k = none)
    (unfinished : p.stage ≠ .done) : k ≠ .newline := by
  rintro rfl
  obtain ⟨stage, blocks⟩ := p
  cases stage with
  | lineStart => simp [next] at stuck
  | joined goal =>
    cases goal with
    | line => cases invalid
    | condition block compared => cases compared <;> cases invalid
  | done => exact unfinished rfl
  | _ => cases invalid

theorem eof_of_next (leads : p.next k = some q) (finished : q.stage = .done) : k = .eof := by
  obtain ⟨stage, blocks⟩ := p
  have primary (goal : Goal) (found : afterPrimary goal blocks k = some q) : q.stage ≠ .done := by
    unfold afterPrimary at found
    split at found <;> cases found <;> nofun
  have expression (goal : Goal) (found : afterExpression blocks goal k = some q) : q.stage ≠ .done := by
    unfold afterExpression at found
    grind
  cases stage with
  | lineStart =>
    by_cases newline : k = .newline
    · rw [next, if_pos newline] at leads
      cases leads
      cases finished
    · rw [next, if_neg newline, Option.or_eq_some_iff] at leads
      rcases leads with begins | ⟨-, ends⟩
      · unfold beginStatement at begins
        split at begins <;> cases begins <;> cases finished
      · cases blocks with
        | nil =>
          by_contra more
          simp [endBlock, more] at ends
        | cons block outer => grind [endBlock]
  | _ => grind [next]

/-- A program is over only behind its end. -/
theorem eof_mem_of_done {word : List Kind} (leads : start.run word = some q) (finished : q.stage = .done) :
    Kind.eof ∈ word := by
  rcases List.eq_nil_or_concat word with rfl | ⟨earlier, last, rfl⟩
  · cases leads
    cases finished
  · rw [List.concat_eq_append, run_concat, Option.bind_eq_some_iff] at leads
    obtain ⟨r, -, leads⟩ := leads
    simp [eof_of_next leads finished]

end Grammar.Point

/-! ## Names -/

/-- Where the grammar leads on, a token that follows the keyword of a name is a name. -/
theorem ident_of_inRole {tokens : List Token} {p : Point} {role : Role}
    (leads : Point.start.run (tokens.map (·.kind)) = some p) (special : role ≠ .plain) :
    ∀ token ∈ inRole role tokens, token.kind = .ident := by
  rw [forall_inRole_iff]
  intro before token after split named
  rw [split, List.map_append, Point.run_append, Option.bind_eq_some_iff] at leads
  obtain ⟨⟨stage, blocks⟩, reached, leads⟩ := leads
  rw [List.map_cons, Point.run, List.foldlM_cons] at leads
  obtain ⟨r, steps, -⟩ := Option.bind_eq_some_iff.1 leads
  have naming : ∃ assigns, stage = .name assigns := by
    by_contra other
    rw [not_exists] at other
    exact special (named ▸ Pass.plain_of_run reached other)
  obtain ⟨assigns, rfl⟩ := naming
  by_contra other
  simp [Point.next, other] at steps

/-- The names of the variables that are set come from names of the source. -/
theorem oneLine_variablesSet {tokens : List Token} {p : Point}
    (leads : Point.start.run (tokens.map (·.kind)) = some p)
    (spelled : ∀ token ∈ tokens, token.IsSpelled) : ∀ name ∈ variablesSet tokens, OneLine name := by
  intro name listed
  have early := List.rdropWhile_prefix (fun token : Token => token.kind ≠ .newline) tokens
  obtain ⟨target, member, rfl⟩ := List.mem_map.1 (List.mem_eraseDups.1 listed)
  obtain ⟨rest, whole⟩ : finished tokens <+: tokens := early
  rw [← whole, List.map_append, Point.run_append, Option.bind_eq_some_iff] at leads
  obtain ⟨q, leads, -⟩ := leads
  have named := ident_of_inRole leads (by simp) target member
  have inside : target ∈ tokens := by
    rw [← whole]
    exact List.mem_append_left _ ((inRole_sublist _ _).subset member)
  exact (spelled target inside).oneLine_text (by simp [named])

namespace Breaks

variable {before : List Token} {token : Token} {cause : Cause} {p : Point}

theorem subject (breaks : Breaks before token cause) : cause.subject? = some token.text.toList := by
  cases breaks <;> rfl

theorem ident (breaks : Breaks before token cause)
    (leads : Point.start.run ((before ++ [token]).map (·.kind)) = some p) : token.kind = .ident := by
  have special {role : Role} (named : Role.next before = role) (special : role ≠ .plain) :
      token.kind = .ident :=
    ident_of_inRole leads special token (by simp [inRole_concat, named])
  cases breaks with
  | reservedVariable role => exact special role (by simp)
  | reservedLabel role =>
    rcases role with role | role
    · exact special role (by simp)
    · exact special role (by simp)
  | repeated role => exact special role (by simp)
  | unset role kind => exact kind

theorem plain (breaks : Breaks before token cause)
    (leads : Point.start.run ((before ++ [token]).map (·.kind)) = some p)
    (spelled : ∀ other ∈ before ++ [token], other.IsSpelled)
    (files : ∀ other ∈ before, OneLine other.location.file) : cause.Plain := by
  have name : OneLine token.text :=
    (spelled token (by simp)).oneLine_text (by simp [breaks.ident leads])
  cases breaks with
  | reservedVariable => exact name
  | reservedLabel => exact name
  | repeated role defined =>
    refine ⟨name, ?_⟩
    rintro place ⟨⟩
    exact files _ ((inRole_sublist _ _).subset (List.mem_of_find?_eq_some defined))
  | unset role kind unknown =>
    rw [List.map_append, Point.run_append, Option.bind_eq_some_iff] at leads
    obtain ⟨q, leads, -⟩ := leads
    have known := oneLine_variablesSet leads fun other member => spelled other (by simp [member])
    refine ⟨name, fun other member => known other ?_⟩
    exact List.mem_mergeSort.1 (List.mem_filter.1 (List.mem_of_mem_take member)).1

end Breaks

/-! ## Refusals -/

theorem Cause.pointsAt_of_subject {cause : Cause} {tokens : List Token} {place : Location}
    {line subject : List Char} (about : cause.subject? = some subject)
    (stands : StandsAt subject line place.column) : cause.PointsAt tokens place line := by
  cases cause with
  | unexpectedToken => cases about
  | invalidStatement => cases about
  | _ => exact ⟨subject, about, stands⟩

theorem Grammar.Point.complaint_pointsAt (p : Point) {tokens : List Token} {token : Token}
    {line : List Char} (member : token ∈ tokens) (shown : token.Shown line token.location.column) :
    (p.complaint token).PointsAt tokens token.location line := by
  unfold complaint
  split
  · exact ⟨token, member, rfl, rfl, shown⟩
  · exact ⟨token, member, rfl, rfl, rfl, shown⟩

theorem Grammar.Point.complaint_plain {p : Point} {token : Token} (spelled : token.IsSpelled)
    (stuck : p.next token.kind = none) (unfinished : p.stage ≠ .done) : (p.complaint token).Plain := by
  unfold complaint
  split
  · rename_i needed
    exact ⟨oneLine_expectation needed, spelled.oneLine_describe, nofun⟩
  · rename_i invalid
    exact ⟨spelled.oneLine_text (not_newline_of_invalid stuck invalid unfinished), Kind.oneLine_name _⟩

/-- Every token of a source has its place in the text. -/
theorem Scanner.start_placed (file source : String) :
    ∀ token ∈ (start file source).stream.tokens,
      ∃ passed rest, token.Placed file (start file source).text passed rest :=
  stream_placed _ [] _ (Cursor.start_eq_after _) (closed_concat source.toList)

section Placing

variable {file : String} {passed rest : List Char} {token : Token} {origin : Scanner}

/-- A diagnostic at a token shows the line that the token is in. -/
theorem Token.Placed.shows (placed : token.Placed file origin.text passed rest) (cause : Cause) :
    (origin.report cause token.location).Shows file passed (token.lexeme ++ rest) where
  location := congrArg some placed.place
  sourceLine := by
    show origin.line? token.location.line = _
    rw [Scanner.line?, placed.place, placed.cut]
    exact congrArg (Option.map String.ofList) (line?_passed passed _)

theorem Token.Placed.showsSubject (placed : token.Placed file origin.text passed rest)
    (kind : token.kind = .ident) {cause : Cause} (about : cause.subject? = some token.text.toList) :
    (origin.report cause token.location).ShowsSubject file origin.text := by
  obtain ⟨whole, wide, inside⟩ := placed.spelled.lexeme_of_ident kind
  exact ⟨passed, rest, token.lexeme, placed.cut, placed.shows cause, about.trans (by rw [whole]), wide,
    inside⟩

end Placing

/-- A diagnostic for a source, whose texts are plain, at a place where what it is about stands. -/
def Diagnostic.Points (file source : String) (fault : Diagnostic) : Prop :=
  ∃ passed rest, source.toList ++ ['\n'] = passed ++ rest ∧ fault.Shows file passed rest ∧
    fault.cause.PointsAt (Scanner.start file source).stream.tokens (placeAfter file passed)
      (lineAt passed rest) ∧ fault.cause.Plain

theorem Diagnostic.ShowsSubject.points {file source : String} {fault : Diagnostic}
    (shows : fault.ShowsSubject file (source.toList ++ ['\n'])) (plain : fault.cause.Plain) :
    fault.Points file source := by
  obtain ⟨passed, rest, subject, cut, shown, about, wide, inside⟩ := shows
  exact ⟨passed, subject ++ rest, cut, shown,
    Cause.pointsAt_of_subject about (standsAt_lineAt wide inside file passed rest), plain⟩

theorem Refused.points {file source : String} (oneLine : OneLine file) {fault : Diagnostic}
    (refused : Refused (Scanner.start file source) fault) : fault.Points file source := by
  have placed := Scanner.start_placed file source
  have spelled := (Scanner.start file source).stream_spelled
  have files : ∀ token ∈ (Scanner.start file source).stream.tokens, OneLine token.location.file := by
    intro token member
    obtain ⟨passed, rest, here⟩ := placed token member
    rw [here.place]
    exact oneLine
  cases refused with
  | unread met =>
    obtain ⟨shows, plain⟩ := Scanner.fault_shows _ [] _ (Cursor.start_eq_after _)
      (closed_concat source.toList) fault met
    exact shows.points plain
  | @misplaced before after token p split ahead leads stuck =>
    have member : token ∈ (Scanner.start file source).stream.tokens := by simp [split]
    obtain ⟨passed, rest, here⟩ := placed token member
    have unfinished : p.stage ≠ .done := by
      intro finished
      obtain ⟨other, earlier, isEnd⟩ := List.mem_map.1 (Point.eof_mem_of_done leads finished)
      exact Scanner.more_of_split split other earlier isEnd
    refine ⟨passed, token.lexeme ++ rest, here.cut, here.shows _, ?_,
      Point.complaint_plain (spelled token member) stuck unfinished⟩
    rw [← here.place]
    exact p.complaint_pointsAt member (here.shown (openLine_newline _))
  | @misnamed before after token cause p split ahead clean breaks leads =>
    have breaks := breaks_of_violation? breaks
    obtain ⟨passed, rest, here⟩ := placed token (by simp [split])
    have shows := here.showsSubject (breaks.ident leads) breaks.subject
    refine Diagnostic.ShowsSubject.points shows ?_
    refine breaks.plain leads (fun other member => spelled other ?_) fun other member => files other ?_
    · rw [split, ← List.singleton_append, ← List.append_assoc]
      exact List.mem_append_left _ member
    · rw [split]
      exact List.mem_append_left _ member
  | unlabelled whole leads clean first =>
    obtain ⟨jump, role, rfl, rfl⟩ := exists_jump first
    have kind := ident_of_inRole leads (by simp) jump role
    have member := (inRole_sublist .jump _).subset role
    obtain ⟨passed, rest, here⟩ := placed jump member
    have shows : Diagnostic.ShowsSubject file (Scanner.start file source).text
        ((Scanner.start file source).report (.undefinedLabel jump.text) jump.location) :=
      here.showsSubject kind rfl
    exact Diagnostic.ShowsSubject.points shows ((spelled jump member).oneLine_text (by simp [kind]))

/-- **Diagnostics point at the offending text.** A diagnostic of a compilation names the file and a place
in it, shows the line of the source that the place is in, and what it is about stands at the column. It is
shown on three lines, with one more for a hint. -/
theorem compile_error_points_at_source (options : Options) (source : String) {file : String}
    (named : '\n' ∉ file.toList) {fault : Diagnostic}
    (failed : compile options file source = .error fault) :
    ∃ place line, fault.location = some place ∧ fault.sourceLine = some line ∧ place.file = file ∧
      (1 ≤ place.line ∧
        (Text.lines (source.toList ++ ['\n']))[(place.line - 1).toNat]? = some line.toList) ∧
      (1 ≤ place.column ∧ place.column ≤ line.length + 1) ∧
      fault.cause.PointsAt (Scanner.start file source).drain.tokens place line.toList ∧
      (Text.lines fault.render.toList).map String.ofList =
        s!"{file}:{place.line}:{place.column}: error: {fault.cause.message}" :: ("    " ++ line) ::
          (String.ofList (List.replicate (place.column + 3).toNat ' ') ++ "^") ::
          fault.cause.hint.toList.map fun text => s!"hint: {text}" := by
  obtain ⟨passed, rest, cut, shown, points, plain⟩ := (refused_of_compile failed).points named
  have line : (placeAfter file passed).line = 1 + passed.count '\n' := rfl
  have column : (placeAfter file passed).column = 1 + (openLine passed).length := rfl
  refine ⟨placeAfter file passed, String.ofList (lineAt passed rest), shown.location, shown.sourceLine,
    rfl, ⟨?_, ?_⟩, ⟨?_, ?_⟩, ?_, ?_⟩
  · omega
  · have index : ((placeAfter file passed).line - 1).toNat = passed.count '\n' := by omega
    rw [index, cut, lines_passed, String.toList_ofList]
  · omega
  · rw [column, String.length_ofList, lineAt, List.length_append]
    omega
  · rw [String.toList_ofList]
    exact points
  · have whole : OneLine (String.ofList (lineAt passed rest)) :=
      (oneLine_ofList _).2 (newline_not_mem_lineAt passed rest)
    have rendered := Diagnostic.lines_render shown.location shown.sourceLine (by omega) named whole plain
    exact rendered

/-- A misspelt variable in the second line. -/
theorem compile_error_points_at_variable :
    let source := "LET total = 1\n  PRINT 2 * totl # sum"
    ∃ fault, compile {} "sum.bas" source = .error fault ∧
      fault.cause = .undeclaredVariable "totl" ["total"] ∧
      fault.cause.PointsAt (Scanner.start "sum.bas" source).drain.tokens ⟨"sum.bas", 2, 13⟩
        "  PRINT 2 * totl # sum".toList ∧
      (Text.lines fault.render.toList).map String.ofList =
        ["sum.bas:2:13: error: variable 'totl' referenced before assignment",
          "      PRINT 2 * totl # sum",
          "                ^",
          "hint: did you mean 'total'?"] := by
  intro source
  have failed : compile {} "sum.bas" source = .error
      ⟨.undeclaredVariable "totl" ["total"], some ⟨"sum.bas", 2, 13⟩, some "  PRINT 2 * totl # sum"⟩ := by
    decide +kernel
  obtain ⟨place, line, located, shown, -, -, -, points, rendered⟩ :=
    compile_error_points_at_source {} source (by decide) failed
  cases located
  cases shown
  exact ⟨_, failed, rfl, points, rendered.trans (by decide +kernel)⟩

end LineBasic
