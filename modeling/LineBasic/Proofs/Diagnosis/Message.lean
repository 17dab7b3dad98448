import LineBasic.Diagnostic
import LineBasic.Proofs.Source.Lines
import LineBasic.Proofs.Text.Quoted

/-!
# The lines of a diagnostic

A diagnostic is shown on three lines, or on four if its cause has a hint: what is wrong at which place,
the line of the source, a caret under the column, the hint. That it has no more lines rests on its texts:
none of them may hold a newline (`Cause.Plain`). Characters that are shown by their code, and texts that
are shown in quotes, never bring one in.
-/

namespace LineBasic

set_option autoImplicit false

/-- A text without a newline. -/
def OneLine (text : String) : Prop := '\n' ∉ text.toList

instance (text : String) : Decidable (OneLine text) := inferInstanceAs (Decidable (¬ _))

@[simp] theorem oneLine_append (text more : String) :
    OneLine (text ++ more) ↔ OneLine text ∧ OneLine more := by
  simp [OneLine]

@[simp] theorem oneLine_ofList (text : List Char) : OneLine (String.ofList text) ↔ '\n' ∉ text := by
  simp [OneLine]

theorem OneLine.append {text more : String} (first : OneLine text) (second : OneLine more) :
    OneLine (text ++ more) :=
  (oneLine_append text more).2 ⟨first, second⟩

/-- A text that is put between two others. -/
theorem OneLine.framed {inner : String} (inside : OneLine inner) {before after : String}
    (first : OneLine before) (last : OneLine after) : OneLine (before ++ inner ++ after) :=
  (first.append inside).append last

theorem oneLine_char (c : Char) : OneLine (toString c) ↔ c ≠ '\n' := by
  rw [show toString c = String.singleton c from rfl]
  simp [OneLine, eq_comm]

theorem oneLine_int (number : Int) : OneLine (toString number) := Text.newline_not_mem_int number

theorem oneLine_place {place : Location} (file : OneLine place.file) : OneLine place.text := by
  have first : OneLine (place.file ++ ":") := file.append (by decide)
  exact ((oneLine_int place.line).framed first (by decide)).append (oneLine_int place.column)

theorem oneLine_intercalate {separator : String} {parts : List String} (between : OneLine separator)
    (inside : ∀ part ∈ parts, OneLine part) : OneLine (separator.intercalate parts) := by
  induction parts with
  | nil => exact (by decide : OneLine "")
  | cons part parts ih =>
    obtain ⟨first, later⟩ := List.forall_mem_cons.1 inside
    by_cases last : parts = []
    · rw [last, String.intercalate_singleton]
      exact first
    · rw [String.intercalate_cons_of_ne_nil last]
      simp [first, between, ih later]

/-- Lines that were joined by newlines are found again. -/
theorem lines_join {first : String} {more : List String}
    (inside : ∀ part ∈ first :: more, OneLine part) :
    (Text.lines ("\n".intercalate (first :: more)).toList).map String.ofList = first :: more := by
  have plain : ∀ part ∈ first.toList :: more.map String.toList, '\n' ∉ part := by
    simpa [OneLine] using inside
  have cut := Text.lines_intercalate plain
  rw [String.toList_intercalate, List.map_cons]
  rw [show "\n".toList = ['\n'] from rfl, cut]
  simp [Function.comp_def]

/-! ## Characters by their code, and quoted texts -/

namespace Text

theorem newline_not_mem_hexUpper (n : Nat) : '\n' ∉ hexUpper n := by
  have signs : ∀ value < 16, hexSign 'A' value ≠ '\n' := by decide
  have places (width n : Nat) : '\n' ∉ hexUpper.upper width n := by
    induction width generalizing n with
    | zero => simp [hexUpper.upper]
    | succ width ih =>
      have last := signs (n % 16) (Nat.mod_lt _ (by omega))
      simp [hexUpper.upper, ih, last.symm]
  exact places _ n

theorem oneLine_quoted (text : String) : OneLine (quoted text) := by
  rw [quoted, oneLine_ofList]
  exact Quoted.control_not_mem_encode (by decide) text.toList

end Text

/-! ## Messages and hints -/

/-- The texts that a cause holds have no newline in them, and its advice is not empty. -/
def Cause.Plain : Cause → Prop
  | .invalidCharacter char advice => char ≠ '\n' ∧ ∀ text ∈ advice, OneLine text ∧ text ≠ ""
  | .unterminatedString | .illegalStringCharacter _ => True
  | .malformedNumber text => OneLine text
  | .unexpectedToken expected found advice =>
      OneLine expected ∧ OneLine found ∧ ∀ text ∈ advice, OneLine text ∧ text ≠ ""
  | .invalidStatement text kind => OneLine text ∧ OneLine kind
  | .undeclaredVariable name similar => OneLine name ∧ ∀ other ∈ similar, OneLine other
  | .duplicateLabel name first => OneLine name ∧ ∀ place ∈ first, OneLine place.file
  | .undefinedLabel name | .reservedName name => OneLine name
  | .other _ text advice => OneLine text ∧ ∀ text ∈ advice, OneLine text ∧ text ≠ ""

namespace Cause.Plain

variable {cause : Cause}

theorem oneLine_message (plain : cause.Plain) : OneLine cause.message := by
  cases cause with
  | invalidCharacter char advice =>
    have shown : OneLine (toString char) := (oneLine_char char).2 plain.1
    have code : OneLine (String.ofList (Text.hexUpper char.toNat)) :=
      (oneLine_ofList _).2 (Text.newline_not_mem_hexUpper _)
    exact code.framed (shown.framed (by decide) (by decide)) (by decide)
  | unterminatedString => decide
  | illegalStringCharacter char => exact (Text.oneLine_quoted char).framed (by decide) (by decide)
  | malformedNumber text => exact OneLine.framed plain (by decide) (by decide)
  | unexpectedToken expected found advice =>
    exact (plain.1.framed (by decide) (by decide)).append plain.2.1
  | invalidStatement text kind =>
    exact plain.2.framed (plain.1.framed (by decide) (by decide)) (by decide)
  | undeclaredVariable name similar => exact plain.1.framed (by decide) (by decide)
  | duplicateLabel name first => exact plain.1.framed (by decide) (by decide)
  | undefinedLabel name => exact OneLine.framed plain (by decide) (by decide)
  | reservedName name => exact OneLine.framed plain (by decide) (by decide)
  | other phase text advice => exact plain.1

theorem oneLine_hint (plain : cause.Plain) : ∀ text ∈ cause.hint, OneLine text ∧ text ≠ "" := by
  cases cause with
  | invalidCharacter char advice => exact plain.2
  | unexpectedToken expected found advice => exact plain.2.2
  | other phase text advice => exact plain.2
  | undeclaredVariable name similar =>
    cases similar with
    | nil => nofun
    | cons first more =>
      rintro text ⟨⟩
      have names : ∀ part ∈ ((first :: more).take maxSuggestions).map inApostrophes, OneLine part := by
        intro part member
        obtain ⟨other, taken, rfl⟩ := List.mem_map.1 member
        exact (plain.2 other (List.mem_of_mem_take taken)).framed (by decide) (by decide)
      have listed := oneLine_intercalate (by decide : OneLine ", ") names
      exact ⟨listed.framed (by decide) (by decide), by simp⟩
  | duplicateLabel name first =>
    intro text found
    obtain ⟨place, member, rfl⟩ := Option.map_eq_some_iff.1 found
    have shown := oneLine_place (plain.2 place member)
    exact ⟨(plain.1.framed (by decide) (by decide)).append shown, by simp [toString]⟩
  | undefinedLabel name =>
    rintro text ⟨⟩
    exact ⟨OneLine.framed plain (by decide) (by decide), by simp [toString]⟩
  | _ =>
    rintro text ⟨⟩
    decide +kernel

end Cause.Plain

namespace Diagnostic

variable {d : Diagnostic} {place : Location} {line : String}

theorem excerpt_eq (located : d.location = some place) (shown : d.sourceLine = some line)
    (column : 1 ≤ place.column) :
    d.excerpt =
      ["    " ++ line, String.ofList (List.replicate (place.column + 3).toNat ' ') ++ "^"] := by
  have width : margin + (place.column - 1).toNat = (place.column + 3).toNat := by
    unfold margin
    omega
  rw [excerpt, located, shown]
  dsimp only
  rw [if_pos (by omega), spaces, spaces, width]
  rfl

theorem hintLine_eq (plain : d.cause.Plain) :
    d.hintLine = d.cause.hint.toList.map fun text => s!"hint: {text}" := by
  have hints := plain.oneLine_hint
  unfold hintLine
  split
  · rename_i missing
    simp [missing]
  · rename_i found
    exact absurd rfl (hints "" found).2
  · rename_i text _ found
    simp [found]

/-- A diagnostic whose texts have no newline is shown on three lines and its hint. -/
theorem lines_render (located : d.location = some place) (shown : d.sourceLine = some line)
    (column : 1 ≤ place.column) (file : OneLine place.file) (whole : OneLine line)
    (plain : d.cause.Plain) :
    (Text.lines d.render.toList).map String.ofList =
      s!"{place.file}:{place.line}:{place.column}: error: {d.cause.message}" :: ("    " ++ line) ::
        (String.ofList (List.replicate (place.column + 3).toNat ' ') ++ "^") ::
        d.cause.hint.toList.map fun text => s!"hint: {text}" := by
  have headline : d.headline =
      s!"{place.file}:{place.line}:{place.column}: error: {d.cause.message}" := by
    rw [Diagnostic.headline, located]
    rfl
  rw [render, headline, excerpt_eq located shown column, hintLine_eq plain]
  apply lines_join
  intro part member
  simp only [List.cons_append, List.nil_append, List.mem_cons, List.mem_map, Option.mem_toList] at member
  rcases member with rfl | rfl | rfl | ⟨text, found, rfl⟩
  · exact ((oneLine_place file).append (by decide)).append plain.oneLine_message
  · exact OneLine.append (by decide) whole
  · have blanks : OneLine (String.ofList (List.replicate (place.column + 3).toNat ' ')) := by simp
    exact blanks.append (by decide)
  · exact OneLine.append (by decide) (plain.oneLine_hint text found).1

end Diagnostic

end LineBasic
