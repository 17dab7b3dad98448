import LineBasic.Proofs.Concat.Scan
import LineBasic.Proofs.Syntax.Lines
import LineBasic.Proofs.Syntax.Places

/-!
# Trees of one program after another

A tree does not depend on the places of its tokens but for the numbers of its lines (`Code.ReadsProgram.down`), and
blank lines behind a statement belong to its end (`Code.Reads.absorb`). So the tokens of one program, without
their end, and those of another are the tokens of the statements of both (`Code.ReadsProgram.join`).
-/

namespace LineBasic.Syntax

set_option autoImplicit false

variable {lines : Nat} {tokens : List Token}

/-! ## Lines further down -/

/-- Statements that begin so many lines further down. -/
def Code.down (lines : Nat) (code : Code) : Code := code.relined (· + lines)

theorem Code.bare_relined (renumber : Int → Int) (code : Code) : (code.relined renumber).bare = code.bare := by
  induction code with
  | done => rfl
  | simple line statement next ih => simp only [relined, bare, ih]
  | block line kind condition body next ihBody ihNext => simp only [relined, bare, ihBody, ihNext]

theorem relocates_down (lines : Nat) : Relocates (Token.down lines) (· + lines) :=
  ⟨fun _ => rfl, fun _ => rfl, fun _ => rfl⟩

theorem Code.ReadsProgram.down {code : Code} (lines : Nat) (reads : code.ReadsProgram tokens) :
    (code.down lines).ReadsProgram (tokens.map (Token.down lines)) :=
  reads.relocated (relocates_down lines)

/-! ## Blank lines at the seam -/

theorem LineEnd.append {newlines blank : List Token} (ends : LineEnd newlines)
    (blanks : ∀ token ∈ blank, token.kind = .newline) : LineEnd (newlines ++ blank) :=
  ⟨by simp [ends.1], List.forall_mem_append.2 ⟨ends.2, blanks⟩⟩

theorem Code.Reads.eq_done {code : Code} (reads : code.Reads tokens) (none : tokens = []) :
    code = .done := by
  cases reads with
  | done => rfl
  | simple => simp at none
  | block => simp at none

/-- Blank lines behind statements belong to the end of the last one. -/
theorem Code.Reads.absorb {code : Code} {blank : List Token} (reads : code.Reads tokens)
    (some : tokens ≠ []) (blanks : ∀ token ∈ blank, token.kind = .newline) :
    code.Reads (tokens ++ blank) := by
  induction reads with
  | done => exact absurd rfl some
  | @simple keyword tokens newlines later statement next first ends more ih =>
    rw [List.append_assoc]
    by_cases last : later = []
    · have whole := Code.Reads.simple first (ends.append blanks) more
      rw [last] at whole ⊢
      simpa using whole
    · exact .simple first ends (ih last)
  | @block keyword closer head inner newlines later kind condition body next begins opens holds closes ends
      more _ ih =>
    rw [List.append_assoc]
    by_cases last : later = []
    · have whole := Code.Reads.block begins opens holds closes (ends.append blanks) more
      rw [last] at whole ⊢
      simpa using whole
    · exact .block begins opens holds closes ends (ih last)

/-- One program after another, whose end takes the place of both. -/
theorem Code.ReadsProgram.join {code more : Code} {front : List Token} {last : Token}
    (first : code.ReadsProgram (front ++ [last])) (second : more.ReadsProgram tokens) :
    (code.append more).ReadsProgram (front ++ tokens) := by
  generalize whole : front ++ [last] = all at first
  obtain ⟨blanks, reads, -⟩ := first
  rename_i blank inner end'
  obtain ⟨rfl, -⟩ := List.append_inj' whole rfl
  obtain ⟨blanks', reads', ends⟩ := second
  rename_i blank' inner' last'
  by_cases none : inner = []
  · subst none
    obtain rfl := reads.eq_done rfl
    have joined := Code.ReadsProgram.mk (List.forall_mem_append.2 ⟨blanks, blanks'⟩) reads' ends
    simpa [append] using joined
  · have joined := Code.ReadsProgram.mk blanks ((reads.absorb none blanks').append reads') ends
    simpa using joined

/-! ## What the statements of both say -/

theorem Code.targets_append (code more : Code) :
    (code.append more).targets = code.targets ++ more.targets := by
  induction code with
  | done => rfl
  | simple line statement next ih => cases statement <;> simp [append, targets, ih]
  | block line kind condition body next _ ih => simp [append, targets, ih]

theorem Code.targets_down (lines : Nat) (code : Code) : (code.down lines).targets = code.targets := by
  rw [← targets_bare, down, bare_relined, targets_bare]

theorem Code.starts_relined (renumber : Int → Int) (code : Code) :
    (code.relined renumber).starts = code.starts.map renumber := by
  induction code with
  | done => rfl
  | simple line statement next ih => simp [relined, starts, ih]
  | block line kind condition body next ihBody ihNext => simp [relined, starts, ihBody, ihNext]

/-- Without comments the numbers of the lines leave no trace. -/
theorem Code.text_down {options : Options} (plain : options.lineComments = false) (lines : Nat)
    (code : Code) : (code.down lines).text options = code.text options := by
  rw [text_eq_lines plain, text_eq_lines plain, ← lines_bare, down, bare_relined, lines_bare]

end LineBasic.Syntax
