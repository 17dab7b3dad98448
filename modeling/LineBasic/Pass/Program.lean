import LineBasic.Pass.Statement

/-!
# Programs

A program is a list of statements, with blank lines before the first. Its C program is one `main`
function: a header that declares the variables and a body with the statements. Whether every jump has
its label is known only at the end.
-/

namespace LineBasic.Pass

set_option autoImplicit false

/-- The first jump to a label that is not defined. -/
def State.undefinedJump? (s : State) : Option (String × Location) :=
  s.jumps.entries.find? fun jump => !s.labels.has jump.1

/-- Refuses a program that jumps to a label it does not define. -/
def checkLabels : Pass Unit := do
  let s ← get
  match s.undefinedJump? with
  | some (name, place) => throw (s.report (.undefinedLabel name) place)
  | none => return

/-- The next statement, unless the program is over. -/
def statementRound (_ : Unit) : Pass (Option Unit) := do
  let s ← get
  if s.current.kind = .eof then return none
  else
    statement
    return some ()

theorem shrinking_statementRound : Shrinking statementRound := by
  intro _ s
  refine handsOnFrom_get_bind ?_
  split
  · exact handsOnFrom_none s
  · exact handsOnFrom_of_progress
      (progressFrom_bind (progressFrom_statement s) fun _ => steady_pure _)

/-- Reads the whole program and writes the whole C program. -/
def program : Pass Unit := do
  writeHeaderLine "#include <stdio.h>"
  writeHeaderLine "int main(void)\x7b"
  skipNewlines
  iterate statementRound shrinking_statementRound ()
  writeLine "return 0;"
  writeLine "\x7d"
  checkLabels

end LineBasic.Pass
