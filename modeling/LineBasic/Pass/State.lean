import LineBasic.Names.Table
import LineBasic.Options
import LineBasic.Output
import LineBasic.Token.Scanner

/-!
# The state of a pass

A program is read once, from left to right, and its C program is written on the way. The pass sees two
tokens at a time, the current one and the one ahead; it keeps the output so far, the variables that
were set, the labels that were defined and the labels that were jumped to.

A step of the pass ends in a value or in a diagnostic, and in a state either way, so the output and
the tables as they were when a fault was met can be looked at.

`State.remaining` measures what is left to read: the characters behind the two tokens and the tokens
themselves, the end not counted. Loops of the pass end because each of their rounds lowers it.
-/

namespace LineBasic

set_option autoImplicit false

namespace Pass

structure State where
  options : Options
  scanner : Scanner
  current : Token
  ahead : Token
  output : Output
  /-- Variables with the place each was first set at. -/
  vars : NameTable
  /-- Labels with the place each was defined at. -/
  labels : NameTable
  /-- Labels jumped to, with the place of the first jump. -/
  jumps : NameTable
  statements : Nat
  deriving DecidableEq

end Pass

/-- A step of the pass. -/
abbrev Pass := EStateM Diagnostic Pass.State

namespace Pass

namespace State

/-- What is left to read. -/
def remaining (s : State) : Nat :=
  s.scanner.cursor.rest.length + Scanner.weight s.ahead + Scanner.weight s.current

/-- The diagnostic for a cause at a place, with the line of the source that holds the place. -/
def report (s : State) (cause : Cause) (place : Location) : Diagnostic :=
  { cause, location := some place, sourceLine := s.scanner.line? place.line }

/-- The diagnostic for a current token that should have been another one. -/
def unexpected (s : State) (expected : String) : Diagnostic :=
  s.report (.unexpectedToken expected s.current.describe none) s.current.location

end State

/-- The state at the start of a source, once its first two tokens were read. -/
def start (options : Options) (file source : String) : Except Diagnostic State :=
  match Scanner.next (Scanner.start file source) with
  | .error fault _ => .error fault
  | .ok current sc =>
      match Scanner.next sc with
      | .error fault _ => .error fault
      | .ok ahead sc =>
          .ok
            { options, scanner := sc, current, ahead, output := .empty, vars := .empty
              labels := .empty, jumps := .empty, statements := 0 }

/-! ## Primitive steps -/

/-- Moves on by one token. The token ahead becomes the current one also when no further token can be
read. -/
def advance : Pass Unit := fun s =>
  match Scanner.next s.scanner with
  | .ok token sc => .ok () { s with scanner := sc, current := s.ahead, ahead := token }
  | .error fault sc => .error fault { s with scanner := sc, current := s.ahead }

/-- Moves on over a token of the given kind and returns it; any other token is refused. -/
def expect (kind : Kind) : Pass Token := do
  let s ← get
  if s.current.kind = kind then
    advance
    return s.current
  else
    throw (s.unexpected kind.name)

def writeHeaderLine (text : String) : Pass Unit :=
  modify fun s => { s with output := s.output.addHeaderLine text }

def write (text : String) : Pass Unit :=
  modify fun s => { s with output := s.output.addBody text }

def writeLine (text : String) : Pass Unit :=
  modify fun s => { s with output := s.output.addBodyLine text }

end Pass

end LineBasic
