import LineBasic.Pass.Program

/-!
# Compiling a source

One pass over a source, from its first token to its end. `compile` gives the C program with its
figures, or the diagnostic of the first fault. `Run` keeps the last state also of a pass that failed,
from which the account of a verbose run is made.
-/

namespace LineBasic

set_option autoImplicit false

/-- A compiled source. -/
structure Compiled where
  file : String
  output : Output
  tokens : Nat
  statements : Nat
  /-- The variables in the order in which they were first set. -/
  vars : List String
  /-- The labels in the order in which they were defined. -/
  labels : List String
  deriving DecidableEq

def Compiled.ofState (file : String) (s : Pass.State) : Compiled where
  file
  output := s.output
  tokens := s.scanner.count
  statements := s.statements
  vars := s.vars.names
  labels := s.labels.names

/-- How a pass over a source ended. -/
inductive Run where
  /-- The first two tokens could not be read. -/
  | unstarted (fault : Diagnostic)
  | failed (fault : Diagnostic) (state : Pass.State)
  | finished (state : Pass.State)

def run (options : Options) (file source : String) : Run :=
  match Pass.start options file source with
  | .error fault => .unstarted fault
  | .ok s =>
      match Pass.program s with
      | .ok _ t => .finished t
      | .error fault t => .failed fault t

def Run.outcome (file : String) : Run → Except Diagnostic Compiled
  | .unstarted fault => .error fault
  | .failed fault _ => .error fault
  | .finished s => .ok (.ofState file s)

/-- The C program for a source. -/
def compile (options : Options) (file source : String) : Except Diagnostic Compiled :=
  (run options file source).outcome file

/-! ## The account of a run -/

namespace Run

def declared (s : Pass.State) : List String :=
  s.vars.names.map fun name => s!"Declared variable '{name}'"

def parsed (s : Pass.State) : String :=
  s!"Parsed {s.statements} statements, {s.vars.size} variables, {s.labels.size} labels"

def materialized (out : Output) : String :=
  s!"Materialized {out.header.pieces} header and {out.body.pieces} body fragments "
    ++ s!"({out.bytes.length} bytes)"

/-- What a run did, step by step. -/
def account (file source : String) (r : Run) : List String :=
  s!"Compiling {file} ({source.length} characters)"
    :: match r with
      | .unstarted _ => []
      | .failed _ s => declared s
      | .finished s =>
          declared s ++ [parsed s, materialized s.output,
            s!"Compiled {file}: {s.scanner.count} tokens, {s.statements} statements"]

end Run

end LineBasic
