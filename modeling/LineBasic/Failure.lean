import LineBasic.Diagnostic
import LineBasic.Text.ControlSequence
import LineBasic.Text.Utf8

/-!
# Failures

Everything that can end a run of the compiler: a diagnostic, a wrong argument, a file that cannot be
used, or a fault of the program itself. A failure says what happened in `message`; `exitCode` tells
whose fault it was, and `render` is what the user reads.
-/

namespace LineBasic

set_option autoImplicit false

inductive ExitCode where
  | success
  | buildError
  | invalidArguments
  | internalError
  deriving DecidableEq

def ExitCode.status : ExitCode → Nat
  | .success => 0
  | .buildError => 1
  | .invalidArguments => 2
  | .internalError => 3

inductive Failure where
  /-- The source was refused. -/
  | diagnosed (diagnostic : Diagnostic)
  /-- The build failed without a place in the source. -/
  | build (text : String)
  | argument (text : String)
  /-- A file that is not there. -/
  | missing (text : String)
  /-- A file that may not be used. -/
  | denied (text : String)
  /-- A directory where a file should be. -/
  | isDirectory (text : String)
  /-- A file where a directory should be. -/
  | notDirectory (text : String)
  /-- Another refusal of the operating system. -/
  | system (text : String)
  /-- A source file that is not text. -/
  | undecodable (fault : Text.Utf8.Fault)
  | badValue (text : String)
  | missingKey (key : String)
  | runtime (text : String)
  deriving DecidableEq

namespace Failure

def message : Failure → String
  | .diagnosed diagnostic => diagnostic.render
  | .undecodable fault => fault.message
  | .missingKey key => Text.quoted key
  | .build text | .argument text | .missing text | .denied text | .isDirectory text
  | .notDirectory text | .system text | .badValue text | .runtime text => text

def exitCode : Failure → ExitCode
  | .diagnosed _ | .build _ => .buildError
  | .argument _ | .missing _ | .denied _ | .isDirectory _ | .undecodable _ => .invalidArguments
  | .notDirectory _ | .system _ | .badValue _ | .missingKey _ | .runtime _ => .internalError

/-- A failure as it is shown. `work` names what was being done when the build failed. -/
def render (work : Option String) : Failure → String
  | .diagnosed diagnostic => diagnostic.render
  | .undecodable fault => "Error: source file is not valid UTF-8: " ++ fault.message
  | .build text =>
      match work with
      | none | some "" => "Error: " ++ text
      | some work => work ++ " error: " ++ text
  | failure =>
      match failure.exitCode with
      | .internalError => "Internal error: " ++ failure.message
      | _ => "Error: " ++ failure.message

/-- Stands for the trace of an internal error. -/
def traceMark : String := "<traceback>"

/-- What a failure leaves on the error stream. Only an internal error of a verbose run has a trace. -/
def errorText (work : Option String) (verbose : Bool) (failure : Failure) : String :=
  Text.removeSequences (failure.render work ++ "\n")
    ++ if verbose && failure.exitCode = .internalError then traceMark ++ "\n" else ""

end Failure

end LineBasic
