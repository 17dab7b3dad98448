import LineBasic.Compile
import LineBasic.Files.Disk

/-!
# Compiling a file

A source file is text in strict UTF-8, whose lines may end in any usual way. Nothing is written unless
the whole source compiled.
-/

namespace LineBasic

set_option autoImplicit false

/-- The source text that the bytes of a file stand for. -/
def decodeSource (bytes : List UInt8) : Except Failure String :=
  match Text.Utf8.decode bytes with
  | .ok text => .ok (String.ofList (Text.unifyLineEnds text))
  | .error fault => .error (.undecodable fault)

variable {m : Type → Type} [Monad m] [MonadDisk m]

/-- The source text of a file. -/
def readSource (path : Path) : m (Except Failure String) := do
  match ← MonadDisk.read path with
  | .ok bytes => return decodeSource bytes
  | .error failure => return .error failure

/-- A failure to find a file that only says that nothing is there. -/
def saysAbsent : Failure → Bool
  | .missing _ | .notDirectory _ | .badValue _ => true
  | _ => false

/-- Compiles a file. Diagnostics name it as it was given. -/
def compileFile (options : Options) (given : String) : m (Except Failure Compiled) := do
  let path := Path.ofString given
  match ← MonadDisk.find path.text with
  | .error failure =>
      return .error
        (if saysAbsent failure then .missing s!"Source file not found: {given}" else failure)
  | .ok _ =>
      match ← readSource path with
      | .error failure => return .error failure
      | .ok source => return (compile options given source).mapError .diagnosed

/-- Compiles a file and writes the C program, if a file for it is named. -/
def compileFileTo (options : Options) (given : String) (target : Option String) :
    m (Except Failure Compiled) := do
  match ← compileFile options given with
  | .error failure => return .error failure
  | .ok compiled =>
      match target with
      | none | some "" => return .ok compiled
      | some target =>
          match ← MonadDisk.write (Path.ofString target) compiled.output.bytes with
          | .error failure => return .error failure
          | .ok _ => return .ok compiled

end LineBasic
