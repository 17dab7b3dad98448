import LineBasic.Command.Run

/-!
# The command on a real disk

The outer layer: the disk of the machine as a `MonadDisk`, the environment and the two output streams.
Everything else is `Command.runCommand`.
-/

namespace LineBasic.Main

set_option autoImplicit false

/-- The failure that an error of the operating system stands for. -/
def failureOf (path : String) : IO.Error → Failure
  | .noFileOrDirectory .. => Trouble.missing.failure path
  | .inappropriateType _ code _ =>
      if code = 20 then Trouble.notDirectory.failure path else Trouble.isDirectory.failure path
  | .invalidArgument _ code details =>
      if code = 36 then Trouble.nameTooLong.failure path else .system details
  | .permissionDenied .. => .denied s!"[Errno 13] Permission denied: {Text.quoted path}"
  | error => .system error.toString

/-- Does something with a path. A path with a null character never reaches the system. -/
def attempt {α : Type} (path : String) (action : IO α) : IO (Except Failure α) := do
  if path.contains '\x00' then return .error (Trouble.nullInName.failure path)
  try return .ok (← action)
  catch error => return .error (failureOf path error)

def find (text : String) : IO (Except Failure EntryKind) :=
  attempt text do
    let resolved ← IO.FS.realPath text
    return if ← resolved.isDir then .directory else .file

def read (path : Path) : IO (Except Failure (List UInt8)) :=
  attempt path.text do return (← IO.FS.readBinFile path.text).data.toList

def write (path : Path) (bytes : List UInt8) : IO (Except Failure Unit) :=
  attempt path.text (IO.FS.writeBinFile path.text ⟨bytes.toArray⟩)

instance : MonadDisk IO := ⟨find, read, write⟩

/-- The variables of the environment that the command looks at. -/
def environment : IO (String → Option String) := do
  let precision ← IO.getEnv Options.precisionVariable
  let lineComments ← IO.getEnv Options.lineCommentsVariable
  return fun name =>
    if name = Options.precisionVariable then precision
    else if name = Options.lineCommentsVariable then lineComments
    else none

end LineBasic.Main

def main (args : List String) : IO UInt32 := do
  let report ← LineBasic.Command.runCommand (← LineBasic.Main.environment) args
  (← IO.getStdout).putStr report.out
  (← IO.getStderr).putStr report.err
  return report.exitCode.status.toUInt32
