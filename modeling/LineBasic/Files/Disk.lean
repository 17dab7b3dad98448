import LineBasic.Failure
import LineBasic.Files.Path

/-!
# Disks

What the compiler asks of a file system: what stands at a path, the bytes of a file, and to write a
file. The command is written over any monad that answers these, so that it runs on a real disk and on
a tree of files that is a plain value.
-/

namespace LineBasic

set_option autoImplicit false

inductive EntryKind where
  | file
  | directory
  deriving DecidableEq

class MonadDisk (m : Type → Type) where
  /-- What stands at a path, taken as it is written. -/
  find : String → m (Except Failure EntryKind)
  read : Path → m (Except Failure (List UInt8))
  write : Path → List UInt8 → m (Except Failure Unit)

/-- Why a path cannot be opened. -/
inductive Trouble where
  | missing
  | notDirectory
  | isDirectory
  /-- The path, or a part of it, has too many bytes. -/
  | nameTooLong
  /-- The path holds the character that ends a path. -/
  | nullInName
  deriving DecidableEq

/-- The failure to open a path, in the words of the operating system. -/
def Trouble.failure (trouble : Trouble) (path : String) : Failure :=
  match trouble with
  | .missing => .missing s!"[Errno 2] No such file or directory: {Text.quoted path}"
  | .notDirectory => .notDirectory s!"[Errno 20] Not a directory: {Text.quoted path}"
  | .isDirectory => .isDirectory s!"[Errno 21] Is a directory: {Text.quoted path}"
  | .nameTooLong => .system s!"[Errno 36] File name too long: {Text.quoted path}"
  | .nullInName => .badValue "embedded null byte"

end LineBasic
