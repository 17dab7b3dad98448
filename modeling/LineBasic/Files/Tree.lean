import LineBasic.Files.Disk

/-!
# A tree of files as a value

A tree holds files and directories by their positions, a position being the list of the names from the
root down, and knows the working directory. The directories above the working directory are always
there. A path is followed part by part: every part before the last has to be a directory, also one
that says nothing or goes up. A part has 255 bytes at most and a whole path 4095; a part is looked at
only when the path has led to it.

The tree answers as a disk in the state monad. Writing changes the entry at one position and no other.
-/

namespace LineBasic

set_option autoImplicit false

inductive Entry where
  | directory
  | file (bytes : List UInt8)
  deriving DecidableEq

def Entry.kind : Entry → EntryKind
  | .directory => .directory
  | .file _ => .file

/-- The names from the root down. -/
abbrev Position := List String

structure Tree where
  /-- The working directory. -/
  here : Position
  entries : List (Position × Entry)
  deriving DecidableEq

namespace Tree

def entry? (tree : Tree) (position : Position) : Option Entry :=
  if position.isPrefixOf tree.here then some .directory else tree.entries.lookup position

/-- Puts an entry at a position, in place of what was there. -/
def put (tree : Tree) (position : Position) (entry : Entry) : Tree :=
  { tree with
    entries := (position, entry) :: tree.entries.filter fun old => !(old.1 == position) }

/-- The most bytes of one part of a path. -/
def maxPieceBytes : Nat := 255

/-- The most bytes of a path. -/
def maxPathBytes : Nat := 4095

/-- Follows the parts of a path from a position on. -/
def follow (tree : Tree) : Position → List String → Except Trouble Position
  | position, [] => .ok position
  | position, piece :: pieces =>
      match tree.entry? position with
      | none => .error .missing
      | some (.file _) => .error .notDirectory
      | some .directory =>
          if Path.isIdle piece then follow tree position pieces
          else if piece = ".." then follow tree position.dropLast pieces
          else if maxPieceBytes < piece.utf8ByteSize then .error .nameTooLong
          else follow tree (position ++ [piece]) pieces

/-- The position that a written path leads to. The empty path leads nowhere. -/
def locate (tree : Tree) (text : String) : Except Trouble Position :=
  if text = "" then .error .missing
  else if text.contains '\x00' then .error .nullInName
  else if maxPathBytes < text.utf8ByteSize then .error .nameTooLong
  else follow tree (if Path.rootOf text.toList = "" then tree.here else []) (Path.pieces text)

/-- What stands at a written path. -/
def find (tree : Tree) (text : String) : Except Trouble Entry :=
  match tree.locate text with
  | .error trouble => .error trouble
  | .ok position =>
      match tree.entry? position with
      | none => .error .missing
      | some entry => .ok entry

/-- The bytes of a file. -/
def read (tree : Tree) (path : Path) : Except Trouble (List UInt8) :=
  match tree.find path.text with
  | .error trouble => .error trouble
  | .ok .directory => .error .isDirectory
  | .ok (.file bytes) => .ok bytes

/-- The tree with a file written. -/
def write (tree : Tree) (path : Path) (bytes : List UInt8) : Except Trouble Tree :=
  match tree.locate path.text with
  | .error trouble => .error trouble
  | .ok position =>
      match tree.entry? position with
      | some .directory => .error .isDirectory
      | _ => .ok (tree.put position (.file bytes))

end Tree

instance : MonadDisk (StateM Tree) where
  find text := do
    let tree ← get
    return ((tree.find text).map Entry.kind).mapError (·.failure text)
  read path := do
    let tree ← get
    return (tree.read path).mapError (·.failure path.text)
  write path bytes := do
    let tree ← get
    match tree.write path bytes with
    | .ok changed =>
        set changed
        return .ok ()
    | .error trouble => return .error (trouble.failure path.text)

end LineBasic
