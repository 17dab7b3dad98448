import LineBasic.Text.Lines

/-!
# Paths

A path in normal form: a root and the parts after it, without empty parts and without parts that stay
where they are. Parts that go up are kept. A path without root and parts is the current directory.
-/

namespace LineBasic

set_option autoImplicit false

structure Path where
  root : String
  parts : List String
  deriving DecidableEq

namespace Path

/-- The root of a written path. Two slashes, and no more, are a root of their own. -/
def rootOf : List Char → String
  | '/' :: '/' :: '/' :: _ => "/"
  | '/' :: '/' :: _ => "//"
  | '/' :: _ => "/"
  | _ => ""

/-- The parts of a path as it is written, with those that say nothing. -/
def pieces (text : String) : List String := (Text.split '/' text.toList).map String.ofList

/-- A part that stays where it is. -/
def isIdle (piece : String) : Bool := piece == "" || piece == "."

def ofString (text : String) : Path where
  root := rootOf text.toList
  parts := (pieces text).filter (!isIdle ·)

def text (path : Path) : String :=
  if path.root == "" && path.parts.isEmpty then "." else path.root ++ "/".intercalate path.parts

/-! ## Suffixes -/

/-- A name without its suffix. The suffix begins at the last dot, which is neither the first nor the
last character of the name. -/
def stem (name : List Char) : List Char :=
  let suffix := (name.reverse.takeWhile (· ≠ '.')).length
  let dot := name.length - (suffix + 1)
  if 0 < suffix ∧ 0 < dot then name.take dot else name

/-- The path with another suffix, or with a suffix if it has none. -/
def withSuffix (path : Path) (suffix : String) : Path :=
  match path.parts.reverse with
  | [] => path
  | name :: before =>
      { path with parts := ((String.ofList (stem name.toList) ++ suffix) :: before).reverse }

end Path

end LineBasic
