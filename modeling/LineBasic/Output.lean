import LineBasic.Text.Utf8

/-!
# The two sections of a C program

Declarations are found in the middle of a program but stand at its head in C. So the output grows in
two sections: the header, which takes whole lines, and the body. The program is the header followed
by the body. A section counts the pieces that were added to it.
-/

namespace LineBasic

set_option autoImplicit false

structure OutputSection where
  text : String
  pieces : Nat
  deriving DecidableEq

namespace OutputSection

def empty : OutputSection := ⟨"", 0⟩

def add (part : OutputSection) (text : String) : OutputSection := ⟨part.text ++ text, part.pieces + 1⟩

end OutputSection

structure Output where
  header : OutputSection
  body : OutputSection
  deriving DecidableEq

namespace Output

def empty : Output := ⟨.empty, .empty⟩

def addHeaderLine (out : Output) (text : String) : Output :=
  { out with header := out.header.add (text ++ "\n") }

/-- Adds to the body without ending the line. -/
def addBody (out : Output) (text : String) : Output :=
  { out with body := out.body.add text }

def addBodyLine (out : Output) (text : String) : Output :=
  { out with body := out.body.add (text ++ "\n") }

def text (out : Output) : String := out.header.text ++ out.body.text

/-- The program as it is written to a file. -/
def bytes (out : Output) : List UInt8 := Text.Utf8.encode out.text

end Output

end LineBasic
