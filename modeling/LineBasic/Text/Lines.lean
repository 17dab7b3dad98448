/-!
# Lines of a text

A text is cut at every newline, so it always has one line more than newlines. A file may end its
lines in other ways; `unifyLineEnds` turns each of them into a newline.
-/

namespace LineBasic.Text

set_option autoImplicit false

/-- The pieces of a text between the occurrences of a mark. -/
def split (mark : Char) : List Char → List (List Char)
  | [] => [[]]
  | c :: rest =>
      if c = mark then [] :: split mark rest
      else
        match split mark rest with
        | [] => [[c]]
        | first :: more => (c :: first) :: more

/-- The pieces of a text between its newlines. -/
def lines (text : List Char) : List (List Char) := split '\n' text

/-- The line of a number, counted from one; there is none outside the text. -/
def line? (text : List Char) (number : Int) : Option (List Char) :=
  if 1 ≤ number then (lines text)[(number - 1).toNat]? else none

/-- A carriage return, alone or before a newline, becomes a newline. -/
def unifyLineEnds : List Char → List Char
  | [] => []
  | '\r' :: '\n' :: rest => '\n' :: unifyLineEnds rest
  | '\r' :: rest => '\n' :: unifyLineEnds rest
  | c :: rest => c :: unifyLineEnds rest

end LineBasic.Text
