/-!
# A cursor through a source text

The cursor holds the text that is still to be read and counts what it has passed: characters, lines
and the columns of the current line. It also keeps the text from the start of its line, so that the
line can be shown in a message. Only a newline ends a line.
-/

namespace LineBasic

set_option autoImplicit false

structure Cursor where
  /-- The text from the cursor on. -/
  rest : List Char
  /-- The text from the start of the cursor's line on. -/
  lineRest : List Char
  /-- The number of characters before the cursor. -/
  pos : Nat
  line : Nat
  column : Nat
  deriving DecidableEq

namespace Cursor

/-- The cursor at the start of a text. -/
def start (text : List Char) : Cursor := ⟨text, text, 0, 1, 1⟩

def atEnd (c : Cursor) : Bool := c.rest.isEmpty

def current? (c : Cursor) : Option Char := c.rest.head?

/-- The character after the current one. -/
def following? (c : Cursor) : Option Char := c.rest.tail.head?

/-- Passes one character; at the end of the text nothing changes. -/
def advance (c : Cursor) : Cursor :=
  match c.rest with
  | [] => c
  | '\n' :: rest => ⟨rest, rest, c.pos + 1, c.line + 1, 1⟩
  | _ :: rest => ⟨rest, c.lineRest, c.pos + 1, c.line, c.column + 1⟩

/-- Passes `n` characters. -/
def skip : (n : Nat) → Cursor → Cursor
  | 0, c => c
  | n + 1, c => skip n c.advance

/-- Passes the characters of a class. -/
def skipWhile (p : Char → Bool) (c : Cursor) : Cursor :=
  c.skip (c.rest.takeWhile p).length

/-- The whole line that the cursor is in. -/
def lineText (c : Cursor) : List Char := c.lineRest.takeWhile (· ≠ '\n')

@[simp] theorem advance_rest (c : Cursor) : c.advance.rest = c.rest.tail := by
  unfold advance
  split <;> simp_all

@[simp] theorem skip_rest (n : Nat) (c : Cursor) : (c.skip n).rest = c.rest.drop n := by
  induction n generalizing c with
  | zero => rfl
  | succ n ih => simp [skip, ih]

theorem skip_rest_length_le (n : Nat) (c : Cursor) : (c.skip n).rest.length ≤ c.rest.length := by
  simp

theorem skipWhile_rest_length_le (p : Char → Bool) (c : Cursor) :
    (c.skipWhile p).rest.length ≤ c.rest.length :=
  skip_rest_length_le _ c

end Cursor

end LineBasic
