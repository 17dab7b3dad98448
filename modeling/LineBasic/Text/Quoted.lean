import LineBasic.Text.Hex
import LineBasic.Text.Printable

/-!
# Quoted text

A text in quotes, with escapes, so that it stands on one line and can be read back. The quote is an
apostrophe, unless the text holds an apostrophe and no double quote. The backslash and the chosen
quote are escaped by a backslash; newline, carriage return and tab have letters; every other
character that cannot be shown is written by its code point in two, four or eight hexadecimal places.
-/

namespace LineBasic.Text

set_option autoImplicit false

namespace Quoted

def apostrophe : Char := '\x27'

def doubleQuote : Char := '\x22'

/-- The quote that a text is put in. -/
def mark (text : List Char) : Char :=
  if text.contains apostrophe && !text.contains doubleQuote then doubleQuote else apostrophe

/-- A character by its code point. -/
def byCode (c : Char) : List Char :=
  if c.toNat < 0x100 then '\\' :: 'x' :: hexFixed 2 c.toNat
  else if c.toNat < 0x10000 then '\\' :: 'u' :: hexFixed 4 c.toNat
  else '\\' :: 'U' :: hexFixed 8 c.toNat

/-- A character of a text inside the quote `mark`. -/
def encodeChar (mark c : Char) : List Char :=
  if c = mark || c = '\\' then ['\\', c]
  else if c = '\n' then ['\\', 'n']
  else if c = '\r' then ['\\', 'r']
  else if c = '\t' then ['\\', 't']
  else if isPrintable c then [c]
  else byCode c

def encode (text : List Char) : List Char :=
  mark text :: (text.flatMap (encodeChar (mark text)) ++ [mark text])

end Quoted

/-- A text in quotes. -/
def quoted (text : String) : String := String.ofList (Quoted.encode text.toList)

end LineBasic.Text
