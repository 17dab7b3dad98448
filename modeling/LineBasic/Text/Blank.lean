import LineBasic.Text.CodeRanges

/-!
# Blanks around a text

Two classes of blanks are in use. Around a number stand the white space characters of Unicode.
Around a word also the four information separators count.
-/

namespace LineBasic.Text

set_option autoImplicit false

/-- The white space characters. -/
def whiteSpace : CodeRanges :=
  [(0x9, 0xd), (0x20, 0x20), (0x85, 0x85), (0xa0, 0xa0), (0x1680, 0x1680), (0x2000, 0x200a),
    (0x2028, 0x2029), (0x202f, 0x202f), (0x205f, 0x205f), (0x3000, 0x3000)]

/-- The separators between files, groups, records and units. -/
def informationSeparators : CodeRanges := [(0x1c, 0x1f)]

def isWhiteSpace (c : Char) : Bool := whiteSpace.has c

def isWordBlank (c : Char) : Bool := whiteSpace.has c || informationSeparators.has c

/-- A text without the characters of a class at its two ends. -/
def trim (blank : Char → Bool) (text : List Char) : List Char :=
  ((text.dropWhile blank).reverse.dropWhile blank).reverse

end LineBasic.Text
