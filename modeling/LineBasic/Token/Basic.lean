import LineBasic.Source.Location
import LineBasic.Text.Quoted
import LineBasic.Token.Kind

/-!
# Tokens

A token is a kind, the text it was written with (a string without its quotes) and the place of its
first character.
-/

namespace LineBasic

set_option autoImplicit false

structure Token where
  kind : Kind
  text : String
  location : Location
  deriving DecidableEq

namespace Token

/-- A token with kind, text and position, the text in quotes. -/
def display (token : Token) : String :=
  s!"Token({token.kind.name}, {Text.quoted token.text}, {token.location.line}:{token.location.column})"

/-- A token as it is named in a message. A line end and the end of the text have no text to show. -/
def describe (token : Token) : String :=
  match token.kind with
  | .newline | .eof => token.kind.name
  | kind => s!"{kind.name} '{token.text}'"

/-- A token as a line of a listing: position, kind and quoted text, with tabs between. -/
def listing (token : Token) : String :=
  s!"{token.location.line}:{token.location.column}\t{token.kind.name}\t{Text.quoted token.text}"

end Token

end LineBasic
