/-!
# Names that the C program cannot use

A variable becomes a local variable of the C program and a label becomes a label of it, both under
their own names. So neither may be a keyword of C, and a variable may not be a name that the program
takes from the standard input and output library. Names here are made of letters, so only the
keywords made of letters are listed.
-/

namespace LineBasic.Reserved

set_option autoImplicit false

def keywords : List String :=
  ["auto", "break", "case", "char", "const", "continue", "default", "do", "double", "else", "enum",
    "extern", "float", "for", "goto", "if", "inline", "int", "long", "register", "restrict",
    "return", "short", "signed", "sizeof", "static", "struct", "switch", "typedef", "union",
    "unsigned", "void", "volatile", "while"]

/-- The functions that the program calls, and the macros of the library. -/
def libraryNames : List String :=
  ["printf", "scanf", "EOF", "NULL", "BUFSIZ", "stdin", "stdout", "stderr"]

def forLabels : List String := keywords

def forVariables : List String := keywords ++ libraryNames

end LineBasic.Reserved
