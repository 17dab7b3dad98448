import LineBasic.Proofs.Syntax.Tree

/-!
# The C program of a tree

Each form of the tree has its text in C. Operators and numbers stand as they were written; an operand
with a sign is put in parentheses. The header declares every variable once, in the order in which the
variables are first set.
-/

namespace LineBasic.Syntax

set_option autoImplicit false

/-- A whole line. -/
def line (text : String) : String := text ++ "\n"

def Primary.text : Primary → String
  | .number text => text
  | .name text => text

def Operand.text : Operand → String
  | ⟨none, primary⟩ => primary.text
  | ⟨some sign, primary⟩ => "(" ++ sign.operator.spelling ++ primary.text ++ ")"

namespace Chain

variable {ρ ι : Type} (operator : ρ → Operator) (item : ι → String)

def restText : List (ρ × ι) → String
  | [] => ""
  | (joint, operand) :: rest => (operator joint).spelling ++ item operand ++ restText rest

def text (chain : Chain ρ ι) : String := item chain.first ++ restText operator item chain.rest

end Chain

def Term.text : Term → String := Chain.text Scale.operator Operand.text

def Expression.text : Expression → String := Chain.text Sign.operator Term.text

def Condition.text (condition : Condition) : String :=
  Chain.text Relation.operator Expression.text condition.toChain

/-- The lines of a simple statement. Numbers are printed with `precision` decimal places. -/
def Simple.text (precision : Int) : Simple → String
  | .printText text => line s!"printf(\"{text}\\n\");"
  | .print value => s!"printf(\"%.{precision}f\\n\", (float)(" ++ value.text ++ line "));"
  | .label name => line s!"{name}:;"
  | .goto name => line s!"goto {name};"
  | .assign name value => s!"{name} = " ++ value.text ++ line ";"
  | .input name =>
      line (s!"if(0 == scanf(\"%f\", &{name})) " ++ "\x7b") ++ line s!"{name} = 0;"
        ++ line "scanf(\"%*s\");" ++ line "\x7d"

/-- The comment before a statement, if the options ask for it. -/
def lineComment (options : Options) (number : Int) : String :=
  if options.lineComments then line s!"/* line {number} */" else ""

/-- The word of C with which a block begins. -/
def blockWord : Pass.Block → String
  | .choice => "if"
  | .loop => "while"

def Code.text (options : Options) : Code → String
  | .done => ""
  | .simple number statement next =>
      lineComment options number ++ statement.text options.precision ++ next.text options
  | .block number kind condition body next =>
      lineComment options number ++ blockWord kind ++ "(" ++ condition.text ++ line ")\x7b"
        ++ body.text options ++ line "\x7d" ++ next.text options

theorem Code.text_append (options : Options) (code more : Code) :
    (code.append more).text options = code.text options ++ more.text options := by
  induction code with
  | done => exact String.empty_append.symm
  | simple number statement next ih => simp only [append, text, ih, String.append_assoc]
  | block number kind condition body next _ ih => simp only [append, text, ih, String.append_assoc]

/-- The lines that declare variables. -/
def declarations : List String → String
  | [] => ""
  | name :: names => line s!"float {name};" ++ declarations names

def prologue : String := "#include <stdio.h>\nint main(void)\x7b\n"

def epilogue : String := "return 0;\n\x7d\n"

theorem declarations_append (names more : List String) :
    declarations (names ++ more) = declarations names ++ declarations more := by
  induction names with
  | nil => exact (String.empty_append).symm
  | cons name names ih => simp only [List.cons_append, declarations, ih, String.append_assoc]

end LineBasic.Syntax
