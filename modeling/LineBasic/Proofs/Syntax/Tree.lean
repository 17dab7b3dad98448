import LineBasic.Proofs.Token.Spelling

/-!
# Syntax trees

A program as a tree, without positions and layout: expressions are chains of operands, statements are
simple or blocks. The relations `Reads` say which tokens a tree stands for, rule by rule of the grammar.

Statements are kept in one type together with what follows them, so that a block is a node with two
branches: its body and what comes after it.
-/

namespace LineBasic

set_option autoImplicit false

/-- The keyword that begins a block. -/
def Pass.Block.keyword : Pass.Block → Keyword
  | .choice => .if_
  | .loop => .while_

namespace Syntax

open Pass (Block)

/-! ## Operators -/

inductive Sign where
  | plus
  | minus
  deriving DecidableEq

inductive Scale where
  | times
  | divide
  deriving DecidableEq

inductive Relation where
  | equal
  | notEqual
  | greater
  | atLeast
  | less
  | atMost
  deriving DecidableEq

def Sign.operator : Sign → Operator
  | .plus => .plus
  | .minus => .minus

def Scale.operator : Scale → Operator
  | .times => .times
  | .divide => .divide

def Relation.operator : Relation → Operator
  | .equal => .equal
  | .notEqual => .notEqual
  | .greater => .greater
  | .atLeast => .atLeast
  | .less => .less
  | .atMost => .atMost

/-! ## Expressions -/

inductive Primary where
  | number (text : String)
  | name (name : String)
  deriving DecidableEq

structure Operand where
  sign : Option Sign
  primary : Primary
  deriving DecidableEq

/-- Items with joints between them, to be taken together from the left. -/
structure Chain (ρ ι : Type) where
  first : ι
  rest : List (ρ × ι)
  deriving DecidableEq

abbrev Term := Chain Scale Operand

abbrev Expression := Chain Sign Term

/-- At least one comparison. -/
structure Condition extends Chain Relation Expression where
  compares : rest ≠ []
  deriving DecidableEq

/-! ## Statements -/

/-- A statement that holds no other one. -/
inductive Simple where
  | printText (text : String)
  | print (value : Expression)
  | label (name : String)
  | goto (name : String)
  | assign (name : String) (value : Expression)
  | input (name : String)
  deriving DecidableEq

/-- Statements in a row, each with the line it begins on. -/
inductive Code where
  | done
  | simple (line : Int) (statement : Simple) (next : Code)
  | block (line : Int) (block : Block) (condition : Condition) (body next : Code)
  deriving DecidableEq

namespace Code

/-- The statements of one program followed by those of another. -/
def append : Code → Code → Code
  | .done, more => more
  | .simple line statement next, more => .simple line statement (next.append more)
  | .block line kind condition body next, more => .block line kind condition body (next.append more)

/-- The variables that are set, in the order of the source, as often as they are set. -/
def targets : Code → List String
  | .done => []
  | .simple _ (.assign name _) next | .simple _ (.input name) next => name :: next.targets
  | .simple _ _ next => next.targets
  | .block _ _ _ body next => body.targets ++ next.targets

/-- The labels that are defined, in the order of the source. -/
def labels : Code → List String
  | .done => []
  | .simple _ (.label name) next => name :: next.labels
  | .simple _ _ next => next.labels
  | .block _ _ _ body next => body.labels ++ next.labels

/-- The lines on which the statements begin, in the order of the source. -/
def starts : Code → List Int
  | .done => []
  | .simple line _ next => line :: next.starts
  | .block line _ _ body next => line :: (body.starts ++ next.starts)

theorem starts_append (code more : Code) : (code.append more).starts = code.starts ++ more.starts := by
  induction code with
  | done => rfl
  | simple line statement next ih => simp only [append, starts, ih, List.cons_append]
  | block line kind condition body next _ ih =>
    simp only [append, starts, ih, List.cons_append, List.append_assoc]

end Code

/-! ## The tokens of a tree -/

inductive Primary.Reads : Token → Primary → Prop where
  | number {token : Token} (kind : token.kind = .number) : Reads token (.number token.text)
  | name {token : Token} (kind : token.kind = .ident) : Reads token (.name token.text)

inductive Operand.Reads : List Token → Operand → Prop where
  | plain {token : Token} {primary : Primary} (reads : primary.Reads token) :
      Reads [token] ⟨none, primary⟩
  | signed {mark token : Token} {sign : Sign} {primary : Primary}
      (kind : mark.kind = .operator sign.operator) (reads : primary.Reads token) :
      Reads [mark, token] ⟨some sign, primary⟩

namespace Chain

variable {ρ ι : Type} (operator : ρ → Operator) (item : List Token → ι → Prop)

/-- The joints of a chain, each with the item after it. -/
inductive RestReads : List Token → List (ρ × ι) → Prop where
  | nil : RestReads [] []
  | cons {mark : Token} {joint : ρ} {tokens later : List Token} {operand : ι} {rest : List (ρ × ι)}
      (kind : mark.kind = .operator (operator joint)) (reads : item tokens operand)
      (more : RestReads later rest) : RestReads (mark :: tokens ++ later) ((joint, operand) :: rest)

inductive Reads : List Token → Chain ρ ι → Prop where
  | mk {tokens later : List Token} {chain : Chain ρ ι} (first : item tokens chain.first)
      (more : RestReads operator item later chain.rest) : Reads (tokens ++ later) chain

end Chain

def Term.Reads : List Token → Term → Prop := Chain.Reads Scale.operator Operand.Reads

def Expression.Reads : List Token → Expression → Prop := Chain.Reads Sign.operator Term.Reads

def Condition.Reads (tokens : List Token) (condition : Condition) : Prop :=
  Chain.Reads Relation.operator Expression.Reads tokens condition.toChain

/-- The end of a line: at least one newline. -/
def LineEnd (tokens : List Token) : Prop := tokens ≠ [] ∧ ∀ token ∈ tokens, token.kind = .newline

/-- The keyword of a simple statement and the tokens after it, up to the end of the line. -/
inductive Simple.Reads : Token → List Token → Simple → Prop where
  | printText {keyword token : Token} (begins : keyword.kind = .keyword .print)
      (kind : token.kind = .string) : Reads keyword [token] (.printText token.text)
  | print {keyword : Token} {tokens : List Token} {value : Expression}
      (begins : keyword.kind = .keyword .print) (reads : Expression.Reads tokens value) :
      Reads keyword tokens (.print value)
  | label {keyword token : Token} (begins : keyword.kind = .keyword .label)
      (kind : token.kind = .ident) : Reads keyword [token] (.label token.text)
  | goto {keyword token : Token} (begins : keyword.kind = .keyword .goto)
      (kind : token.kind = .ident) : Reads keyword [token] (.goto token.text)
  | assign {keyword token mark : Token} {tokens : List Token} {value : Expression}
      (begins : keyword.kind = .keyword .let_) (kind : token.kind = .ident)
      (equals : mark.kind = .operator .assign) (reads : Expression.Reads tokens value) :
      Reads keyword (token :: mark :: tokens) (.assign token.text value)
  | input {keyword token : Token} (begins : keyword.kind = .keyword .input)
      (kind : token.kind = .ident) : Reads keyword [token] (.input token.text)

/-- The head of a block: its condition and the keyword before its body, up to the end of the line. -/
inductive HeadReads (block : Block) : List Token → Condition → Prop where
  | mk {opener : Token} {tokens newlines : List Token} {condition : Condition}
      (reads : condition.Reads tokens) (opens : opener.kind = .keyword block.opener)
      (ends : LineEnd newlines) : HeadReads block (tokens ++ opener :: newlines) condition

inductive Code.Reads : List Token → Code → Prop where
  | done : Reads [] .done
  | simple {keyword : Token} {tokens newlines later : List Token} {statement : Simple} {next : Code}
      (reads : statement.Reads keyword tokens) (ends : LineEnd newlines) (more : Reads later next) :
      Reads (keyword :: tokens ++ newlines ++ later) (.simple keyword.location.line statement next)
  | block {keyword closer : Token} {head inner newlines later : List Token} {block : Block}
      {condition : Condition} {body next : Code} (begins : keyword.kind = .keyword block.keyword)
      (opens : HeadReads block head condition) (holds : Reads inner body)
      (closes : closer.kind = .keyword block.closer) (ends : LineEnd newlines)
      (more : Reads later next) :
      Reads (keyword :: head ++ inner ++ closer :: newlines ++ later)
        (.block keyword.location.line block condition body next)

theorem Code.Reads.append {tokens later : List Token} {code more : Code} (reads : code.Reads tokens)
    (follows : more.Reads later) : (code.append more).Reads (tokens ++ later) := by
  induction reads with
  | done => exact follows
  | simple first ends _ ih =>
    rw [List.append_assoc]
    exact .simple first ends ih
  | block begins opens holds closes ends _ _ ih =>
    rw [List.append_assoc]
    exact .block begins opens holds closes ends ih

/-- The tokens of a whole program: blank lines, the statements and the end of the text. -/
inductive Code.ReadsProgram : List Token → Code → Prop where
  | mk {blank tokens : List Token} {last : Token} {code : Code}
      (blanks : ∀ token ∈ blank, token.kind = .newline) (reads : code.Reads tokens)
      (ends : last.kind = .eof) : ReadsProgram (blank ++ tokens ++ [last]) code

end Syntax

end LineBasic
