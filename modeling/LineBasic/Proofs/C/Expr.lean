import LineBasic.Proofs.C.Text

/-!
# How C reads an expression

C's operators have precedences, and operators of one precedence are taken from the left. `read` goes
through the tokens once and keeps what is waiting for a right operand in a list of frames, innermost
first: an operator with its left operand, a sign, an open parenthesis. Before an operator is put there,
the frames that bind at least as tightly are closed (`close`).

The trees of expressions are read as they were meant (`readsAs_expression`): signs in parentheses,
multiplication and division before addition and subtraction, both from the left.
-/

namespace LineBasic.C

set_option autoImplicit false

open Syntax (Sign Scale Relation)

inductive Binary where
  | scale (scale : Scale)
  | sign (sign : Sign)
  | relation (relation : Relation)
  deriving DecidableEq

namespace Binary

def operator : Binary → Operator
  | .scale factor => factor.operator
  | .sign way => way.operator
  | .relation test => test.operator

/-- How tightly an operator binds. -/
def precedence : Binary → Nat
  | .scale _ => 4
  | .sign _ => 3
  | .relation .less | .relation .atMost | .relation .greater | .relation .atLeast => 2
  | .relation .equal | .relation .notEqual => 1

def all : List Binary :=
  [.scale .times, .scale .divide, .sign .plus, .sign .minus, .relation .equal, .relation .notEqual,
    .relation .greater, .relation .atLeast, .relation .less, .relation .atMost]

end Binary

inductive Expr where
  | constant (text : List Char)
  | name (text : List Char)
  | signed (sign : Sign) (operand : Expr)
  | binary (op : Binary) (left right : Expr)
  | paren (inner : Expr)
  deriving DecidableEq

/-- What is waiting for an operand. -/
inductive Frame where
  | signed (sign : Sign)
  | binary (op : Binary) (left : Expr)
  | paren
  deriving DecidableEq

def Token.binary? (token : Token) : Option Binary :=
  Binary.all.find? fun op => token = .mark op.operator.spelling.toList

def Token.sign? (token : Token) : Option Sign :=
  [Sign.plus, .minus].find? fun sign => token = .mark sign.operator.spelling.toList

/-- Closes the frames that bind at least as tightly as a precedence. -/
def close (precedence : Nat) : List Frame → Expr → List Frame × Expr
  | .signed sign :: frames, e => close precedence frames (.signed sign e)
  | .binary op left :: frames, e =>
      if precedence ≤ op.precedence then close precedence frames (.binary op left e)
      else (.binary op left :: frames, e)
  | frames, e => (frames, e)

/-- Reads on with an operand at hand, or before one. -/
def read : Option Expr → List Frame → List Token → Option Expr
  | none, frames, .number text :: rest => read (some (.constant text)) frames rest
  | none, frames, .word text :: rest => read (some (.name text)) frames rest
  | none, frames, .mark text :: rest =>
      if text = ['('] then read none (.paren :: frames) rest
      else
        match (Token.mark text).sign? with
        | some sign => read none (.signed sign :: frames) rest
        | none => none
  | some e, frames, .mark text :: rest =>
      if text = [')'] then
        match close 0 frames e with
        | (.paren :: outer, inner) => read (some (.paren inner)) outer rest
        | _ => none
      else
        match (Token.mark text).binary? with
        | some op =>
            let closed := close op.precedence frames e
            read none (.binary op closed.2 :: closed.1) rest
        | none => none
  | some e, frames, [] =>
      match close 0 frames e with
      | ([], whole) => some whole
      | _ => none
  | _, _, _ => none

/-- The expression that a text is in C. -/
def Expr.ofText? (text : String) : Option Expr := (lex none text.toList).bind (read none [])

/-! ## Closing frames -/

/-- The frames bind less tightly than the precedence. -/
def Open (precedence : Nat) : List Frame → Prop
  | [] | .paren :: _ => True
  | .signed _ :: _ => False
  | .binary op _ :: _ => op.precedence < precedence

theorem close_open {precedence : Nat} {frames : List Frame} (isOpen : Open precedence frames) (e : Expr) :
    close precedence frames e = (frames, e) := by
  cases frames with
  | nil => rfl
  | cons frame frames =>
    cases frame with
    | signed sign => exact isOpen.elim
    | binary op left => rw [close, if_neg (Nat.not_le.2 isOpen)]
    | paren => rfl

/-- The tokens end, a parenthesis closes, or an operator comes that does not bind more tightly. -/
def Yields (precedence : Nat) (tokens : List Token) : Prop :=
  ∀ token, tokens.head? = some token →
    token = .mark [')'] ∨ ∃ op, token.binary? = some op ∧ token ≠ .mark [')'] ∧
      op.precedence ≤ precedence

/-- An operator that is followed by one that does not bind more tightly is closed. -/
theorem read_binary {op : Binary} {rest : List Token} (yields : Yields op.precedence rest)
    (left e : Expr) (frames : List Frame) :
    read (some e) (.binary op left :: frames) rest = read (some (.binary op left e)) frames rest := by
  cases rest with
  | nil => rw [read, read, close, if_pos (Nat.zero_le _)]
  | cons token rest =>
    rcases yields token rfl with rfl | ⟨next, found, other, looser⟩
    · rw [read, if_pos rfl, close, if_pos (Nat.zero_le _), read, if_pos rfl]
    · cases token with
      | mark text =>
        have apart : text ≠ [')'] := fun same => other (same ▸ rfl)
        rw [read, if_neg apart, found, read, if_neg apart, found]
        dsimp only
        rw [close, if_pos looser]
      | word text => rw [read, read] <;> simp
      | number text => rw [read, read] <;> simp

theorem binary?_operator (op : Binary) : (Token.mark op.operator.spelling.toList).binary? = some op := by
  rcases op with factor | way | test
  · cases factor <;> rfl
  · cases way <;> rfl
  · cases test <;> rfl

theorem sign?_operator (sign : Sign) : (Token.mark sign.operator.spelling.toList).sign? = some sign := by
  cases sign <;> rfl

theorem operator_ne_close (op : Binary) : op.operator.spelling.toList ≠ [')'] := by
  rcases op with factor | way | test
  · cases factor <;> decide
  · cases way <;> decide
  · cases test <;> decide

/-- An operator takes what is at hand as its left operand. -/
theorem read_operator {op : Binary} {frames : List Frame} (isOpen : Open op.precedence frames) (e : Expr)
    (rest : List Token) :
    read (some e) frames (.mark op.operator.spelling.toList :: rest) =
      read none (.binary op e :: frames) rest := by
  rw [read, if_neg (operator_ne_close op), binary?_operator]
  dsimp only
  rw [close_open isOpen]

theorem yields_operator {op : Binary} {precedence : Nat} (looser : op.precedence ≤ precedence)
    (rest : List Token) : Yields precedence (.mark op.operator.spelling.toList :: rest) := by
  intro token same
  cases same
  refine .inr ⟨op, binary?_operator op, fun same => operator_ne_close op ?_, looser⟩
  exact Token.mark.inj same

theorem Yields.mono {low high : Nat} {tokens : List Token} (yields : Yields low tokens)
    (le : low ≤ high) : Yields high tokens := by
  intro token first
  rcases yields token first with closes | ⟨op, found, other, looser⟩
  · exact .inl closes
  · exact .inr ⟨op, found, other, Nat.le_trans looser le⟩

theorem Open.mono {low high : Nat} {frames : List Frame} (isOpen : Open low frames) (le : low ≤ high) :
    Open high frames := by
  match frames with
  | [] | .paren :: _ => trivial
  | .signed _ :: _ => exact isOpen
  | .binary op _ :: _ => exact Nat.lt_of_lt_of_le isOpen le

/-- Among operators that bind less tightly than the level, the tokens are read as the expression. -/
def ReadsAs (level : Nat) (tokens : List Token) (e : Expr) : Prop :=
  ∀ ⦃frames rest⦄, Open level frames → Yields level rest →
    read none frames (tokens ++ rest) = read (some e) frames rest

theorem ReadsAs.whole {level : Nat} {tokens : List Token} {e : Expr} (reads : ReadsAs level tokens e) :
    read none [] tokens = some e := by
  have := @reads [] [] trivial nofun
  rwa [List.append_nil] at this

end LineBasic.C

/-! ## The trees of expressions -/

namespace LineBasic.Syntax

open C (Expr Frame Binary ReadsAs)

def Primary.cExpr : Primary → Expr
  | .number text => .constant text.toList
  | .name text => .name text.toList

def Operand.cExpr : Operand → Expr
  | ⟨none, primary⟩ => primary.cExpr
  | ⟨some sign, primary⟩ => .paren (.signed sign primary.cExpr)

/-- The items of a chain taken together from the left. -/
def Chain.cExpr {ρ ι : Type} (op : ρ → Binary) (item : ι → Expr) (chain : Chain ρ ι) : Expr :=
  chain.rest.foldl (fun left link => .binary (op link.1) left (item link.2)) (item chain.first)

def Term.cExpr : Term → Expr := Chain.cExpr .scale Operand.cExpr

def Expression.cExpr : Expression → Expr := Chain.cExpr .sign Term.cExpr

def Condition.cExpr (condition : Condition) : Expr :=
  condition.toChain.cExpr .relation Expression.cExpr

theorem read_primary (primary : Primary) (frames : List Frame) (rest : List C.Token) :
    C.read none frames (primary.cToken :: rest) = C.read (some primary.cExpr) frames rest := by
  cases primary <;> rfl

theorem readsAs_operand (level : Nat) (operand : Operand) :
    ReadsAs level operand.cTokens operand.cExpr := by
  intro frames rest _ _
  obtain ⟨sign, primary⟩ := operand
  cases sign with
  | none => exact read_primary primary frames rest
  | some sign =>
    have opens : sign.operator.spelling.toList ≠ ['('] := by cases sign <;> decide
    simp only [Operand.cTokens, List.cons_append, List.nil_append]
    rw [C.read, if_pos rfl, C.read, if_neg opens, C.sign?_operator]
    dsimp only
    rw [read_primary, C.read, if_pos rfl]
    rfl

section Chains

variable {ρ ι : Type} {op : ρ → Binary} {tokens : ι → List C.Token} {expr : ι → Expr} {low high : Nat}

/-- Each joint closes the one before it, and its item is read before the next. -/
theorem read_links (tighter : low < high) {links : List (ρ × ι)}
    (level : ∀ link ∈ links, (op link.1).precedence = low)
    (items : ∀ link ∈ links, ReadsAs high (tokens link.2) (expr link.2))
    {frames : List Frame} (isOpen : C.Open low frames) {rest : List C.Token}
    (yields : C.Yields low rest) (left : Expr) :
    C.Yields low (Chain.restCTokens (fun joint => (op joint).operator) tokens links ++ rest) ∧
      C.read (some left) frames
          (Chain.restCTokens (fun joint => (op joint).operator) tokens links ++ rest) =
        C.read (some (links.foldl (fun left link => .binary (op link.1) left (expr link.2)) left))
          frames rest := by
  induction links generalizing left with
  | nil => exact ⟨yields, rfl⟩
  | cons link links ih =>
    obtain ⟨joint, operand⟩ := link
    obtain ⟨item, later⟩ := List.forall_mem_cons.1 items
    obtain ⟨here, levels⟩ := List.forall_mem_cons.1 level
    obtain ⟨next, more⟩ := ih levels later (.binary (op joint) left (expr operand))
    refine ⟨C.yields_operator here.le _, ?_⟩
    -- While the item is read, only its own operators can close: the joint waits below them.
    have below : C.Open high (.binary (op joint) left :: frames) := here.trans_lt tighter
    rw [Chain.restCTokens, List.cons_append, List.append_assoc,
      C.read_operator (here.symm ▸ isOpen), item below (next.mono tighter.le),
      C.read_binary (here.symm ▸ next), more]
    rfl

/-- A chain whose joints bind equally is read from the left. -/
theorem readsAs_chain (op : ρ → Binary) (tighter : low < high) {chain : Chain ρ ι}
    (level : ∀ link ∈ chain.rest, (op link.1).precedence = low)
    (first : ReadsAs high (tokens chain.first) (expr chain.first))
    (rest : ∀ link ∈ chain.rest, ReadsAs high (tokens link.2) (expr link.2)) :
    ReadsAs low (chain.cTokens (fun joint => (op joint).operator) tokens) (chain.cExpr op expr) := by
  intro frames after isOpen yields
  obtain ⟨next, more⟩ := read_links tighter level rest isOpen yields (expr chain.first)
  rw [Chain.cTokens, List.append_assoc, first (isOpen.mono tighter.le) (next.mono tighter.le), more]
  rfl

end Chains

theorem readsAs_term (term : Term) : ReadsAs 4 term.cTokens term.cExpr :=
  readsAs_chain .scale (Nat.lt_succ_self 4) (fun _ _ => rfl) (readsAs_operand 5 _)
    fun _ _ => readsAs_operand 5 _

theorem readsAs_expression (value : Expression) : ReadsAs 3 value.cTokens value.cExpr :=
  readsAs_chain .sign (Nat.lt_succ_self 3) (fun _ _ => rfl) (readsAs_term _)
    fun _ _ => readsAs_term _

/-- The relations `==` and `!=`, which bind less tightly than the others. -/
def Relation.isEquality : Relation → Bool
  | .equal | .notEqual => true
  | .greater | .atLeast | .less | .atMost => false

/-- The comparisons of a condition are all of equality, or all of order. -/
def Condition.Uniform (condition : Condition) : Prop :=
  (∀ link ∈ condition.rest, link.1.isEquality = true) ∨
    ∀ link ∈ condition.rest, link.1.isEquality = false

theorem Relation.precedence_eq (relation : Relation) :
    (Binary.relation relation).precedence = if relation.isEquality then 1 else 2 := by
  cases relation <;> rfl

theorem readsAs_condition {low : Nat} {condition : Condition} (weak : low < 3)
    (level : ∀ link ∈ condition.rest, (Binary.relation link.1).precedence = low) :
    ReadsAs low condition.cTokens condition.cExpr :=
  readsAs_chain .relation weak level (readsAs_expression _) fun _ _ => readsAs_expression _

/-- Comparisons of one kind are taken from the left. -/
theorem Condition.Uniform.read {condition : Condition} (uniform : condition.Uniform) :
    C.read none [] condition.cTokens = some condition.cExpr := by
  rcases uniform with equality | order
  · have level : ∀ link ∈ condition.rest, (Binary.relation link.1).precedence = 1 := by
      intro link member
      rw [Relation.precedence_eq, equality link member]
      rfl
    exact (readsAs_condition (by decide) level).whole
  · have level : ∀ link ∈ condition.rest, (Binary.relation link.1).precedence = 2 := by
      intro link member
      rw [Relation.precedence_eq, order link member]
      rfl
    exact (readsAs_condition (by decide) level).whole

/-- C reads the text of an expression as the tree it was written from. -/
theorem ofText?_text {value : Expression} (well : ∀ primary ∈ value.primaries, primary.WellSpelled) :
    Expr.ofText? value.text = some value.cExpr := by
  rw [Expr.ofText?, (lexes_expression well).whole, Option.bind_some, (readsAs_expression value).whole]

end LineBasic.Syntax
