import LineBasic.Names.Similar
import LineBasic.Pass.Progress

/-!
# Expressions and conditions

An expression is a chain of terms joined by plus and minus, a term a chain of operands joined by
multiplication and division, an operand a number or a variable with at most one sign before it. A
condition is a chain of at least two expressions joined by comparisons.

Everything is written as it is read. Only an operand with a sign is put in parentheses, so that an
operator before the sign does not run together with it in C.
-/

namespace LineBasic.Pass

set_option autoImplicit false

/-- A number, or a variable that was set before. -/
def primary : Pass Unit := do
  let s ← get
  match s.current.kind with
  | .number =>
      write s.current.text
      advance
  | .ident =>
      if s.vars.has s.current.text then
        write s.current.text
        advance
      else
        let similar := similarNames s.current.text s.vars.names
        throw (s.report (.undeclaredVariable s.current.text similar) s.current.location)
  | _ => throw (s.unexpected "NUMBER or IDENT")

/-- An operand with at most one sign. -/
def unary : Pass Unit := do
  let s ← get
  if s.current.kind.isSign then
    write ("(" ++ s.current.text)
    advance
    primary
    write ")"
  else
    primary

/-! ## Chains -/

/-- One more operand, if an operator that joins comes first. -/
def link (joins : Kind → Bool) (operand : Pass Unit) : Pass (Option Unit) := do
  let s ← get
  if joins s.current.kind then
    write s.current.text
    advance
    operand
    return some ()
  else
    return none

theorem steady_link (joins : Kind → Bool) {operand : Pass Unit} (steady : Steady operand) :
    Steady (link joins operand) := by
  refine steady_get_bind fun s => ?_
  split
  · exact steady_bind (steady_write _) fun _ => steady_bind steady_advance fun _ =>
      steady_bind steady fun _ => steady_pure _
  · exact steady_pure _

theorem shrinking_link {joins : Kind → Bool} (stops : joins .eof = false) {operand : Pass Unit}
    (steady : Steady operand) : Shrinking fun _ : Unit => link joins operand := by
  intro _ s
  refine handsOnFrom_get_bind ?_
  split
  · rename_i joined
    have more : s.current.kind ≠ .eof := fun isEnd => by simp [isEnd, stops] at joined
    refine handsOnFrom_of_progress (progressFrom_modify_bind rfl ?_)
    exact progressFrom_bind (progressFrom_advance more) fun _ =>
      steady_bind steady fun _ => steady_pure _
  · exact handsOnFrom_none s

/-- As many more operands as operators that join. -/
def chain (joins : Kind → Bool) (stops : joins .eof = false) (operand : Pass Unit)
    (steady : Steady operand) : Pass Unit :=
  iterate (fun _ : Unit => link joins operand) (shrinking_link stops steady) ()

theorem steady_chain {joins : Kind → Bool} (stops : joins .eof = false) {operand : Pass Unit}
    (steady : Steady operand) : Steady (chain joins stops operand steady) :=
  steady_iterate _ (fun _ => steady_link joins steady) ()

theorem steady_primary : Steady primary := by
  refine steady_get_bind fun s => ?_
  split
  · exact steady_bind (steady_write _) fun _ => steady_advance
  · split
    · exact steady_bind (steady_write _) fun _ => steady_advance
    · exact steady_throw _
  · exact steady_throw _

theorem steady_unary : Steady unary := by
  refine steady_get_bind fun s => ?_
  split
  · exact steady_bind (steady_write _) fun _ => steady_bind steady_advance fun _ =>
      steady_bind steady_primary fun _ => steady_write _
  · exact steady_primary

/-! ## The levels -/

def term : Pass Unit := do
  unary
  chain Kind.isScale rfl unary steady_unary

theorem steady_term : Steady term :=
  steady_bind steady_unary fun _ => steady_chain rfl steady_unary

def expression : Pass Unit := do
  term
  chain Kind.isSign rfl term steady_term

theorem steady_expression : Steady expression :=
  steady_bind steady_term fun _ => steady_chain rfl steady_term

/-- A condition: at least one comparison. -/
def comparison : Pass Unit := do
  expression
  let s ← get
  if s.current.kind.isComparison then
    chain Kind.isComparison rfl expression steady_expression
  else
    throw (s.unexpected "comparison operator")

theorem steady_comparison : Steady comparison := by
  refine steady_bind steady_expression fun _ => steady_get_bind fun s => ?_
  split
  · exact steady_chain rfl steady_expression
  · exact steady_throw _

end LineBasic.Pass
