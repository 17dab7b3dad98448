import Mathlib.Algebra.Order.Field.Rat
import LineBasic.Proofs.C.Expr
import LineBasic.Proofs.C.Literal

/-!
# The value of a C expression

A constant without a point is an integer, a constant with one and every variable is floating, and an
operator works on integers if both of its operands are integers. So the quotient of two integers is an
integer too: its fraction is dropped. Integers and floating values are exact here, neither bounded nor
rounded.
-/

namespace LineBasic

set_option autoImplicit false

/-- The number that digits with at most one point write. -/
def numeral (text : List Char) : ℚ :=
  let whole := text.takeWhile (· ≠ '.')
  let places := (text.dropWhile (· ≠ '.')).tail
  (Nat.ofDigitChars 10 (whole ++ places) 0 : ℚ) / 10 ^ places.length

/-- Without a point, the digits write a natural number. -/
theorem numeral_whole {text : List Char} (whole : '.' ∉ text) :
    numeral text = (Nat.ofDigitChars 10 text 0 : ℕ) := by
  have plain : ∀ c ∈ text, decide (c ≠ '.') = true := by
    intro c member
    rw [decide_eq_true_iff]
    rintro rfl
    exact whole member
  have taken : text.takeWhile (· ≠ '.') = text := List.takeWhile_eq_self_iff.2 plain
  have dropped : text.dropWhile (· ≠ '.') = [] := List.dropWhile_eq_nil_iff.2 plain
  rw [numeral, taken, dropped, List.tail_nil, List.append_nil, List.length_nil, pow_zero, div_one]

namespace Syntax

def Sign.apply : Sign → ℚ → ℚ → ℚ
  | .plus, x, y => x + y
  | .minus, x, y => x - y

def Scale.apply : Scale → ℚ → ℚ → ℚ
  | .times, x, y => x * y
  | .divide, x, y => x / y

/-- Only a divisor is asked not to be zero. -/
def Scale.allows : Scale → ℚ → Bool
  | .times, _ => true
  | .divide, y => y ≠ 0

def Relation.holds : Relation → ℚ → ℚ → Bool
  | .equal, x, y => x = y
  | .notEqual, x, y => x ≠ y
  | .greater, x, y => x > y
  | .atLeast, x, y => x ≥ y
  | .less, x, y => x < y
  | .atMost, x, y => x ≤ y

end Syntax

namespace C

open Syntax (Sign Scale Relation)

/-- A number, with the type that C gives it. -/
inductive Value where
  | int (number : ℤ)
  | floating (number : ℚ)
  deriving DecidableEq

namespace Value

def toRat : Value → ℚ
  | .int number => number
  | .floating number => number

/-- Two integers are taken together as integers, all else as floating values. -/
def lift (onInt : ℤ → ℤ → ℤ) (onRat : ℚ → ℚ → ℚ) : Value → Value → Value
  | .int m, .int n => .int (onInt m n)
  | x, y => .floating (onRat x.toRat y.toRat)

def sum : Sign → Value → Value → Value
  | .plus => lift (· + ·) (· + ·)
  | .minus => lift (· - ·) (· - ·)

/-- The product or the quotient. That of integers is cut off towards zero. -/
def scaled : Scale → Value → Value → Value
  | .times => lift (· * ·) (· * ·)
  | .divide => lift Int.tdiv (· / ·)

def signed : Sign → Value → Value
  | .plus, x => x
  | .minus, .int number => .int (-number)
  | .minus, .floating number => .floating (-number)

theorem toRat_sum (sign : Sign) (x y : Value) : (sum sign x y).toRat = sign.apply x.toRat y.toRat := by
  cases sign <;> cases x <;> cases y <;> simp [sum, lift, toRat, Sign.apply]

theorem toRat_times (x y : Value) : (scaled .times x y).toRat = x.toRat * y.toRat := by
  cases x <;> cases y <;> simp [scaled, lift, toRat]

end Value

/-- What an operator makes of its operands: nothing, if it divides by zero. -/
def Binary.result? : Binary → Value → Value → Option Value
  | .sign way, x, y => some (Value.sum way x y)
  | .scale factor, x, y => if factor.allows y.toRat then some (Value.scaled factor x y) else none
  | .relation test, x, y => some (.int (if test.holds x.toRat y.toRat then 1 else 0))

/-- An integer constant. One that begins with a zero is octal. -/
def whole? : List Char → Option Value
  | '0' :: c :: digits =>
      if (c :: digits).all isOctal then
        some (.int (Nat.ofDigitChars 8 (c :: digits) 0))
      else none
  | digits => some (.int (Nat.ofDigitChars 10 digits 0))

/-- A constant of digits and at most one point; exponents and suffixes do not occur. -/
def constant? (text : List Char) : Option Value :=
  if text.all fun c => Lexeme.isDigit c || c == '.' then
    match text.count '.' with
    | 0 => whole? text
    | 1 => some (.floating (numeral text))
    | _ => none
  else none

/-- The value of an expression, for given values of its variables. -/
def Expr.value? (env : String → ℚ) : Expr → Option Value
  | .constant text => constant? text
  | .name text => some (.floating (env (String.ofList text)))
  | .signed sign operand => (operand.value? env).map (Value.signed sign)
  | .binary op left right =>
      (left.value? env).bind fun x => (right.value? env).bind fun y => op.result? x y
  | .paren inner => inner.value? env

/-- The value of a text. -/
def value? (env : String → ℚ) (text : String) : Option Value :=
  (Expr.ofText? text).bind (Expr.value? env)

/-- A chain is evaluated from the left. -/
theorem value?_foldl {ρ ι : Type} (op : ρ → Binary) (item : ι → Expr) {env : String → ℚ}
    (values : ι → Option Value) {links : List (ρ × ι)}
    (known : ∀ link ∈ links, (item link.2).value? env = values link.2) (first : Expr) :
    (links.foldl (fun left link => .binary (op link.1) left (item link.2)) first).value? env =
      (first.value? env).bind fun left =>
        links.foldlM (fun left link => (values link.2).bind ((op link.1).result? left)) left := by
  induction links generalizing first with
  | nil => exact (Option.bind_fun_some _).symm
  | cons link links ih =>
    obtain ⟨item, later⟩ := List.forall_mem_cons.1 known
    rw [List.foldl_cons, ih later, Expr.value?, item, Option.bind_assoc]
    simp only [List.foldlM_cons, Option.bind_eq_bind]

/-! ## Numerals as constants -/

theorem point_not_mem {text : List Char} (digits : ∀ c ∈ text, Lexeme.isDigit c = true) : '.' ∉ text :=
  fun point => by cases digits _ point

/-- No zero stands before the first digit of an integer. -/
def Plain (text : List Char) : Prop := '.' ∈ text ∨ text = ['0'] ∨ text.head? ≠ some '0'

instance : DecidablePred Plain := fun _ => inferInstanceAs (Decidable (_ ∨ _ ∨ _))

theorem whole?_plain {text : List Char} (whole : '.' ∉ text) (plain : Plain text) :
    whole? text = some (.int (Nat.ofDigitChars 10 text 0)) := by
  rcases plain with point | rfl | first
  · exact absurd point whole
  · rfl
  · unfold whole?
    split
    · exact absurd rfl first
    · rfl

/-- A numeral without a point is an integer. -/
theorem constant?_whole {text : List Char} (digits : Digits text) (plain : Plain text) :
    constant? text = some (.int (Nat.ofDigitChars 10 text 0)) := by
  have whole := point_not_mem digits.2
  have all : (text.all fun c => Lexeme.isDigit c || c == '.') = true := by
    rw [List.all_eq_true]
    intro c member
    rw [digits.2 c member, Bool.true_or]
  rw [constant?, if_pos all, List.count_eq_zero_of_not_mem whole]
  exact whole?_plain whole plain

/-- A numeral with a point is floating. -/
theorem constant?_decimal {digits places : List Char}
    (written : ∀ c ∈ digits, Lexeme.isDigit c = true) (fraction : ∀ c ∈ places, Lexeme.isDigit c = true) :
    constant? (digits ++ '.' :: places) = some (.floating (numeral (digits ++ '.' :: places))) := by
  have all : ((digits ++ '.' :: places).all fun c => Lexeme.isDigit c || c == '.') = true := by
    rw [List.all_eq_true]
    intro c member
    rw [Bool.or_eq_true]
    rcases List.mem_append.1 member with whole | member
    · exact .inl (written c whole)
    · rcases List.mem_cons.1 member with rfl | place
      · exact .inr rfl
      · exact .inl (fraction c place)
  have one : (digits ++ '.' :: places).count '.' = 1 := by
    rw [List.count_append, List.count_cons_self,
      List.count_eq_zero_of_not_mem (point_not_mem written),
      List.count_eq_zero_of_not_mem (point_not_mem fraction)]
  rw [constant?, if_pos all, one]
  rfl

end C

end LineBasic
