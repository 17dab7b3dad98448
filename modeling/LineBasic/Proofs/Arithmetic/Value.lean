import LineBasic.Proofs.C.Value

/-!
# The value of an expression, and its value in C

All values of the language are exact numbers, and every operation on them is exact (`value?`). In C an
operand is an integer if it is written without a point (`int?`), and what is computed from integers
alone is an integer (`cValue?`). That is what the text of an expression is worth in C
(`value?_text`).
-/

namespace LineBasic.Syntax

set_option autoImplicit false

open C (Binary)

section Exact

variable (env : String → ℚ)

def Primary.value : Primary → ℚ
  | .number text => numeral text.toList
  | .name text => env text

def Operand.value : Operand → ℚ
  | ⟨none, primary⟩ => primary.value env
  | ⟨some sign, primary⟩ => sign.apply 0 (primary.value env)

def Scale.result? (scale : Scale) (x y : ℚ) : Option ℚ :=
  if scale.allows y then some (scale.apply x y) else none

/-- The value of a term. There is none if it divides by zero. -/
def Term.value? (term : Term) : Option ℚ :=
  term.rest.foldlM (fun left link => link.1.result? left (link.2.value env)) (term.first.value env)

def Expression.value? (value : Expression) : Option ℚ :=
  (value.first.value? env).bind fun first =>
    value.rest.foldlM (fun left link => (link.2.value? env).map (link.1.apply left)) first

end Exact

section Typed

/-- The integer that a number without a point is in C. -/
def Primary.int? : Primary → Option ℤ
  | .number text => if '.' ∈ text.toList then none else some (Nat.ofDigitChars 10 text.toList 0)
  | .name _ => none

def Operand.int? : Operand → Option ℤ
  | ⟨none, primary⟩ | ⟨some .plus, primary⟩ => primary.int?
  | ⟨some .minus, primary⟩ => primary.int?.map (-·)

variable (env : String → ℚ)

def Operand.cValue (operand : Operand) : C.Value :=
  operand.int?.elim (.floating (operand.value env)) .int

def Term.cValue? (term : Term) : Option C.Value :=
  term.rest.foldlM (fun left link => (Binary.scale link.1).result? left (link.2.cValue env))
    (term.first.cValue env)

def Expression.cValue? (value : Expression) : Option C.Value :=
  (value.first.cValue? env).bind fun first =>
    value.rest.foldlM
      (fun left link => (link.2.cValue? env).bind ((Binary.sign link.1).result? left)) first

/-- Integers are written without superfluous zeros. -/
def Primary.Plain : Primary → Prop
  | .number text => C.Plain text.toList
  | .name _ => True

instance : DecidablePred Primary.Plain
  | .number text => inferInstanceAs (Decidable (C.Plain text.toList))
  | .name _ => .isTrue trivial

def Expression.PlainLiterals (value : Expression) : Prop := ∀ primary ∈ value.primaries, primary.Plain

instance : DecidablePred Expression.PlainLiterals :=
  fun value => inferInstanceAs (Decidable (∀ primary ∈ value.primaries, primary.Plain))

end Typed

variable {env : String → ℚ}

theorem Primary.value_of_int? {primary : Primary} {n : ℤ} (whole : primary.int? = some n) :
    primary.value env = n := by
  cases primary with
  | number text =>
    simp only [int?] at whole
    split at whole
    · cases whole
    · rename_i noPoint
      cases whole
      rw [value, numeral_whole noPoint, Int.cast_natCast]
  | name text => cases whole

theorem Operand.value_of_int? {operand : Operand} {n : ℤ} (whole : operand.int? = some n) :
    operand.value env = n := by
  obtain ⟨sign, primary⟩ := operand
  match sign with
  | none => exact Primary.value_of_int? whole
  | some .plus =>
    rw [value, Sign.apply, zero_add]
    exact Primary.value_of_int? whole
  | some .minus =>
    obtain ⟨m, inner, rfl⟩ := Option.map_eq_some_iff.1 whole
    rw [value, Sign.apply, zero_sub, Primary.value_of_int? inner, Int.cast_neg]

/-- The type of an operand does not touch its value. -/
theorem Operand.toRat_cValue (operand : Operand) : (operand.cValue env).toRat = operand.value env := by
  unfold cValue
  cases whole : operand.int? with
  | none => rfl
  | some n => exact (value_of_int? whole).symm

theorem value?_primary {primary : Primary} (well : primary.WellSpelled) (plain : primary.Plain) :
    primary.cExpr.value? env =
      some (primary.int?.elim (.floating (primary.value env)) .int) := by
  cases primary with
  | name text =>
    rw [Primary.cExpr, C.Expr.value?, String.ofList_toList]
    rfl
  | number text =>
    rw [Primary.cExpr, C.Expr.value?, Primary.int?, Primary.value]
    change Numeral text.toList at well
    change C.Plain text.toList at plain
    generalize text.toList = chars at well plain
    cases well with
    | whole digits =>
      rw [C.constant?_whole digits plain, if_neg (C.point_not_mem digits.2)]
      rfl
    | decimal written fraction =>
      rw [C.constant?_decimal written.2 fraction.2, if_pos (by simp)]
      rfl

theorem value?_operand {operand : Operand} (well : operand.primary.WellSpelled)
    (plain : operand.primary.Plain) : operand.cExpr.value? env = some (operand.cValue env) := by
  obtain ⟨sign, primary⟩ := operand
  have inner : primary.cExpr.value? env = _ := value?_primary well plain
  match sign with
  | none => exact inner
  | some sign =>
    rw [Operand.cExpr, C.Expr.value?, C.Expr.value?, inner, Option.map_some, Operand.cValue]
    cases sign <;> cases whole : primary.int? <;>
      simp [Operand.int?, whole, C.Value.signed, Operand.value, Sign.apply]

theorem value?_term {term : Term} (well : ∀ primary ∈ term.primaries, primary.WellSpelled)
    (plain : ∀ primary ∈ term.primaries, primary.Plain) :
    term.cExpr.value? env = term.cValue? env := by
  obtain ⟨first, rest⟩ := List.forall_mem_cons.1 well
  obtain ⟨firstPlain, restPlain⟩ := List.forall_mem_cons.1 plain
  have items : ∀ link ∈ term.rest, link.2.cExpr.value? env = some (link.2.cValue env) := by
    intro link member
    have listed : link.2.primary ∈ term.rest.map fun link => link.2.primary :=
      List.mem_map.2 ⟨link, member, rfl⟩
    exact value?_operand (rest _ listed) (restPlain _ listed)
  have whole := C.value?_foldl Binary.scale Operand.cExpr (fun x => some (x.cValue env)) items term.first.cExpr
  rw [value?_operand first firstPlain] at whole
  exact whole

theorem value?_expression {value : Expression}
    (well : ∀ primary ∈ value.primaries, primary.WellSpelled) (plain : value.PlainLiterals) :
    value.cExpr.value? env = value.cValue? env := by
  have items : ∀ link ∈ value.rest, link.2.cExpr.value? env = link.2.cValue? env := by
    intro link member
    have listed {primary : Primary} (inner : primary ∈ link.2.primaries) : primary ∈ value.primaries :=
      List.mem_append_right _ (List.mem_flatMap.2 ⟨link, member, inner⟩)
    exact value?_term (fun _ inner => well _ (listed inner)) fun _ inner => plain _ (listed inner)
  have first : value.first.cExpr.value? env = value.first.cValue? env :=
    value?_term (fun _ inner => well _ (List.mem_append_left _ inner)) fun _ inner =>
      plain _ (List.mem_append_left _ inner)
  have whole := C.value?_foldl Binary.sign Term.cExpr (Term.cValue? env) items value.first.cExpr
  rw [first] at whole
  exact whole

/-- The value in C of the text of an expression. -/
theorem value?_text {value : Expression} (well : ∀ primary ∈ value.primaries, primary.WellSpelled)
    (plain : value.PlainLiterals) : C.value? env value.text = value.cValue? env := by
  rw [C.value?, ofText?_text well, Option.bind_some, value?_expression well plain]

end LineBasic.Syntax
