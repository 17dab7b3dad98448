import Mathlib.Algebra.Order.Field.Basic
import Mathlib.Data.Int.CharZero
import LineBasic.Proofs.Arithmetic.Value

/-!
# What truncation costs

A term is computed from the left, in C as in the language, but as long as all of its operands are
integers C cuts every quotient off towards zero. What is cut off is carried through the factors that
follow (`Term.loss`), and the losses of the terms of an expression are added up with their signs
(`Expression.loss`): the value in C is the exact value less the loss.

A cut makes the value of a term smaller, and no later factor makes up for it. So a term loses nothing
only if it is zero or all quotients of its integers come out even (`Term.loss_eq_zero_iff`).
-/

namespace LineBasic.Syntax

set_option autoImplicit false

open C (Binary Value)

/-! ## One operation -/

/-- What C drops from the result of an operation. -/
def Scale.dropped : Scale → Value → Value → ℚ
  | .divide, .int m, .int n => (m.tmod n : ℚ) / n
  | _, _, _ => 0

theorem Scale.apply_toRat (scale : Scale) (x y : Value) :
    scale.apply x.toRat y.toRat = (Value.scaled scale x y).toRat + scale.dropped x y := by
  match scale, x, y with
  | .times, x, y => exact (Value.toRat_times x y).symm.trans (add_zero _).symm
  | .divide, .int m, .int n =>
    show (m : ℚ) / n = (m.tdiv n : ℤ) + (m.tmod n : ℚ) / n
    by_cases zero : n = 0
    · simp [zero]
    · have divides : (n : ℚ) ≠ 0 := Int.cast_ne_zero.2 zero
      have split : (m : ℚ) = n * (m.tdiv n : ℤ) + (m.tmod n : ℤ) := by
        exact_mod_cast (Int.mul_tdiv_add_tmod m n).symm
      rw [div_eq_iff divides, add_mul, div_mul_cancel₀ _ divides, mul_comm ((m.tdiv n : ℤ) : ℚ), ← split]
  | .divide, .int m, .floating q | .divide, .floating p, .int n | .divide, .floating p, .floating q =>
    exact (add_zero _).symm

theorem Scale.apply_add (scale : Scale) (x loss y : ℚ) :
    scale.apply (x + loss) y = scale.apply x y + scale.apply loss y := by
  cases scale with
  | times => exact add_mul x loss y
  | divide => exact add_div x loss y

theorem Scale.abs_apply (scale : Scale) (x y : ℚ) :
    |scale.apply x y| = scale.apply |x| |y| := by
  cases scale with
  | times => exact abs_mul x y
  | divide => exact abs_div x y

theorem Scale.abs_apply_le (scale : Scale) {x y : ℚ} (le : |x| ≤ |y|) (z : ℚ) :
    |scale.apply x z| ≤ |scale.apply y z| := by
  rw [abs_apply, abs_apply]
  cases scale with
  | times => exact mul_le_mul_of_nonneg_right le (abs_nonneg z)
  | divide => exact div_le_div_of_nonneg_right le (abs_nonneg z)

theorem Scale.abs_apply_lt (scale : Scale) {x y z : ℚ} (lt : |x| < |y|) (nonzero : z ≠ 0) :
    |scale.apply x z| < |scale.apply y z| := by
  have positive : 0 < |z| := abs_pos.2 nonzero
  rw [abs_apply, abs_apply]
  cases scale with
  | times => exact mul_lt_mul_of_pos_right lt positive
  | divide => exact div_lt_div_of_pos_right lt positive

/-- A quotient that is cut off is not larger, and it is smaller unless it comes out even. -/
theorem natAbs_tdiv_mul (m n : ℤ) :
    (m.tdiv n).natAbs * n.natAbs ≤ m.natAbs ∧
      (¬ n ∣ m → (m.tdiv n).natAbs * n.natAbs < m.natAbs) := by
  rw [Int.natAbs_tdiv]
  have le : m.natAbs / n.natAbs * n.natAbs ≤ m.natAbs := Nat.div_mul_le_self _ _
  refine ⟨le, fun uneven => lt_of_le_of_ne le fun same => uneven ?_⟩
  exact Int.natAbs_dvd_natAbs.1 (Dvd.intro_left _ same)

theorem abs_tdiv {m n : ℤ} (nonzero : n ≠ 0) :
    |((m.tdiv n : ℤ) : ℚ)| ≤ |(m : ℚ) / n| ∧
      (¬ n ∣ m → |((m.tdiv n : ℤ) : ℚ)| < |(m : ℚ) / n|) := by
  have positive : 0 < |(n : ℚ)| := abs_pos.2 (Int.cast_ne_zero.2 nonzero)
  obtain ⟨le, lt⟩ := natAbs_tdiv_mul m n
  rw [abs_div, le_div_iff₀ positive, lt_div_iff₀ positive]
  simp only [← Int.cast_abs, ← Nat.cast_natAbs]
  exact ⟨by exact_mod_cast le, fun uneven => by exact_mod_cast lt uneven⟩

theorem div_eq_tdiv {m n : ℤ} (nonzero : n ≠ 0) (even : n ∣ m) : (m : ℚ) / n = (m.tdiv n : ℤ) := by
  rw [div_eq_iff (Int.cast_ne_zero.2 nonzero)]
  exact_mod_cast (Int.tdiv_mul_cancel even).symm

/-- With a floating operand the operation is exact. -/
theorem Scale.scaled_floating (scale : Scale) (x : Value) (q : ℚ) :
    Value.scaled scale x (.floating q) = .floating (scale.apply x.toRat q) := by
  cases scale <;> cases x <;> rfl

theorem Scale.floating_scaled (scale : Scale) (q : ℚ) (y : Value) :
    Value.scaled scale (.floating q) y = .floating (scale.apply q y.toRat) := by
  cases scale <;> rfl

theorem Scale.abs_scaled_le {scale : Scale} {x y : Value} (allowed : scale.allows y.toRat = true) :
    |(Value.scaled scale x y).toRat| ≤ |scale.apply x.toRat y.toRat| := by
  match scale, x, y with
  | .times, x, y =>
    rw [Value.toRat_times]
    exact le_rfl
  | .divide, .int m, .int n =>
    have nonzero : n ≠ 0 := by simpa [allows, Value.toRat] using allowed
    exact (abs_tdiv nonzero).1
  | .divide, .int m, .floating q | .divide, .floating p, .int n | .divide, .floating p, .floating q =>
    exact le_rfl

/-! ## The operations of a term -/

section Runs

variable {env : String → ℚ}

/-- The exact value and the value in C, as the operands of a term are taken in. -/
inductive Runs (env : String → ℚ) : ℚ → Value → List (Scale × Operand) → ℚ → Value → Prop where
  | nil {x : ℚ} {v : Value} : Runs env x v [] x v
  | cons {x y : ℚ} {v w : Value} {scale : Scale} {operand : Operand} {links : List (Scale × Operand)}
      (allowed : scale.allows (operand.value env) = true)
      (more : Runs env (scale.apply x (operand.value env)) (Value.scaled scale v (operand.cValue env))
        links y w) : Runs env x v ((scale, operand) :: links) y w

theorem runs_of_value? {links : List (Scale × Operand)} {x y : ℚ} (v : Value)
    (valued : links.foldlM (fun left link => link.1.result? left (link.2.value env)) x = some y) :
    ∃ w, links.foldlM (fun left link => (Binary.scale link.1).result? left (link.2.cValue env)) v =
      some w ∧ Runs env x v links y w := by
  induction links generalizing x v with
  | nil =>
    cases valued
    exact ⟨v, rfl, .nil⟩
  | cons link links ih =>
    obtain ⟨scale, operand⟩ := link
    rw [List.foldlM_cons, Scale.result?] at valued
    by_cases allowed : scale.allows (operand.value env) = true
    · rw [if_pos allowed] at valued
      obtain ⟨w, typed, runs⟩ := ih (Value.scaled scale v (operand.cValue env)) valued
      refine ⟨w, ?_, .cons allowed runs⟩
      rw [List.foldlM_cons, Binary.result?, operand.toRat_cValue, if_pos allowed]
      exact typed
    · rw [if_neg allowed] at valued
      cases valued

/-- What every operation keeps, a run keeps. -/
theorem Runs.invariant {P : ℚ → Value → Prop}
    (step : ∀ {x : ℚ} {v : Value} {scale : Scale} {operand : Operand},
      scale.allows (operand.value env) = true → P x v →
        P (scale.apply x (operand.value env)) (Value.scaled scale v (operand.cValue env)))
    {links : List (Scale × Operand)} {x y : ℚ} {v w : Value} (runs : Runs env x v links y w)
    (holds : P x v) : P y w := by
  induction runs with
  | nil => exact holds
  | cons allowed _ ih => exact ih (step allowed holds)

variable {links : List (Scale × Operand)} {x y : ℚ} {v w : Value}

theorem Operand.abs_scaled_le {scale : Scale} {operand : Operand}
    (allowed : scale.allows (operand.value env) = true) (v : Value) :
    |(Value.scaled scale v (operand.cValue env)).toRat| ≤
      |scale.apply v.toRat (operand.value env)| := by
  rw [← operand.toRat_cValue] at allowed ⊢
  exact Scale.abs_scaled_le allowed

/-- In C no term is larger than its exact value. -/
theorem Runs.abs_le (runs : Runs env x v links y w) (le : |v.toRat| ≤ |x|) : |w.toRat| ≤ |y| :=
  runs.invariant (P := fun x v => |v.toRat| ≤ |x|)
    (fun allowed le => (Operand.abs_scaled_le allowed _).trans (Scale.abs_apply_le _ le _)) le

/-- The exact value is zero, or the value in C is closer to zero. -/
def Behind (x : ℚ) (v : Value) : Prop := x = 0 ∨ |v.toRat| < |x|

/-- What is behind stays behind, as the factors are the same on both sides. -/
theorem Runs.behind (runs : Runs env x v links y w) (behind : Behind x v) : Behind y w := by
  refine runs.invariant ?_ behind
  intro x v scale operand allowed behind
  rcases behind with rfl | lt
  · left
    cases scale with
    | times => exact zero_mul _
    | divide => exact zero_div _
  · by_cases zero : operand.value env = 0
    · left
      rw [zero]
      cases scale with
      | times => exact mul_zero _
      | divide => exact div_zero _
    · right
      exact (Operand.abs_scaled_le allowed v).trans_lt (Scale.abs_apply_lt scale lt zero)

/-- A floating value loses nothing any more. -/
theorem Runs.floating (runs : Runs env x (.floating x) links y w) : w = .floating y := by
  refine runs.invariant (P := fun x v => v = .floating x) ?_ rfl
  rintro x v scale operand - rfl
  rw [scale.floating_scaled, operand.toRat_cValue]

end Runs

/-! ## Quotients that come out even -/

/-- As long as the operands are integers, every quotient comes out even. -/
def Term.evenFrom (m : ℤ) : List (Scale × Operand) → Bool
  | [] => true
  | (scale, operand) :: links =>
      match operand.int?, scale with
      | none, _ => true
      | some n, .times => evenFrom (m * n) links
      | some n, .divide => decide (n ∣ m) && evenFrom (m.tdiv n) links

def Term.dividesEvenly (term : Term) : Bool :=
  match term.first.int? with
  | none => true
  | some m => evenFrom m term.rest

section Even

variable {env : String → ℚ} {links : List (Scale × Operand)} {y : ℚ} {w : Value}

/-- A run of integers keeps the value if all quotients come out even, and falls behind otherwise. -/
theorem Runs.even_or_behind {m : ℤ} (runs : Runs env m (.int m) links y w) :
    if Term.evenFrom m links = true then w.toRat = y else Behind y w := by
  induction links generalizing m with
  | nil =>
    cases runs
    rfl
  | cons link links ih =>
    obtain ⟨scale, operand⟩ := link
    cases runs with
    | cons allowed more =>
      -- A floating operand ends the integers, and nothing is lost from there on.
      cases whole : operand.int? with
      | none =>
        rw [Operand.cValue, whole, Option.elim_none, scale.scaled_floating] at more
        simp only [more.floating, Term.evenFrom, whole]
        rfl
      | some n =>
        rw [Operand.cValue, whole, Operand.value_of_int? whole] at more
        rw [Operand.value_of_int? whole] at allowed
        cases scale with
        | times =>
          have product : Scale.apply .times (m : ℚ) n = (m * n : ℤ) := (Int.cast_mul m n).symm
          rw [product] at more
          simp only [Term.evenFrom, whole]
          exact ih more
        | divide =>
          have nonzero : n ≠ 0 := by simpa [Scale.allows] using allowed
          change Runs env ((m : ℚ) / n) (.int (m.tdiv n)) links y w at more
          simp only [Term.evenFrom, whole]
          by_cases even : n ∣ m
          · rw [div_eq_tdiv nonzero even] at more
            rw [decide_eq_true even, Bool.true_and]
            exact ih more
          · rw [decide_eq_false even, Bool.false_and, if_neg Bool.false_ne_true]
            exact more.behind (.inr ((abs_tdiv nonzero).2 even))

end Even

/-! ## Losses -/

section Losses

variable (env : String → ℚ)

/-- The loss of a term whose value in C is `left` so far, with a loss of `lost`. -/
def Term.lossFrom (left : Value) (lost : ℚ) : List (Scale × Operand) → ℚ
  | [] => lost
  | (scale, operand) :: links =>
      lossFrom (Value.scaled scale left (operand.cValue env))
        (scale.apply lost (operand.value env) + scale.dropped left (operand.cValue env)) links

/-- What C drops from the value of a term. -/
def Term.loss (term : Term) : ℚ := lossFrom env (term.first.cValue env) 0 term.rest

/-- The losses of the terms, added up with the signs of the terms. -/
def Expression.loss (value : Expression) : ℚ :=
  value.rest.foldl (fun total link => link.1.apply total (link.2.loss env)) (value.first.loss env)

def Expression.terms (value : Expression) : List Term := value.first :: value.rest.map Prod.snd

variable {env}

theorem Runs.eq_add_loss {links : List (Scale × Operand)} {x y lost : ℚ} {v w : Value}
    (runs : Runs env x v links y w) (splits : x = v.toRat + lost) :
    y = w.toRat + Term.lossFrom env v lost links := by
  induction runs generalizing lost with
  | nil => exact splits
  | @cons x y v w scale operand links allowed more ih =>
    apply ih
    have typed := scale.apply_toRat v (operand.cValue env)
    rw [operand.toRat_cValue] at typed
    rw [splits, Scale.apply_add, typed, add_assoc, add_comm (scale.dropped _ _)]

/-- The value of a term in C is its exact value less its loss. -/
theorem Term.exists_cValue? {term : Term} {exact : ℚ} (valued : term.value? env = some exact) :
    ∃ w, term.cValue? env = some w ∧ exact = w.toRat + term.loss env ∧
      (w.toRat = exact ↔ exact = 0 ∨ term.dividesEvenly = true) := by
  obtain ⟨w, typed, runs⟩ := runs_of_value? (term.first.cValue env) valued
  have first : term.first.value env = (term.first.cValue env).toRat :=
    (term.first.toRat_cValue).symm
  refine ⟨w, typed, runs.eq_add_loss (by rw [first, add_zero]), ?_⟩
  have small : |w.toRat| ≤ |exact| := runs.abs_le (by rw [first])
  have kept : if term.dividesEvenly = true then w.toRat = exact else Behind exact w := by
    unfold dividesEvenly
    cases whole : term.first.int? with
    | none =>
      rw [Operand.cValue, whole] at runs
      rw [if_pos rfl, runs.floating]
      rfl
    | some m =>
      rw [Operand.cValue, whole, Operand.value_of_int? whole] at runs
      exact runs.even_or_behind
  by_cases even : term.dividesEvenly = true
  · rw [if_pos even] at kept
    exact iff_of_true kept (.inr even)
  · rw [if_neg even] at kept
    refine ⟨fun same => .inl ?_, fun either => ?_⟩
    · rcases kept with zero | lt
      · exact zero
      · rw [same] at lt
        exact absurd lt (lt_irrefl _)
    · rcases either with rfl | divides
      · exact abs_nonpos_iff.1 (abs_zero (α := ℚ) ▸ small)
      · exact absurd divides even

/-- A term loses nothing exactly if it is zero or its quotients of integers come out even. -/
theorem Term.loss_eq_zero_iff {term : Term} {exact : ℚ} (valued : term.value? env = some exact) :
    term.loss env = 0 ↔ exact = 0 ∨ term.dividesEvenly = true := by
  obtain ⟨w, -, splits, kept⟩ := Term.exists_cValue? valued
  rw [← kept, splits, left_eq_add]

theorem Sign.apply_add (sign : Sign) (x lost y more : ℚ) :
    sign.apply (x + lost) (y + more) = sign.apply x y + sign.apply lost more := by
  cases sign with
  | plus => exact add_add_add_comm x lost y more
  | minus => exact add_sub_add_comm x lost y more

/-- The terms are added up in C as they should be, so the losses are what is missing. -/
theorem exists_cValue?_links {links : List (Sign × Term)} {x exact : ℚ} {v : Value} {lost : ℚ}
    (splits : x = v.toRat + lost)
    (valued : links.foldlM (fun left link => (link.2.value? env).map (link.1.apply left)) x =
      some exact) :
    ∃ w, links.foldlM
        (fun left link => (link.2.cValue? env).bind ((Binary.sign link.1).result? left)) v = some w ∧
      exact = w.toRat + links.foldl (fun total link => link.1.apply total (link.2.loss env)) lost ∧
      ∀ link ∈ links, ∃ y, link.2.value? env = some y := by
  induction links generalizing x v lost with
  | nil =>
    cases valued
    exact ⟨v, rfl, splits, nofun⟩
  | cons link links ih =>
    obtain ⟨sign, term⟩ := link
    rw [List.foldlM_cons, Option.bind_eq_bind, Option.bind_eq_some_iff] at valued
    obtain ⟨z, first, valued⟩ := valued
    obtain ⟨y, termValued, rfl⟩ := Option.map_eq_some_iff.1 first
    obtain ⟨u, typed, same, -⟩ := Term.exists_cValue? termValued
    have next : sign.apply x y = (Value.sum sign v u).toRat + sign.apply lost (term.loss env) := by
      rw [Value.toRat_sum, ← Sign.apply_add, ← splits, ← same]
    obtain ⟨w, more, total, others⟩ := ih next valued
    refine ⟨w, ?_, total, List.forall_mem_cons.2 ⟨⟨y, termValued⟩, others⟩⟩
    rw [List.foldlM_cons, typed]
    exact more

theorem Expression.exists_cValue? {value : Expression} {exact : ℚ}
    (valued : value.value? env = some exact) :
    ∃ w, value.cValue? env = some w ∧ exact = w.toRat + value.loss env ∧
      ∀ term ∈ value.terms, ∃ y, term.value? env = some y := by
  obtain ⟨x, first, valued⟩ := Option.bind_eq_some_iff.1 valued
  obtain ⟨v, typed, splits, -⟩ := Term.exists_cValue? first
  obtain ⟨w, more, total, others⟩ := exists_cValue?_links splits valued
  refine ⟨w, ?_, total, ?_⟩
  · rw [cValue?, typed]
    exact more
  · refine List.forall_mem_cons.2 ⟨⟨x, first⟩, ?_⟩
    intro term member
    obtain ⟨link, listed, rfl⟩ := List.mem_map.1 member
    exact others link listed

end Losses

end LineBasic.Syntax
