import Mathlib.Tactic.FieldSimp
import LineBasic.Proofs.C.Literal
import LineBasic.Proofs.C.Value

/-!
# The constants of C that digits and a point write

`Denotes` is the grammar of these constants, with their values: a leading zero makes an integer octal, unless
a point comes behind it. It agrees with what an expression is evaluated by (`Denotes.constant?`). A numeral
that C reads in octal keeps its decimal value only if it is worth less than eight, since every place before
the last is worth less in octal (`octal_eq_decimal_iff`). So it can be said of every numeral whether C takes
it at all (`exists_denotes_iff`) and whether C takes it for what it is in decimal (`denotes_numeral_iff`).
-/

namespace LineBasic.C

set_option autoImplicit false

open Lexeme (isDigit)

/-- A constant of C and its value: an integer in decimal, which does not begin with a zero, an integer in
octal, which does, or a floating constant, with a digit on at least one side of its point. Prefixes,
exponents and suffixes do not occur, and there is no limit to the size. -/
inductive Denotes : List Char → ℚ → Prop where
  | decimal {digits : List Char} (written : Digits digits) (leads : digits.head? ≠ some '0') :
      Denotes digits (Nat.ofDigitChars 10 digits 0 : ℕ)
  | octal {digits : List Char} (written : ∀ c ∈ digits, isOctal c = true) :
      Denotes ('0' :: digits) (Nat.ofDigitChars 8 digits 0 : ℕ)
  | floating {whole places : List Char} (written : Digits (whole ++ places)) :
      Denotes (whole ++ '.' :: places)
        ((Nat.ofDigitChars 10 whole 0 : ℕ) + (Nat.ofDigitChars 10 places 0 : ℕ) / 10 ^ places.length)

/-! ## Digits in octal and in decimal -/

theorem isDigit_iff {c : Char} : isDigit c = true ↔ 48 ≤ c.toNat ∧ c.toNat ≤ 57 := by
  rw [isDigit, Bool.and_eq_true, decide_eq_true_iff, decide_eq_true_iff]
  rfl

theorem isOctal_iff {c : Char} : isOctal c = true ↔ 48 ≤ c.toNat ∧ c.toNat ≤ 55 := by
  rw [isOctal, Bool.and_eq_true, decide_eq_true_iff, decide_eq_true_iff]
  rfl

theorem isDigit_of_octal {c : Char} (octal : isOctal c = true) : isDigit c = true := by
  rw [isOctal_iff] at octal
  rw [isDigit_iff]
  omega

theorem le_ofDigitChars (digits : List Char) (init : ℕ) : init ≤ Nat.ofDigitChars 10 digits init := by
  induction digits generalizing init with
  | nil => rw [Nat.ofDigitChars_nil]
  | cons c digits ih =>
    rw [Nat.ofDigitChars_cons]
    exact le_trans (by omega) (ih _)

/-- The same digits are worth less in octal, once there is something before them. -/
theorem octal_lt_decimal (digits : List Char) {m n : ℕ} (less : m < n) :
    Nat.ofDigitChars 8 digits m < Nat.ofDigitChars 10 digits n := by
  induction digits generalizing m n with
  | nil => simpa using less
  | cons c digits ih =>
    rw [Nat.ofDigitChars_cons, Nat.ofDigitChars_cons]
    exact ih (by omega)

/-- A number less than eight has one digit, behind zeros. -/
theorem octal_of_lt_eight {digits : List Char} (written : ∀ c ∈ digits, isDigit c = true) {init : ℕ}
    (small : Nat.ofDigitChars 10 digits init < 8) :
    (∀ c ∈ digits, isOctal c = true) ∧ Nat.ofDigitChars 8 digits init = Nat.ofDigitChars 10 digits init := by
  induction digits generalizing init with
  | nil => simp
  | cons c digits ih =>
    obtain ⟨digit, later⟩ := List.forall_mem_cons.1 written
    rw [Nat.ofDigitChars_cons] at small ⊢
    have bound := le_ofDigitChars digits (10 * init + (c.toNat - '0'.toNat))
    have nothing : init = 0 := by omega
    subst nothing
    obtain ⟨octals, same⟩ := ih later small
    refine ⟨List.forall_mem_cons.2 ⟨?_, octals⟩, ?_⟩
    · have zero : '0'.toNat = 48 := rfl
      rw [isDigit_iff] at digit
      rw [isOctal_iff]
      omega
    · rw [Nat.ofDigitChars_cons]
      simpa using same

theorem lt_eight_of_octal {digits : List Char} (written : ∀ c ∈ digits, isOctal c = true)
    (same : Nat.ofDigitChars 8 digits 0 = Nat.ofDigitChars 10 digits 0) :
    Nat.ofDigitChars 10 digits 0 < 8 := by
  induction digits with
  | nil => simp
  | cons c digits ih =>
    obtain ⟨octal, later⟩ := List.forall_mem_cons.1 written
    rw [isOctal_iff] at octal
    have zero : '0'.toNat = 48 := rfl
    rw [Nat.ofDigitChars_cons, Nat.ofDigitChars_cons, Nat.mul_zero, Nat.zero_add] at same
    rw [Nat.ofDigitChars_cons, Nat.mul_zero, Nat.zero_add]
    cases digits with
    | nil =>
      rw [Nat.ofDigitChars_nil]
      omega
    | cons d digits =>
      by_cases leads : c.toNat - '0'.toNat = 0
      · rw [leads] at same ⊢
        exact ih later same
      · -- A digit that is not zero and not the last is worth more in decimal.
        rw [Nat.ofDigitChars_cons, Nat.ofDigitChars_cons] at same
        exact absurd same (Nat.ne_of_lt (octal_lt_decimal digits (by omega)))

theorem octal_eq_decimal_iff {digits : List Char} (written : ∀ c ∈ digits, isDigit c = true) :
    ((∀ c ∈ digits, isOctal c = true) ∧
      Nat.ofDigitChars 8 digits 0 = Nat.ofDigitChars 10 digits 0) ↔ Nat.ofDigitChars 10 digits 0 < 8 :=
  ⟨fun ⟨octals, same⟩ => lt_eight_of_octal octals same, octal_of_lt_eight written⟩

/-! ## The grammar and the evaluation of constants -/

theorem constant?_octal {digits : List Char} (written : ∀ c ∈ digits, isDigit c = true) :
    constant? ('0' :: digits) =
      if digits.all isOctal then some (.int (Nat.ofDigitChars 8 digits 0)) else none := by
  have all : ∀ c ∈ '0' :: digits, isDigit c = true := List.forall_mem_cons.2 ⟨rfl, written⟩
  have allowed : (('0' :: digits).all fun c => isDigit c || c == '.') = true := by
    rw [List.all_eq_true]
    intro c member
    rw [all c member, Bool.true_or]
  rw [constant?, if_pos allowed, List.count_eq_zero_of_not_mem (point_not_mem all)]
  cases digits with
  | nil => rfl
  | cons c digits => rfl

/-- The decimal places are worth their number, moved behind the point. -/
theorem numeral_point {whole : List Char} (before : '.' ∉ whole) (places : List Char) :
    numeral (whole ++ '.' :: places) =
      (Nat.ofDigitChars 10 whole 0 : ℕ) + (Nat.ofDigitChars 10 places 0 : ℕ) / 10 ^ places.length := by
  have plain : ∀ c ∈ whole, decide (c ≠ '.') = true := by
    intro c member
    rw [decide_eq_true_iff]
    rintro rfl
    exact before member
  have taken : (whole ++ '.' :: places).takeWhile (· ≠ '.') = whole := by
    rw [List.takeWhile_append_of_pos plain, List.takeWhile_cons_of_neg (by decide), List.append_nil]
  have dropped : (whole ++ '.' :: places).dropWhile (· ≠ '.') = '.' :: places := by
    rw [List.dropWhile_append_of_pos plain, List.dropWhile_cons_of_neg (by decide)]
  rw [numeral, taken, dropped, List.tail_cons, Nat.ofDigitChars_append,
    Nat.ofDigitChars_eq_ofDigitChars_zero]
  push_cast
  field_simp

/-- A constant of the grammar is evaluated to its value. -/
theorem Denotes.constant? {text : List Char} {x : ℚ} (denotes : Denotes text x) :
    (constant? text).map Value.toRat = some x := by
  cases denotes with
  | decimal written leads =>
    rw [constant?_whole written (.inr (.inr leads))]
    rfl
  | octal written =>
    rw [constant?_octal fun c member => isDigit_of_octal (written c member),
      if_pos (List.all_eq_true.2 written)]
    rfl
  | @floating whole places written =>
    obtain ⟨before, behind⟩ := List.forall_mem_append.1 written.2
    rw [constant?_decimal before behind, Option.map_some, Value.toRat,
      numeral_point (point_not_mem before)]

theorem Denotes.unique {text : List Char} {x y : ℚ} (first : Denotes text x) (second : Denotes text y) :
    x = y := by
  have same := first.constant?.symm.trans second.constant?
  exact Option.some_inj.1 same

/-- A numeral that begins with a zero and has no point is an octal constant, if anything. -/
theorem denotes_octal_iff {digits : List Char} (written : ∀ c ∈ digits, isDigit c = true) {x : ℚ} :
    Denotes ('0' :: digits) x ↔
      (∀ c ∈ digits, isOctal c = true) ∧ x = (Nat.ofDigitChars 8 digits 0 : ℕ) := by
  constructor
  · intro denotes
    have value := denotes.constant?
    rw [constant?_octal written] at value
    split at value
    · rename_i octals
      exact ⟨List.all_eq_true.1 octals, (Option.some_inj.1 value).symm⟩
    · cases value
  · rintro ⟨octals, rfl⟩
    exact .octal octals

/-! ## Numerals -/

theorem numeral_zero_cons {digits : List Char} (written : ∀ c ∈ digits, isDigit c = true) :
    numeral ('0' :: digits) = (Nat.ofDigitChars 10 digits 0 : ℕ) := by
  rw [numeral_whole (point_not_mem (List.forall_mem_cons.2 ⟨rfl, written⟩)), Nat.ofDigitChars_cons]
  rfl

/-- Every numeral is a constant with its decimal value, or begins with a zero and has no point. -/
theorem denotes_or_octal {text : List Char} (written : Numeral text) :
    (('.' ∈ text ∨ text.head? ≠ some '0') ∧ Denotes text (numeral text)) ∨
      ∃ digits, text = '0' :: digits ∧ ∀ c ∈ digits, isDigit c = true := by
  cases written with
  | whole written =>
    by_cases zero : text.head? = some '0'
    · obtain ⟨digits, rfl⟩ := List.head?_eq_some_iff.1 zero
      exact .inr ⟨digits, rfl, fun c member => written.2 c (List.mem_cons_of_mem _ member)⟩
    · refine .inl ⟨.inr zero, ?_⟩
      rw [numeral_whole (point_not_mem written.2)]
      exact .decimal written zero
  | @decimal digits places written fraction =>
    refine .inl ⟨.inl (by simp), ?_⟩
    rw [numeral_point (point_not_mem written.2)]
    exact .floating ⟨by simp [written.1], List.forall_mem_append.2 ⟨written.2, fraction.2⟩⟩

theorem exists_denotes_iff {text : List Char} (written : Numeral text) :
    (∃ x, Denotes text x) ↔
      '.' ∈ text ∨ text.head? ≠ some '0' ∨ ∀ c ∈ text, isOctal c = true := by
  rcases denotes_or_octal written with ⟨plain, denotes⟩ | ⟨digits, rfl, decimal⟩
  · rw [← or_assoc]
    exact iff_of_true ⟨_, denotes⟩ (.inl plain)
  · have whole : '.' ∉ '0' :: digits := point_not_mem (List.forall_mem_cons.2 ⟨rfl, decimal⟩)
    have first : isOctal '0' = true := rfl
    simp [denotes_octal_iff decimal, whole, first]

theorem denotes_numeral_iff {text : List Char} (written : Numeral text) :
    Denotes text (numeral text) ↔ '.' ∈ text ∨ text.head? ≠ some '0' ∨ numeral text < 8 := by
  rcases denotes_or_octal written with ⟨plain, denotes⟩ | ⟨digits, rfl, decimal⟩
  · rw [← or_assoc]
    exact iff_of_true denotes (.inl plain)
  · have whole : '.' ∉ '0' :: digits := point_not_mem (List.forall_mem_cons.2 ⟨rfl, decimal⟩)
    have compare := octal_eq_decimal_iff decimal
    rw [denotes_octal_iff decimal, numeral_zero_cons decimal, Nat.cast_inj, eq_comm, compare]
    simp [whole]

end LineBasic.C
