/-!
# Hexadecimal numbers

Numbers in base sixteen: with a fixed number of places, and with as many places as they need but at
least two.
-/

namespace LineBasic.Text

set_option autoImplicit false

/-- The sign for a value below sixteen; `ten` is the sign for ten. -/
def hexSign (ten : Char) (value : Nat) : Char :=
  if value < 10 then Char.ofNat ('0'.toNat + value) else Char.ofNat (ten.toNat + (value - 10))

/-- The last `width` places of `n`, in lower-case signs. -/
def hexFixed : (width : Nat) → (n : Nat) → List Char
  | 0, _ => []
  | width + 1, n => hexFixed width (n / 16) ++ [hexSign 'a' (n % 16)]

theorem length_hexFixed (width n : Nat) : (hexFixed width n).length = width := by
  induction width generalizing n with
  | zero => rfl
  | succ width ih => simp [hexFixed, ih]

/-- The places a number needs in base sixteen. -/
def hexWidth (n : Nat) : Nat :=
  if n < 16 then 1 else hexWidth (n / 16) + 1

/-- All places of `n`, at least two, in upper-case signs. -/
def hexUpper (n : Nat) : List Char :=
  upper (max 2 (hexWidth n)) n
where
  upper : Nat → Nat → List Char
    | 0, _ => []
    | width + 1, n => upper width (n / 16) ++ [hexSign 'A' (n % 16)]

end LineBasic.Text
