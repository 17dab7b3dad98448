import Mathlib.Algebra.Group.Nat.Defs
import LineBasic.Text.Quoted

/-!
# Quoted texts are read back

A text in quotes holds printable characters only (`isPrintable_of_mem_encode`), so it never breaks a line or
a table, and the text can be read out of it (`decode_encode`): the quotes are taken off, and behind each
backslash stands one character, in an escape whose length its first sign tells.
-/

namespace LineBasic.Text

set_option autoImplicit false

/-! ## Characters that can be shown -/

/-- A character of ASCII that is no control character. -/
def Graphic (c : Char) : Prop := 0x20 ≤ c.toNat ∧ c.toNat ≤ 0x7e

instance : DecidablePred Graphic := fun _ => inferInstanceAs (Decidable (_ ∧ _))

theorem Graphic.isPrintable {c : Char} (graphic : Graphic c) : isPrintable c = true := by
  have apart : ∀ range ∈ unprintable, range.2 < 0x20 ∨ 0x7e < range.1 := by decide +kernel
  rw [Text.isPrintable, Bool.not_eq_true', ← Bool.not_eq_true, CodeRanges.has_iff]
  rintro ⟨range, member, first, last⟩
  obtain ⟨low, high⟩ := graphic
  have := apart range member
  omega

/-- No control character can be shown. -/
theorem isPrintable_control {c : Char} (control : c.toNat < 0x20) : isPrintable c = false := by
  rw [isPrintable, Bool.not_eq_false', CodeRanges.has_iff]
  exact ⟨(0x0, 0x1f), List.mem_cons_self, Nat.zero_le _, Nat.le_of_lt_succ control⟩

/-! ## Hexadecimal places -/

def signValue (c : Char) : Nat :=
  if c.toNat ≤ '9'.toNat then c.toNat - '0'.toNat else c.toNat - 'a'.toNat + 10

/-- The number that hexadecimal signs write. -/
def hexNumber (signs : List Char) : Nat := signs.foldl (fun number c => 16 * number + signValue c) 0

theorem hexSign_spec : ∀ value < 16,
    signValue (hexSign 'a' value) = value ∧ Graphic (hexSign 'a' value) := by
  decide

theorem hexNumber_hexFixed (width n : Nat) : hexNumber (hexFixed width n) = n % 16 ^ width := by
  induction width generalizing n with
  | zero => simp [hexFixed, hexNumber, Nat.mod_one]
  | succ width ih =>
    have last := (hexSign_spec (n % 16) (Nat.mod_lt n (by decide))).1
    have places : hexNumber (hexFixed (width + 1) n) =
        16 * hexNumber (hexFixed width (n / 16)) + n % 16 := by
      rw [hexFixed, hexNumber, List.foldl_append, List.foldl_cons, List.foldl_nil, last]
      rfl
    rw [places, ih, Nat.pow_succ, Nat.mul_comm (16 ^ width), Nat.mod_mul, Nat.add_comm]

theorem graphic_of_mem_hexFixed {width n : Nat} {c : Char} (member : c ∈ hexFixed width n) :
    Graphic c := by
  induction width generalizing n with
  | zero => cases member
  | succ width ih =>
    rcases List.mem_append.1 member with earlier | last
    · exact ih earlier
    · rw [List.mem_singleton.1 last]
      exact (hexSign_spec (n % 16) (Nat.mod_lt n (by decide))).2

namespace Quoted

/-! ## What quoted texts are made of -/

theorem mark_cases (text : List Char) : mark text = apostrophe ∨ mark text = doubleQuote := by
  unfold mark
  split
  · exact .inr rfl
  · exact .inl rfl

theorem graphic_mark (text : List Char) : Graphic (mark text) := by
  rcases mark_cases text with isMark | isMark
  · rw [isMark]
    decide
  · rw [isMark]
    decide

/-- Behind a backslash stands a sign, and maybe a number. -/
theorem graphic_of_mem_escape {sign d : Char} (graphic : Graphic sign) {places : List Char}
    (number : ∀ c ∈ places, Graphic c) (member : d ∈ '\\' :: sign :: places) : Graphic d := by
  rcases List.mem_cons.1 member with rfl | member
  · decide
  · rcases List.mem_cons.1 member with rfl | member
    · exact graphic
    · exact number d member

theorem graphic_of_mem_byCode {c d : Char} (member : d ∈ byCode c) : Graphic d := by
  unfold byCode at member
  split at member
  · exact graphic_of_mem_escape (by decide) (fun _ => graphic_of_mem_hexFixed) member
  · split at member
    · exact graphic_of_mem_escape (by decide) (fun _ => graphic_of_mem_hexFixed) member
    · exact graphic_of_mem_escape (by decide) (fun _ => graphic_of_mem_hexFixed) member

theorem isPrintable_of_mem_encodeChar {text : List Char} {c d : Char}
    (member : d ∈ encodeChar (mark text) c) : isPrintable d = true := by
  have letter {sign : Char} (graphic : Graphic sign) (member : d ∈ ['\\', sign]) :
      isPrintable d = true :=
    (graphic_of_mem_escape graphic (by simp) member).isPrintable
  unfold encodeChar at member
  split at member
  · rename_i special
    rw [Bool.or_eq_true, decide_eq_true_iff, decide_eq_true_iff] at special
    rcases special with rfl | rfl
    · exact letter (graphic_mark text) member
    · exact letter (by decide) member
  split at member
  · exact letter (by decide) member
  split at member
  · exact letter (by decide) member
  split at member
  · exact letter (by decide) member
  split at member
  · rwa [List.mem_singleton.1 member]
  · exact (graphic_of_mem_byCode member).isPrintable

theorem isPrintable_of_mem_encode {text : List Char} {c : Char} (member : c ∈ encode text) :
    isPrintable c = true := by
  rcases List.mem_cons.1 member with rfl | member
  · exact (graphic_mark text).isPrintable
  rcases List.mem_append.1 member with inside | closing
  · obtain ⟨d, -, member⟩ := List.mem_flatMap.1 inside
    exact isPrintable_of_mem_encodeChar member
  · rw [List.mem_singleton.1 closing]
    exact (graphic_mark text).isPrintable

theorem control_not_mem_encode {c : Char} (control : c.toNat < 0x20) (text : List Char) :
    c ∉ encode text := by
  intro member
  have shown := isPrintable_of_mem_encode member
  rw [isPrintable_control control] at shown
  cases shown

/-! ## Reading back -/

/-- The character that an escape stands for, and the length of the escape, without its backslash. -/
def escape : List Char → Char × Nat
  | 'n' :: _ => ('\n', 1)
  | 'r' :: _ => ('\r', 1)
  | 't' :: _ => ('\t', 1)
  | 'x' :: rest => (Char.ofNat (hexNumber (rest.take 2)), 3)
  | 'u' :: rest => (Char.ofNat (hexNumber (rest.take 4)), 5)
  | 'U' :: rest => (Char.ofNat (hexNumber (rest.take 8)), 9)
  | c :: _ => (c, 1)
  | [] => ('\\', 0)

/-- Reads a text inside its quotes, behind the next `skip` characters, which belong to an escape. -/
def decodeFrom : (skip : Nat) → List Char → List Char
  | _, [] => []
  | skip + 1, _ :: rest => decodeFrom skip rest
  | 0, c :: rest =>
      if c = '\\' then (escape rest).1 :: decodeFrom (escape rest).2 rest else c :: decodeFrom 0 rest

/-- The text that stands in quotes. -/
def decode (text : List Char) : List Char := decodeFrom 0 text.tail.dropLast

theorem decodeFrom_append (front rest : List Char) :
    decodeFrom front.length (front ++ rest) = decodeFrom 0 rest := by
  induction front with
  | nil => rfl
  | cons c front ih => exact ih

theorem decodeFrom_escape {front rest : List Char} {c : Char}
    (reads : escape (front ++ rest) = (c, front.length)) :
    decodeFrom 0 ('\\' :: front ++ rest) = c :: decodeFrom 0 rest := by
  rw [List.cons_append, decodeFrom, if_pos rfl, reads, decodeFrom_append]

theorem decodeFrom_byCode (c : Char) (rest : List Char) :
    decodeFrom 0 (byCode c ++ rest) = c :: decodeFrom 0 rest := by
  have coded {sign : Char} {width : Nat} (fits : c.toNat < 16 ^ width)
      (reads : ∀ text, escape (sign :: text) = (Char.ofNat (hexNumber (text.take width)), width + 1)) :
      decodeFrom 0 ('\\' :: sign :: hexFixed width c.toNat ++ rest) = c :: decodeFrom 0 rest := by
    have taken : (hexFixed width c.toNat ++ rest).take width = hexFixed width c.toNat :=
      List.take_left' (length_hexFixed width c.toNat)
    apply decodeFrom_escape
    rw [List.cons_append, reads, taken, hexNumber_hexFixed, Nat.mod_eq_of_lt fits, Char.ofNat_toNat,
      List.length_cons, length_hexFixed]
  unfold byCode
  split
  · exact coded ‹_› fun _ => rfl
  · split
    · exact coded ‹_› fun _ => rfl
    · exact coded c.val.toNat_lt fun _ => rfl

theorem decodeFrom_encodeChar (text : List Char) (c : Char) (rest : List Char) :
    decodeFrom 0 (encodeChar (mark text) c ++ rest) = c :: decodeFrom 0 rest := by
  unfold encodeChar
  split
  · rename_i special
    rw [Bool.or_eq_true, decide_eq_true_iff, decide_eq_true_iff] at special
    have known : c = apostrophe ∨ c = doubleQuote ∨ c = '\\' := by
      rcases special with rfl | rfl
      · rcases mark_cases text with isMark | isMark <;> simp [isMark]
      · simp
    rcases known with rfl | rfl | rfl <;> rfl
  · rename_i plain
    rw [Bool.or_eq_true, decide_eq_true_iff, decide_eq_true_iff, not_or] at plain
    split
    · rename_i newline
      subst newline
      rfl
    split
    · rename_i carriageReturn
      subst carriageReturn
      rfl
    split
    · rename_i tab
      subst tab
      rfl
    split
    · rw [List.singleton_append, decodeFrom, if_neg plain.2]
    · exact decodeFrom_byCode c rest

theorem decode_encode (text : List Char) : decode (encode text) = text := by
  have body (part : List Char) :
      decodeFrom 0 (part.flatMap (encodeChar (mark text))) = part := by
    induction part with
    | nil => rfl
    | cons c part ih => rw [List.flatMap_cons, decodeFrom_encodeChar, ih]
  rw [decode, encode, List.tail_cons, List.dropLast_concat, body]

end Quoted

end LineBasic.Text
