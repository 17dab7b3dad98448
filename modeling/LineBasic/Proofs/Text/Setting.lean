import Mathlib.Data.List.TakeWhile
import Mathlib.Data.Nat.Digits.Defs
import LineBasic.Proofs.Text.Utf8

/-!
# What the text of a setting says

A switch of the environment is on if its text is one of three words, and a precision is the text of an
integer. Both are said here of the text as it is written, blanks and all (`Options.IsTruthy`,
`Text.WritesInteger`), and the functions that read a setting are proved to read just that
(`Options.isOn_iff`, `Text.integer?_eq_some_iff`).

Words count in any letter case. Letters outside ASCII also have lower-case forms, but only two of these forms
begin with a letter of ASCII, `i` and `k`, and no word for a switch has one of them (`lower_eq_iff`).
-/

namespace LineBasic

set_option autoImplicit false

namespace Text

/-! ## Blanks around a text -/

/-- A text that has a core and blanks around it. -/
def Framed (blank : Char → Bool) (core text : List Char) : Prop :=
  ∃ front back, text = front ++ core ++ back ∧ (∀ c ∈ front, blank c = true) ∧ ∀ c ∈ back, blank c = true

section Trim

variable {blank : Char → Bool} {core text : List Char}

theorem framed_trim (blank : Char → Bool) (text : List Char) : Framed blank (trim blank text) text := by
  refine ⟨text.takeWhile blank, ((text.dropWhile blank).reverse.takeWhile blank).reverse, ?_, ?_, ?_⟩
  · rw [trim, List.append_assoc, ← List.reverse_append, List.takeWhile_append_dropWhile,
      List.reverse_reverse, List.takeWhile_append_dropWhile]
  · exact fun c member => List.mem_takeWhile_imp member
  · exact fun c member => List.mem_takeWhile_imp (List.mem_reverse.1 member)

theorem dropWhile_of_head? (first : ∀ c ∈ text.head?, blank c = false) : text.dropWhile blank = text := by
  cases text with
  | nil => rfl
  | cons c text => rw [List.dropWhile_cons_of_neg (by simp [first c rfl])]

/-- What is left is the core, if that does not begin or end with a blank. -/
theorem trim_of_framed (framed : Framed blank core text) (first : ∀ c ∈ core.head?, blank c = false)
    (last : ∀ c ∈ core.getLast?, blank c = false) : trim blank text = core := by
  obtain ⟨front, back, rfl, before, behind⟩ := framed
  have ends : core.reverse.dropWhile blank = core.reverse :=
    dropWhile_of_head? (by rwa [List.head?_reverse])
  have begins : ((core ++ back).dropWhile blank).reverse.dropWhile blank = core.reverse := by
    by_cases empty : core = []
    · have none : back.dropWhile blank = [] := List.dropWhile_eq_nil_iff.2 behind
      rw [empty, List.nil_append, none]
      rfl
    · have kept : (core ++ back).dropWhile blank = core ++ back := by
        obtain ⟨c, more, rfl⟩ := List.exists_cons_of_ne_nil empty
        exact dropWhile_of_head? first
      rw [kept, List.reverse_append,
        List.dropWhile_append_of_pos fun c member => behind c (List.mem_reverse.1 member), ends]
  rw [trim, List.append_assoc, List.dropWhile_append_of_pos before, begins, List.reverse_reverse]

end Trim

/-! ## Lower case -/

/-- Of the letters that have a lower-case form, the capitals of ASCII come first. No other one is in ASCII,
and no other form is, but for the one of the Kelvin sign. -/
theorem upperRuns_cases : ∀ run ∈ upperRuns,
    (run.first = 0x41 ∧ run.last = 0x5a ∧ run.shift = 32) ∨
    (128 ≤ run.first ∧
      (run.first = 0x212a ∧ run.last = 0x212a ∧ run.shift = -8383 ∨
        128 ≤ run.first + run.shift ∧ (run.last + run.shift < 0xd800 ∨
          0xdfff < run.first + run.shift ∧ run.last + run.shift < 0x110000))) := by
  decide +kernel

theorem CaseRun.has_iff {run : CaseRun} {c : Char} :
    run.has c = true ↔
      run.first ≤ c.toNat ∧ c.toNat ≤ run.last ∧ (c.toNat - run.first) % run.stride = 0 := by
  simp [CaseRun.has, and_assoc]

theorem toLower_of_capital {c : Char} (least : 0x41 ≤ c.toNat) (most : c.toNat ≤ 0x5a) :
    c.toLower = Char.ofNat (c.toNat + 32) := by
  have capital : c.val ≥ 'A'.val ∧ c.val ≤ 'Z'.val := ⟨least, most⟩
  have lowered : c.toLower.val = c.val + 32 := congrArg Char.val (dif_pos capital)
  have bound : UInt32.toNat 32 = 32 := rfl
  rw [← Char.toNat_inj, toNat_ofNat (by omega), ← Char.toNat_val, lowered, UInt32.toNat_add,
    Char.toNat_val, bound]
  omega

theorem toLower_of_other {c : Char} (other : c.toNat < 0x41 ∨ 0x5a < c.toNat) : c.toLower = c := by
  have plain : ¬ (c.val ≥ 'A'.val ∧ c.val ≤ 'Z'.val) := by
    rintro ⟨least, most⟩
    have least : 0x41 ≤ c.toNat := least
    have most : c.toNat ≤ 0x5a := most
    omega
  exact dif_neg plain

theorem lowerChar_of_ascii {c : Char} (ascii : c.toNat < 128) : lowerChar c = [c.toLower] := by
  have undotted : c ≠ 'İ' := by
    rintro rfl
    exact absurd ascii (by decide)
  rw [lowerChar, if_neg undotted]
  cases found : upperRuns.find? (·.has c) with
  | none =>
    have first : (⟨0x41, 0x5a, 1, 32⟩ : CaseRun) ∈ upperRuns := List.mem_cons_self
    have plain := List.find?_eq_none.1 found _ first
    rw [CaseRun.has_iff, Nat.mod_one] at plain
    dsimp only at plain ⊢
    rw [toLower_of_other (by omega)]
  | some run =>
    have has := List.find?_some found
    obtain ⟨least, most, -⟩ := CaseRun.has_iff.1 has
    rcases upperRuns_cases run (List.mem_of_find?_eq_some found) with ⟨first, last, shift⟩ | ⟨large, -⟩
    · dsimp only
      rw [toLower_of_capital (by omega) (by omega), shift]
      rfl
    · omega

/-- The lower-case form of a letter outside ASCII. -/
theorem lowerChar_of_foreign {c : Char} (foreign : 128 ≤ c.toNat) :
    ∃ d more, lowerChar c = d :: more ∧ (128 ≤ d.toNat ∨ d = 'i' ∨ d = 'k') := by
  by_cases dotted : c = 'İ'
  · exact ⟨'i', ['\u0307'], by rw [lowerChar, if_pos dotted], .inr (.inl rfl)⟩
  rw [lowerChar, if_neg dotted]
  cases found : upperRuns.find? (·.has c) with
  | none => exact ⟨c, [], rfl, .inl foreign⟩
  | some run =>
    have has := List.find?_some found
    obtain ⟨least, most, -⟩ := CaseRun.has_iff.1 has
    refine ⟨_, [], rfl, ?_⟩
    rcases upperRuns_cases run (List.mem_of_find?_eq_some found) with
      ⟨first, last, -⟩ | ⟨-, ⟨first, last, shift⟩ | ⟨low, valid⟩⟩
    · omega
    · have kelvin : c.toNat = 0x212a := by omega
      rw [kelvin, shift]
      exact .inr (.inr rfl)
    · rw [toNat_ofNat (by omega)]
      exact .inl (by omega)

/-- One step of lowering: a letter of ASCII becomes its lower-case letter, and no other one becomes a letter of
ASCII, but for `i` and `k`. -/
theorem lowerAfter_cons (before : List Char) (c : Char) (rest : List Char) :
    (c.toNat < 128 ∧ lowerAfter before (c :: rest) = c.toLower :: lowerAfter (c :: before) rest) ∨
    (128 ≤ c.toNat ∧ ∃ d more, lowerAfter before (c :: rest) = d :: more ∧
      (128 ≤ d.toNat ∨ d = 'i' ∨ d = 'k')) := by
  rw [lowerAfter]
  by_cases sigma : c = 'Σ'
  · subst sigma
    refine .inr ⟨by decide, _, _, by rw [if_pos rfl]; rfl, .inl ?_⟩
    split <;> decide
  rw [if_neg sigma]
  by_cases ascii : c.toNat < 128
  · refine .inl ⟨ascii, ?_⟩
    rw [lowerChar_of_ascii ascii]
    rfl
  · obtain ⟨d, more, lowered, large⟩ := lowerChar_of_foreign (Nat.not_lt.1 ascii)
    refine .inr ⟨Nat.not_lt.1 ascii, d, more ++ lowerAfter (c :: before) rest, ?_, large⟩
    rw [lowered]
    rfl

/-- A word that is not met by letters outside ASCII. -/
def Plain (word : List Char) : Prop := ∀ d ∈ word, d.toNat < 128 ∧ d ≠ 'i' ∧ d ≠ 'k'

theorem lowerAfter_eq_iff {word : List Char} (plain : Plain word) (before text : List Char) :
    lowerAfter before text = word ↔ text.map Char.toLower = word := by
  induction text generalizing before word with
  | nil => rfl
  | cons c text ih =>
    rcases lowerAfter_cons before c text with ⟨-, lowered⟩ | ⟨foreign, d, more, lowered, large⟩
    · rw [lowered, List.map_cons]
      cases word with
      | nil => simp
      | cons d word =>
        rw [List.cons.injEq, List.cons.injEq, ih fun d member => plain d (List.mem_cons_of_mem _ member)]
    · rw [lowered, List.map_cons, toLower_of_other (by omega)]
      constructor
      · rintro rfl
        obtain ⟨small, other, another⟩ := plain d List.mem_cons_self
        rcases large with large | same | same
        · omega
        · exact absurd same other
        · exact absurd same another
      · rintro rfl
        exact absurd (plain c List.mem_cons_self).1 (by omega)

theorem lower_eq_iff {word : List Char} (plain : Plain word) (text : List Char) :
    lower text = word ↔ text.map Char.toLower = word := lowerAfter_eq_iff plain [] text

end Text

/-! ## Switches -/

namespace Options

/-- The text of a switch that is on: one of three words, in any letter case, with blanks around it. -/
def IsTruthy (text : String) : Prop :=
  ∃ core, Text.Framed Text.isWordBlank core text.toList ∧
    String.ofList (core.map Char.toLower) ∈ ["1", "true", "yes"]

theorem letter_of_mem_onWords {word : String} (member : word ∈ onWords) :
    ∀ d ∈ word.toList, (d.toNat < 128 ∧ d ≠ 'i' ∧ d ≠ 'k') ∧ Text.isWordBlank d = false := by
  have each : ∀ word ∈ onWords, (word.toList.all fun d =>
      (d.toNat < 128 && d != 'i' && d != 'k') && !Text.isWordBlank d) = true := by decide
  intro d inside
  simpa [and_assoc] using List.all_eq_true.1 (each word member) d inside

theorem plain_of_mem_onWords {word : String} (member : word ∈ onWords) : Text.Plain word.toList :=
  fun d inside => (letter_of_mem_onWords member d inside).1

theorem toLower_of_isWordBlank {c : Char} (blank : Text.isWordBlank c = true) : c.toLower = c := by
  have apart : ∀ range ∈ Text.whiteSpace ++ Text.informationSeparators,
      range.2 < 0x41 ∨ 0x5a < range.1 := by decide
  have has : Text.CodeRanges.has (Text.whiteSpace ++ Text.informationSeparators) c = true := by
    rwa [Text.CodeRanges.has, List.any_append]
  obtain ⟨range, member, least, most⟩ := (Text.CodeRanges.has_iff _ c).1 has
  have outside := apart range member
  exact Text.toLower_of_other (by omega)

theorem isOn_iff {text : String} : isOn text = true ↔ IsTruthy text := by
  rw [isOn, List.contains_iff_mem]
  constructor
  · intro member
    refine ⟨_, Text.framed_trim Text.isWordBlank text.toList, ?_⟩
    have lowered := (Text.lower_eq_iff (plain_of_mem_onWords member) _).1 String.toList_ofList.symm
    rw [lowered, String.ofList_toList]
    exact member
  · rintro ⟨core, framed, member⟩
    -- a blank is its own lower-case letter, so none is in a core that is a word
    have solid : ∀ c ∈ core, Text.isWordBlank c = false := by
      intro c inside
      rw [Bool.eq_false_iff]
      intro blank
      have letter : c.toLower ∈ (String.ofList (core.map Char.toLower)).toList := by
        rw [String.toList_ofList]
        exact List.mem_map_of_mem inside
      rw [toLower_of_isWordBlank blank] at letter
      rw [(letter_of_mem_onWords member c letter).2] at blank
      cases blank
    rw [Text.trim_of_framed framed (fun c first => solid c (List.mem_of_mem_head? first))
      (fun c last => solid c (List.mem_of_mem_getLast? last))]
    have lowered := (Text.lower_eq_iff (plain_of_mem_onWords member) core).2 String.toList_ofList.symm
    rw [lowered, String.ofList_toList]
    exact member

end Options

/-! ## Integers -/

namespace Text

/-- A decimal digit of some script, and its value. -/
def IsDigit (c : Char) (value : Nat) : Prop := value < 10 ∧ ∃ start ∈ zeroDigits, c.toNat = start + value

/-- Digits with single underscores between them, and their values. -/
inductive Digits : List Char → List Nat → Prop
  | last {c : Char} {value : Nat} (digit : IsDigit c value) : Digits [c] [value]
  | next {c : Char} {value : Nat} {rest : List Char} {values : List Nat} (digit : IsDigit c value)
      (later : Digits rest values) : Digits (c :: rest) (value :: values)
  | spaced {c : Char} {value : Nat} {rest : List Char} {values : List Nat} (digit : IsDigit c value)
      (later : Digits rest values) : Digits (c :: '_' :: rest) (value :: values)

/-- What a sign makes of a number. -/
inductive Signed (value : Nat) : List Char → Int → Prop
  | bare : Signed value [] value
  | plus : Signed value ['+'] value
  | minus : Signed value ['-'] (-value)

/-- The text of an integer: a sign or none, at most 4300 digits, and blanks around. -/
def WritesInteger (text : String) (value : Int) : Prop :=
  ∃ sign digits values, Framed isWhiteSpace (sign ++ digits) text.toList ∧ Digits digits values ∧
    values.length ≤ 4300 ∧ Signed (Nat.ofDigits 10 values.reverse) sign value

theorem zeroDigits_apart : ∀ first ∈ zeroDigits, ∀ second ∈ zeroDigits,
    first = second ∨ first + 10 ≤ second ∨ second + 10 ≤ first := by
  decide +kernel

theorem digitValue?_eq_some_iff {c : Char} {value : Nat} : digitValue? c = some value ↔ IsDigit c value := by
  rw [digitValue?, Option.map_eq_some_iff]
  constructor
  · rintro ⟨start, found, rfl⟩
    have within := List.find?_some found
    simp only [Bool.and_eq_true, decide_eq_true_iff] at within
    exact ⟨by omega, start, List.mem_of_find?_eq_some found, by omega⟩
  · rintro ⟨small, start, member, same⟩
    cases found : zeroDigits.find? fun start => start ≤ c.toNat && c.toNat < start + 10 with
    | none =>
      have outside := List.find?_eq_none.1 found start member
      simp only [Bool.and_eq_true, decide_eq_true_iff] at outside
      omega
    | some other =>
      have within := List.find?_some found
      simp only [Bool.and_eq_true, decide_eq_true_iff] at within
      have apart := zeroDigits_apart start member other (List.mem_of_find?_eq_some found)
      exact ⟨other, rfl, by omega⟩

/-- A digit is none of the other signs of a number. -/
theorem IsDigit.solid {c : Char} {value : Nat} (digit : IsDigit c value) :
    c ≠ '_' ∧ c ≠ '+' ∧ c ≠ '-' ∧ isWhiteSpace c = false := by
  have apart : ∀ start ∈ zeroDigits, (start = 0x30 ∨ 128 ≤ start) ∧
      ∀ range ∈ whiteSpace, start + 10 ≤ range.1 ∨ range.2 < start := by decide +kernel
  obtain ⟨small, start, member, same⟩ := digit
  obtain ⟨scripts, blanks⟩ := apart start member
  have other (d : Char) (outside : d.toNat < 0x30 ∨ 0x39 < d.toNat ∧ d.toNat < 128) : c ≠ d := by
    rintro rfl
    omega
  refine ⟨other _ (by decide), other _ (by decide), other _ (by decide), ?_⟩
  rw [isWhiteSpace, Bool.eq_false_iff, ne_eq, CodeRanges.has_iff]
  rintro ⟨range, inside, least, most⟩
  have outside := blanks range inside
  omega

section Digits

variable {text : List Char} {values : List Nat}

theorem Digits.exists_cons (digits : Digits text values) :
    ∃ c more value, text = c :: more ∧ IsDigit c value := by
  cases digits with
  | last digit | next digit _ | spaced digit _ => exact ⟨_, _, _, rfl, digit⟩

theorem Digits.getLast? (digits : Digits text values) : ∀ c ∈ text.getLast?, isWhiteSpace c = false := by
  induction digits with
  | last digit =>
    rintro _ ⟨⟩
    exact digit.solid.2.2.2
  | next _ later ih | spaced _ later ih =>
    obtain ⟨d, more, -, rfl, -⟩ := later.exists_cons
    simpa only [List.getLast?_cons_cons] using ih

theorem digitValues?_eq_some_iff : digitValues? text = some values ↔ Digits text values := by
  constructor
  · intro read
    fun_induction digitValues? text generalizing values with
    | case1 => cases read
    | case2 c =>
      obtain ⟨value, one, rfl⟩ := Option.map_eq_some_iff.1 read
      exact .last (digitValue?_eq_some_iff.1 one)
    | case3 c rest ih =>
      obtain ⟨value, one, read⟩ := Option.bind_eq_some_iff.1 read
      obtain ⟨others, later, ended⟩ := Option.bind_eq_some_iff.1 read
      cases ended
      exact .spaced (digitValue?_eq_some_iff.1 one) (ih later)
    | case4 c rest _ _ ih =>
      obtain ⟨value, one, read⟩ := Option.bind_eq_some_iff.1 read
      obtain ⟨others, later, ended⟩ := Option.bind_eq_some_iff.1 read
      cases ended
      exact .next (digitValue?_eq_some_iff.1 one) (ih later)
  · intro digits
    induction digits with
    | last digit => rw [digitValues?, digitValue?_eq_some_iff.2 digit, Option.map_some]
    | next digit later ih =>
      obtain ⟨d, more, value, rfl, other⟩ := later.exists_cons
      rw [digitValues?, digitValue?_eq_some_iff.2 digit, ih]
      · rfl
      · rintro ⟨⟩
      · rintro rest ⟨⟩
        exact other.solid.1 rfl
    | spaced digit later ih =>
      rw [digitValues?, digitValue?_eq_some_iff.2 digit, ih]
      rfl

theorem natOfDigits_eq (values : List Nat) : natOfDigits values = Nat.ofDigits 10 values.reverse := by
  rw [natOfDigits, List.foldl_eq_foldr_reverse, Nat.ofDigits_eq_foldr]
  congr
  funext value total
  rw [Nat.cast_id]
  omega

theorem unsigned?_eq_some_iff {n : Nat} :
    unsigned? text = some n ↔
      ∃ values, Digits text values ∧ values.length ≤ 4300 ∧ n = Nat.ofDigits 10 values.reverse := by
  rw [unsigned?]
  constructor
  · intro read
    obtain ⟨values, digits, bounded⟩ := Option.bind_eq_some_iff.1 read
    split at bounded
    · rename_i short
      cases bounded
      exact ⟨values, digitValues?_eq_some_iff.1 digits, short, natOfDigits_eq values⟩
    · cases bounded
  · rintro ⟨values, digits, short, rfl⟩
    refine Option.bind_eq_some_iff.2 ⟨values, digitValues?_eq_some_iff.2 digits, ?_⟩
    rw [maxDigits, if_pos short, natOfDigits_eq]

end Digits

theorem writesInteger_of_unsigned? {text : String} {sign digits : List Char} {n : Nat} {value : Int}
    (framed : Framed isWhiteSpace (sign ++ digits) text.toList) (read : unsigned? digits = some n)
    (signed : Signed n sign value) : WritesInteger text value := by
  obtain ⟨values, run, short, rfl⟩ := unsigned?_eq_some_iff.1 read
  exact ⟨sign, digits, values, framed, run, short, signed⟩

/-- An integer is read from its texts and from no others. -/
theorem integer?_eq_some_iff {text : String} {value : Int} :
    integer? text = some value ↔ WritesInteger text value := by
  constructor
  · intro read
    have framed := framed_trim isWhiteSpace text.toList
    rw [integer?] at read
    split at read
    · rename_i digits trimmed
      rw [trimmed] at framed
      obtain ⟨n, found, rfl⟩ := Option.map_eq_some_iff.1 read
      exact @writesInteger_of_unsigned? text ['-'] digits n _ framed found .minus
    · rename_i digits trimmed
      rw [trimmed] at framed
      obtain ⟨n, found, rfl⟩ := Option.map_eq_some_iff.1 read
      exact @writesInteger_of_unsigned? text ['+'] digits n _ framed found .plus
    · obtain ⟨n, found, rfl⟩ := Option.map_eq_some_iff.1 read
      exact @writesInteger_of_unsigned? text [] _ n _ framed found .bare
  · rintro ⟨sign, digits, values, framed, run, short, signed⟩
    obtain ⟨c, more, first, rfl, digit⟩ := run.exists_cons
    obtain ⟨-, unsigned, positive, solid⟩ := digit.solid
    have last : ∀ d ∈ (sign ++ c :: more).getLast?, isWhiteSpace d = false := by
      rw [List.getLast?_append_of_ne_nil _ (List.cons_ne_nil c more)]
      exact run.getLast?
    have number := unsigned?_eq_some_iff.2 ⟨values, run, short, rfl⟩
    cases signed with
    | bare =>
      rw [integer?, trim_of_framed framed (by rintro _ ⟨⟩; exact solid) last]
      split
      · rename_i same
        cases same
        exact absurd rfl positive
      · rename_i same
        cases same
        exact absurd rfl unsigned
      · exact Option.map_eq_some_iff.2 ⟨_, number, rfl⟩
    | plus =>
      rw [integer?, trim_of_framed framed (by rintro _ ⟨⟩; decide) last]
      exact Option.map_eq_some_iff.2 ⟨_, number, rfl⟩
    | minus =>
      rw [integer?, trim_of_framed framed (by rintro _ ⟨⟩; decide) last]
      exact Option.map_eq_some_iff.2 ⟨_, number, rfl⟩

end Text

namespace Options

theorem allowsPrecision_iff {value : Int} : allowsPrecision value = true ↔ 0 ≤ value ∧ value ≤ 10 := by
  rw [allowsPrecision, Bool.and_eq_true, decide_eq_true_iff, decide_eq_true_iff]
  rfl

/-- A text sets the precision exactly if it is that of an integer within the bounds. -/
theorem precision?_eq_some_iff {text : String} {value : Int} :
    precision? text = some value ↔ Text.WritesInteger text value ∧ 0 ≤ value ∧ value ≤ 10 := by
  rw [precision?, Option.filter_eq_some_iff, Text.integer?_eq_some_iff, allowsPrecision_iff]

end Options

end LineBasic
