import LineBasic.Proofs.C.Literal

/-!
# The identifiers of a C text

What the preprocessor and the compiler take for names in a C text stands in its code, outside of literals and
comments. `codeOf` blanks these out, and `identifiers` are the words of what is left. Words are cut at every
character that is none of a word, so those of a text in which such a character stands between two parts are
the words of the parts (`words_append_of_last`, `words_append_of_head`).
-/

namespace LineBasic.C

set_option autoImplicit false

open Lexeme (isDigit isLetter)

/-! ## Code -/

/-- A text with blanks in place of its literals and comments. -/
def codeOf (mode : Mode) : List Char → List Char
  | [] => []
  | c :: rest => (if mode = .code ∨ mode = .slash then c else ' ') :: codeOf (mode.next c) rest

theorem codeOf_append (mode : Mode) (text more : List Char) :
    codeOf mode (text ++ more) = codeOf mode text ++ codeOf (scan mode text) more := by
  induction text generalizing mode with
  | nil => rfl
  | cons c text ih =>
    rw [List.cons_append, codeOf, ih, codeOf, List.cons_append]
    rfl

/-- Where code begins and ends, in one step. -/
theorem codeOf_append_of {mode middle : Mode} {text : List Char} (leads : scan mode text = middle)
    (more : List Char) : codeOf mode (text ++ more) = codeOf mode text ++ codeOf middle more := by
  rw [codeOf_append, leads]

theorem codeOf_plain {text : List Char} (plain : ∀ c ∈ text, isCode c = true) :
    codeOf .code text = text := by
  induction text with
  | nil => rfl
  | cons c text ih =>
    obtain ⟨first, later⟩ := List.forall_mem_cons.1 plain
    rw [codeOf, next_code first, ih later, if_pos (.inl rfl)]

/-- What leaves a reader in a literal or a comment at each of its characters is blanked out. -/
theorem codeOf_blank {mode : Mode} (outside : mode ≠ .code ∧ mode ≠ .slash) {text : List Char}
    (stays : ∀ c ∈ text, mode.next c = mode) :
    codeOf mode text = List.replicate text.length ' ' := by
  induction text with
  | nil => rfl
  | cons c text ih =>
    obtain ⟨first, later⟩ := List.forall_mem_cons.1 stays
    rw [codeOf, first, ih later, if_neg (not_or.2 outside)]
    rfl

/-- A text that is read in code from its first character to its last. -/
structure AllCode (mode : Mode) (text : List Char) : Prop where
  ends : scan mode text = .code
  same : codeOf mode text = text

theorem allCode_plain {text : List Char} (plain : ∀ c ∈ text, isCode c = true) : AllCode .code text :=
  ⟨scan_code plain, codeOf_plain plain⟩

theorem AllCode.cons {mode : Mode} {c : Char} {text : List Char} (seen : mode = .code ∨ mode = .slash)
    (next : mode.next c = .code) (rest : AllCode .code text) : AllCode mode (c :: text) where
  ends := by
    show scan (mode.next c) text = .code
    rw [next, rest.ends]
  same := by rw [codeOf, next, rest.same, if_pos seen]

/-- Code behind a text that may end with a slash. -/
theorem AllCode.behind {mode middle : Mode} {text more : List Char} (leads : scan mode text = middle)
    (same : codeOf mode text = text) (rest : AllCode middle more) : AllCode mode (text ++ more) where
  ends := by rw [scan_append, leads, rest.ends]
  same := by rw [codeOf_append_of leads, same, rest.same]

theorem AllCode.append {mode : Mode} {text more : List Char} (first : AllCode mode text)
    (rest : AllCode .code more) : AllCode mode (text ++ more) := behind first.ends first.same rest

/-! ## Words -/

/-- An identifier, as far as it is made of the characters of a word: it does not begin with a digit. -/
def isIdentifier (word : List Char) : Bool := word.head?.any fun c => !isDigit c

/-- The words of a text. -/
def words (text : List Char) : List (List Char) :=
  (text.splitOnP fun c => !isWordChar c).filter isIdentifier

/-- The identifiers in the code of a text, in their order. -/
def identifiers (text : List Char) : List (List Char) := words (codeOf .code text)

theorem words_nil : words [] = [] := by
  rw [words, List.splitOnP_nil]
  rfl

theorem words_break {c : Char} (stop : isWordChar c = false) (front back : List Char) :
    words (front ++ c :: back) = words front ++ words back := by
  rw [words, List.splitOnP_append_cons front back (by simpa using stop), List.filter_append]
  rfl

/-- No word goes on behind a character that is none of a word. -/
theorem words_append_of_last {front : List Char} (ends : front.getLast?.all (!isWordChar ·) = true)
    (back : List Char) : words (front ++ back) = words front ++ words back := by
  rcases List.eq_nil_or_concat front with rfl | ⟨front, last, rfl⟩
  · rw [words_nil]
    rfl
  · rw [List.concat_eq_append] at ends ⊢
    have stop : isWordChar last = false := by simpa using ends
    rw [List.append_assoc, List.singleton_append, words_break stop, words_break stop, words_nil,
      List.append_nil]

theorem words_append_of_head {back : List Char} (begins : back.head?.all (!isWordChar ·) = true)
    (front : List Char) : words (front ++ back) = words front ++ words back := by
  cases back with
  | nil => rw [words_nil, List.append_nil, List.append_nil]
  | cons c back =>
    have stop : isWordChar c = false := by simpa using begins
    have alone := words_break stop [] back
    rw [words_nil, List.nil_append, List.nil_append] at alone
    rw [words_break stop, alone]

theorem words_breaks_append {text : List Char} (stops : ∀ c ∈ text, isWordChar c = false)
    (back : List Char) : words (text ++ back) = words back := by
  induction text with
  | nil => rfl
  | cons c text ih =>
    obtain ⟨first, later⟩ := List.forall_mem_cons.1 stops
    have cut := words_break first [] (text ++ back)
    rw [words_nil] at cut
    exact cut.trans (ih later)

theorem words_blank (count : Nat) (back : List Char) :
    words (List.replicate count ' ' ++ back) = words back := by
  refine words_breaks_append (fun c member => ?_) back
  rw [List.eq_of_mem_replicate member]
  decide

/-- Characters of a word alone are one word, or none if they begin with a digit. -/
theorem words_whole {text : List Char} (all : ∀ c ∈ text, isWordChar c = true) :
    words text = [text].filter isIdentifier := by
  rw [words, List.splitOnP_eq_singleton fun c member => by simp [all c member]]

theorem words_name {name : List Char} (some : name ≠ []) (letters : ∀ c ∈ name, isLetter c = true) :
    words name = [name] := by
  rw [words_whole fun c member => by simp [isWordChar, letters c member]]
  obtain ⟨c, more, rfl⟩ := List.exists_cons_of_ne_nil some
  have digit : isDigit c = false := Lexeme.isDigit_of_letter (letters c List.mem_cons_self)
  simp [isIdentifier, digit]

theorem words_digits {text : List Char} (digits : Digits text) : words text = [] := by
  obtain ⟨some, all⟩ := digits
  rw [words_whole fun c member => by simp [isWordChar, all c member]]
  obtain ⟨c, more, rfl⟩ := List.exists_cons_of_ne_nil some
  simp [isIdentifier, all c List.mem_cons_self]

/-- A number is no identifier, and holds none. -/
theorem words_numeral {text : List Char} (numeral : Numeral text) : words text = [] := by
  cases numeral with
  | whole written => exact words_digits written
  | decimal written fraction =>
    rw [words_break (by decide), words_digits written, words_digits fraction]
    rfl

/-! ## Lines -/

/-- Identifiers are found line by line where each line is read from code to code. -/
theorem identifiers_unlines {parts : List (List Char)} (each : ∀ part ∈ parts, scan .code part = .code) :
    identifiers (Text.unlines parts) = parts.flatMap identifiers := by
  induction parts with
  | nil => exact words_nil
  | cons part parts ih =>
    obtain ⟨first, later⟩ := List.forall_mem_cons.1 each
    have ended : codeOf .code (part ++ ['\n']) = codeOf .code part ++ ['\n'] := codeOf_append_of first _
    have behind : scan .code (part ++ ['\n']) = .code := by
      rw [scan_append, first]
      rfl
    rw [Text.unlines, List.flatMap_cons, List.flatMap_cons, identifiers, codeOf_append_of behind, ended,
      words_append_of_last (by simp; decide), words_break (by decide), words_nil, List.append_nil]
    exact congrArg _ (ih later)

end LineBasic.C
