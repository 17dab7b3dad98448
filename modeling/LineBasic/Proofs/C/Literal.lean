import LineBasic.Proofs.C.Text
import LineBasic.Proofs.Source.Lines
import LineBasic.Text.Utf8

/-!
# String literals of C and what `printf` makes of them

Three readers of a C text, written down after the rules of C and not after what is written here. `literal?`
reads a string literal, escape sequences included and trigraphs left out. `formatted` is what `printf`
writes for a format that has no arguments. `scan` follows a text from code into literals and comments and
out of them again, so that it can be told whether a quote opens a literal, closes one or is part of a
comment.
-/

namespace LineBasic.C

set_option autoImplicit false

open Lexeme (isDigit isLetter)

/-! ## Literals -/

/-- A part of a string literal. -/
inductive Item where
  /-- A character that stands for itself. -/
  | plain (c : Char)
  /-- An escape sequence for one byte. -/
  | byte (value : Nat)
  /-- A character that is named by its number. -/
  | named (value : Nat)
  deriving DecidableEq

def isOctal (c : Char) : Bool := '0' ≤ c && c ≤ '7'

def isHex (c : Char) : Bool := isDigit c || ('a' ≤ c && c ≤ 'f') || ('A' ≤ c && c ≤ 'F')

def digitValue (c : Char) : Nat :=
  if isDigit c then c.toNat - '0'.toNat
  else if 'a' ≤ c then c.toNat - 'a'.toNat + 10
  else c.toNat - 'A'.toNat + 10

def numeralValue (base : Nat) (digits : List Char) : Nat :=
  digits.foldl (fun value c => base * value + digitValue c) 0

def simpleEscapes : List (Char × Nat) :=
  [('\x27', 39), ('"', 34), ('?', 63), ('\\', 92), ('a', 7), ('b', 8), ('f', 12), ('n', 10), ('r', 13),
    ('t', 9), ('v', 11)]

/-- The character named by so many digits. -/
def namedAfter (width : Nat) (text : List Char) : Option (Item × Nat) :=
  let digits := text.take width
  if digits.length = width ∧ digits.all isHex then some (.named (numeralValue 16 digits), width + 1)
  else none

/-- The escape sequence behind a backslash, and its length. -/
def escape? : List Char → Option (Item × Nat)
  | [] => none
  | c :: rest =>
      match simpleEscapes.lookup c with
      | some value => some (.byte value, 1)
      | none =>
          if isOctal c then
            let digits := ((c :: rest).take 3).takeWhile isOctal
            some (.byte (numeralValue 8 digits), digits.length)
          else if c = 'x' then
            let digits := rest.takeWhile isHex
            if digits.isEmpty then none else some (.byte (numeralValue 16 digits), digits.length + 1)
          else if c = 'u' then namedAfter 4 rest
          else if c = 'U' then namedAfter 8 rest
          else none

/-- Reads a literal up to its closing quote, behind the next `skip` characters, which belong to an escape
sequence. -/
def literalFrom : Nat → List Char → Option (List Item × List Char)
  | _, [] => none
  | skip + 1, _ :: rest => literalFrom skip rest
  | 0, c :: rest =>
      if c = '"' then some ([], rest)
      else if c = '\n' then none
      else if c = '\\' then
        (escape? rest).bind fun (item, length) =>
          (literalFrom length rest).map fun (items, after) => (item :: items, after)
      else (literalFrom 0 rest).map fun (items, after) => (.plain c :: items, after)

/-- The parts of the literal whose opening quote stands before the text, and the text behind it. -/
def literal? (text : List Char) : Option (List Item × List Char) := literalFrom 0 text

/-- A character that stands for itself in a literal. -/
def isLiteral (c : Char) : Bool := c != '"' && c != '\n' && c != '\\'

theorem literal?_plain {c : Char} (stands : isLiteral c = true) (rest : List Char) :
    literal? (c :: rest) = (literal? rest).map fun (items, after) => (.plain c :: items, after) := by
  simp only [isLiteral, Bool.and_eq_true, bne_iff_ne] at stands
  obtain ⟨⟨quote, newline⟩, backslash⟩ := stands
  rw [literal?, literalFrom, if_neg quote, if_neg newline, if_neg backslash]
  rfl

/-- A text before an escaped newline and the closing quote. -/
theorem literal?_line {text : List Char} (stands : ∀ c ∈ text, isLiteral c = true) (after : List Char) :
    literal? (text ++ '\\' :: 'n' :: '"' :: after) = some (text.map .plain ++ [.byte 10], after) := by
  induction text with
  | nil => rfl
  | cons c text ih =>
    obtain ⟨first, later⟩ := List.forall_mem_cons.1 stands
    rw [List.cons_append, literal?_plain first, ih later]
    rfl

/-! ## Formats -/

def percent : UInt8 := 37

/-- What `printf` writes for a format alone, up to the byte that ends the format. A conversion would ask
for an argument; only two percent signs stand for one. -/
def formatted : List UInt8 → Option (List UInt8)
  | [] => some []
  | byte :: rest =>
      if byte = 0 then some []
      else if byte = percent then
        match rest with
        | [] => none
        | next :: rest => if next = percent then (formatted rest).map (percent :: ·) else none
      else (formatted rest).map (byte :: ·)

theorem formatted_plain {bytes : List UInt8} (plain : ∀ byte ∈ bytes, byte ≠ 0 ∧ byte ≠ percent) :
    formatted bytes = some bytes := by
  induction bytes with
  | nil => rfl
  | cons byte bytes ih =>
    obtain ⟨⟨some, sign⟩, later⟩ := List.forall_mem_cons.1 plain
    rw [formatted.eq_def]
    simp only [some, sign, if_false, ih later, Option.map_some]

def Item.bytes : Item → List UInt8
  | .plain c => String.utf8EncodeChar c
  | .byte value => [UInt8.ofNat value]
  | .named value => String.utf8EncodeChar (Char.ofNat value)

/-- What a line prints that calls `printf` with a literal and nothing else. -/
def printed? (line : List Char) : Option (List UInt8) :=
  if "printf(\"".toList.isPrefixOf line then
    (literal? (line.drop 8)).bind fun (items, after) =>
      if after = ");".toList then formatted (items.flatMap Item.bytes) else none
  else none

theorem printed?_literal {text : List Char} (stands : ∀ c ∈ text, isLiteral c = true)
    (after : List Char) :
    printed? ("printf(\"".toList ++ (text ++ '\\' :: 'n' :: '"' :: after)) =
      if after = ");".toList then formatted ((text.map Item.plain ++ [Item.byte 10]).flatMap Item.bytes)
      else none := by
  have called : "printf(\"".toList.isPrefixOf
      ("printf(\"".toList ++ (text ++ '\\' :: 'n' :: '"' :: after)) = true :=
    List.isPrefixOf_iff_prefix.2 (List.prefix_append _ _)
  have behind : ("printf(\"".toList ++ (text ++ '\\' :: 'n' :: '"' :: after)).drop 8 =
      text ++ '\\' :: 'n' :: '"' :: after := rfl
  rw [printed?, if_pos called, behind, literal?_line stands]
  rfl

/-! ## Bytes -/

theorem encode_eq_flatMap (text : String) :
    Text.Utf8.encode text = text.toList.flatMap String.utf8EncodeChar := by
  have whole : text.toByteArray = text.toList.utf8Encode := by
    rw [← String.toByteArray_ofList, String.ofList_toList]
  rw [Text.Utf8.encode, String.toUTF8, whole, List.utf8Encode]
  simp

/-- A character beyond the control characters is written without the bytes that end a format or begin a
conversion, but for the percent sign. -/
theorem utf8EncodeChar_plain {c : Char} (printable : 0x20 ≤ c.toNat) (sign : c ≠ '%') :
    ∀ byte ∈ String.utf8EncodeChar c, byte ≠ 0 ∧ byte ≠ percent := by
  have other : c.toNat ≠ 37 := fun same => sign (Char.ext (UInt32.toNat_inj.1 same))
  have apart (n : Nat) (small : n < 256) (printable : 0x20 ≤ n) (other : n ≠ 37) :
      UInt8.ofNat n ≠ 0 ∧ UInt8.ofNat n ≠ percent := by
    refine ⟨fun same => ?_, fun same => ?_⟩
    · have := congrArg UInt8.toNat same
      simp at this
      omega
    · have := congrArg UInt8.toNat same
      simp [percent] at this
      omega
  intro byte member
  have value : c.val.toNat = c.toNat := rfl
  simp only [String.utf8EncodeChar, value] at member
  split at member
  · rw [List.mem_singleton.1 member]
    exact apart _ (by omega) printable other
  · split at member
    · simp only [List.mem_cons, List.not_mem_nil, or_false] at member
      rcases member with rfl | rfl <;> exact apart _ (by omega) (by omega) (by omega)
    · split at member
      · simp only [List.mem_cons, List.not_mem_nil, or_false] at member
        rcases member with rfl | rfl | rfl <;> exact apart _ (by omega) (by omega) (by omega)
      · simp only [List.mem_cons, List.not_mem_nil, or_false] at member
        rcases member with rfl | rfl | rfl | rfl <;> exact apart _ (by omega) (by omega) (by omega)

/-! ## Code, literals and comments -/

/-- Where a reader of C stands. The last mode is never left again: it takes in what programs here do
without, which is character constants, comments to the end of a line, lines that are continued on the next
one, and literals that are not closed. -/
inductive Mode where
  | code
  /-- Behind a slash that may open a comment. -/
  | slash
  | literal
  /-- Behind a backslash in a literal. -/
  | escape
  | comment
  /-- Behind a star that may close the comment. -/
  | star
  | other
  deriving DecidableEq

namespace Mode

def inCode (c : Char) : Mode :=
  if c = '"' then .literal
  else if c = '/' then .slash
  else if c = '\x27' ∨ c = '\\' then .other
  else .code

def inComment (c : Char) : Mode :=
  if c = '*' then .star else if c = '\\' then .other else .comment

/-- The mode behind one more character. -/
def next : Mode → Char → Mode
  | .code, c => inCode c
  | .slash, c => if c = '*' then .comment else if c = '/' then .other else inCode c
  | .literal, c =>
      if c = '"' then .code else if c = '\\' then .escape else if c = '\n' then .other else .literal
  | .escape, c => if c = '\n' then .other else .literal
  | .comment, c => inComment c
  | .star, c => if c = '/' then .code else inComment c
  | .other, _ => .other

end Mode

/-- The mode behind a text. -/
def scan (mode : Mode) (text : List Char) : Mode := text.foldl Mode.next mode

theorem scan_append (mode : Mode) (text more : List Char) :
    scan mode (text ++ more) = scan (scan mode text) more := List.foldl_append

/-- A character that opens nothing in code. -/
def isCode (c : Char) : Bool := c != '"' && c != '/' && c != '\x27' && c != '\\'

theorem next_code {c : Char} (plain : isCode c = true) : Mode.next .code c = .code := by
  simp only [isCode, Bool.and_eq_true, bne_iff_ne] at plain
  obtain ⟨⟨⟨quote, slash⟩, mark⟩, backslash⟩ := plain
  simp [Mode.next, Mode.inCode, quote, slash, mark, backslash]

theorem scan_code {text : List Char} (plain : ∀ c ∈ text, isCode c = true) :
    scan .code text = .code := by
  induction text with
  | nil => rfl
  | cons c text ih =>
    obtain ⟨first, later⟩ := List.forall_mem_cons.1 plain
    show scan (Mode.next .code c) text = .code
    rw [next_code first, ih later]

theorem next_literal {c : Char} (stands : isLiteral c = true) : Mode.next .literal c = .literal := by
  simp only [isLiteral, Bool.and_eq_true, bne_iff_ne] at stands
  obtain ⟨⟨quote, newline⟩, backslash⟩ := stands
  simp [Mode.next, quote, newline, backslash]

theorem scan_literal {text : List Char} (stands : ∀ c ∈ text, isLiteral c = true) :
    scan .literal text = .literal := by
  induction text with
  | nil => rfl
  | cons c text ih =>
    obtain ⟨first, later⟩ := List.forall_mem_cons.1 stands
    show scan (Mode.next .literal c) text = .literal
    rw [next_literal first, ih later]

theorem next_comment {c : Char} (plain : c ≠ '*' ∧ c ≠ '\\') : Mode.next .comment c = .comment := by
  simp [Mode.next, Mode.inComment, plain.1, plain.2]

theorem scan_comment {text : List Char} (plain : ∀ c ∈ text, c ≠ '*' ∧ c ≠ '\\') :
    scan .comment text = .comment := by
  induction text with
  | nil => rfl
  | cons c text ih =>
    obtain ⟨first, later⟩ := List.forall_mem_cons.1 plain
    show scan (Mode.next .comment c) text = .comment
    rw [next_comment first, ih later]

theorem isCode_of_word {c : Char} (word : isLetter c = true ∨ isDigit c = true ∨ c = '.') :
    isCode c = true ∧ c ≠ '*' := by
  have apart (d : Char) (other : ¬ (isLetter d = true ∨ isDigit d = true ∨ d = '.')) : c ≠ d := by
    rintro rfl
    exact other word
  simp [isCode, apart '"' (by decide), apart '/' (by decide), apart '\x27' (by decide),
    apart '\\' (by decide), apart '*' (by decide)]

/-- No word makes a comment of the slash before it. -/
theorem next_slash_of_word {c : Char} (word : isLetter c = true ∨ isDigit c = true ∨ c = '.') :
    Mode.next .slash c = .code := by
  obtain ⟨plain, star⟩ := isCode_of_word word
  have slash : c ≠ '/' := by
    rintro rfl
    cases plain
  rw [← next_code plain]
  simp [Mode.next, star, slash]

theorem scan_unlines {parts : List (List Char)} (each : ∀ part ∈ parts, scan .code part = .code) :
    scan .code (Text.unlines parts) = .code := by
  induction parts with
  | nil => rfl
  | cons part parts ih =>
    obtain ⟨first, later⟩ := List.forall_mem_cons.1 each
    rw [Text.unlines, List.flatMap_cons, scan_append, scan_append, first]
    exact ih later

end LineBasic.C
