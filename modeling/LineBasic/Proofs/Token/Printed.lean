import LineBasic.Proofs.Syntax.Words

/-!
# Printed tokens are read back

Words can be printed one after the other with any blanks between neighbours. Blanks are needed only where
two neighbours would run together: between two names or keywords, between two numbers, and between a mark
that an equals sign extends and a mark that begins with one (`Kind.runsInto`). Whatever blanks are chosen,
a scanner finds the words again, and behind them the newline that it puts after the text and the end
(`scan_printed`).

What a token can begin with is all that matters to the token before it: `Kind.opens` lists these
characters, and `takes_of_opens` says when they cannot be taken for a part of it.
-/

namespace LineBasic

set_option autoImplicit false

open Lexeme (isDigit isLetter isStringChar)

/-! ## Neighbours -/

/-- The character that an operator begins with. -/
def Operator.first : Operator → Char
  | .assign | .equal => '='
  | .plus => '+'
  | .minus => '-'
  | .times => '*'
  | .divide => '/'
  | .greater | .atLeast => '>'
  | .less | .atMost => '<'
  | .notEqual => '!'

namespace Kind

/-- A name or a keyword. -/
def isWord : Kind → Bool
  | .ident | .keyword _ => true
  | _ => false

/-- A mark that becomes another one if an equals sign follows. -/
def isExtensible : Kind → Bool
  | .operator .assign | .operator .less | .operator .greater => true
  | _ => false

/-- A mark that begins with an equals sign. -/
def isEquals : Kind → Bool
  | .operator .assign | .operator .equal => true
  | _ => false

/-- Neighbours that cannot stand side by side without a blank. -/
def runsInto (left right : Kind) : Bool :=
  left.isWord && right.isWord || left == .number && right == .number
    || left.isExtensible && right.isEquals

/-- The characters that a token of a kind can begin with. -/
def opens : Kind → Char → Bool
  | .newline, c => c == '\n'
  | .eof, _ | .unknown, _ => false
  | .number, c => isDigit c
  | .ident, c | .keyword _, c => isLetter c
  | .string, c => c == '"'
  | .operator op, c => c == op.first

theorem keyword_letters (word : Keyword) :
    word.spelling.toList ≠ [] ∧ ∀ c ∈ word.spelling.toList, isLetter c = true := by
  refine ⟨by cases word <;> decide, List.all_eq_true.1 ?_⟩
  cases word <;> decide

end Kind

theorem Spelled.opens {kind : Kind} {text : List Char} (spelled : Spelled kind text)
    (more : kind ≠ .eof) : ∃ c tail, kind.written text = c :: tail ∧ kind.opens c = true := by
  have headed {p : Char → Bool} {run : List Char} (some : run ≠ []) (all : ∀ c ∈ run, p c = true) :
      ∃ c tail, run = c :: tail ∧ p c = true := by
    obtain ⟨c, tail, rfl⟩ := List.exists_cons_of_ne_nil some
    exact ⟨c, tail, rfl, all c List.mem_cons_self⟩
  cases kind with
  | newline => exact ⟨'\n', [], spelled, rfl⟩
  | eof => exact absurd rfl more
  | unknown => exact spelled.elim
  | number =>
    cases spelled with
    | whole written => exact headed written.1 written.2
    | decimal written fraction =>
      obtain ⟨c, tail, rfl, digit⟩ := headed written.1 written.2
      exact ⟨c, _, rfl, digit⟩
  | ident => exact headed spelled.1 spelled.2.1
  | string => exact ⟨'"', text ++ ['"'], rfl, rfl⟩
  | keyword word =>
    obtain ⟨some, letters⟩ := Kind.keyword_letters word
    rw [show text = _ from spelled]
    exact headed some letters
  | operator op =>
    rw [show text = _ from spelled]
    cases op <;> exact ⟨_, _, rfl, rfl⟩

namespace Kind

/-- What the first character of a token tells of its kind. -/
theorem class_of_opens {kind : Kind} {c : Char} (opens : kind.opens c = true) :
    (isLetter c = true → kind.isWord = true) ∧ (isDigit c = true → kind = .number) ∧
      (c = '=' → kind.isEquals = true) := by
  have word (letter : isLetter c = true) : isDigit c ≠ true ∧ c ≠ '=' := by
    refine ⟨by simp [Lexeme.isDigit_of_letter letter], ?_⟩
    rintro rfl
    cases letter
  cases kind with
  | newline =>
    obtain rfl : c = '\n' := beq_iff_eq.1 opens
    decide
  | eof | unknown => cases opens
  | number =>
    refine ⟨fun letter => absurd opens (word letter).1, fun _ => rfl, ?_⟩
    rintro rfl
    cases opens
  | ident | keyword =>
    exact ⟨fun _ => rfl, fun digit => absurd digit (word opens).1,
      fun equals => absurd equals (word opens).2⟩
  | string =>
    obtain rfl : c = '"' := beq_iff_eq.1 opens
    decide
  | operator op =>
    obtain rfl : c = op.first := beq_iff_eq.1 opens
    cases op <;> decide

/-- No token begins like a gap, or like the decimal places of a number. -/
theorem opens_apart {kind : Kind} {c : Char} (opens : kind.opens c = true) :
    c ∉ [' ', '\t', '\r', '#', '.'] := by
  have none : ([' ', '\t', '\r', '#', '.'].all fun d => !kind.opens d) = true := by
    cases kind with
    | operator op => cases op <;> rfl
    | _ => rfl
  intro listed
  have other := List.all_eq_true.1 none c listed
  simp [opens] at other

/-- A token that does not run into another one takes no character that the other can begin with. -/
theorem takes_of_opens {left right : Kind} {c : Char} (apart : left.runsInto right = false)
    (opens : right.opens c = true) : left.takes c = false := by
  obtain ⟨letter, digit, equals⟩ := class_of_opens opens
  by_contra taken
  rw [Bool.not_eq_false] at taken
  have together : left.runsInto right = true := by
    unfold takes at taken
    split at taken
    case h_3 => simp [runsInto, digit taken]
    case h_7 => cases taken
    case h_1 | h_2 => rw [runsInto, letter taken]; rfl
    all_goals simp [runsInto, isExtensible, equals (beq_iff_eq.1 taken)]
  rw [together] at apart
  cases apart

theorem takes_of_blank (kind : Kind) {c : Char} (blank : Scanner.isBlank c = true) :
    kind.takes c = false := by
  simp only [Scanner.isBlank, Bool.or_eq_true, beq_iff_eq] at blank
  unfold takes
  rcases blank with (rfl | rfl) | rfl <;> split <;> rfl

end Kind

/-! ## One token -/

namespace Lexeme

/-- A run of a class, before a character that is not of the class. -/
theorem span_run {p : Char → Bool} {run rest : List Char} (inside : ∀ c ∈ run, p c = true)
    (stops : ∀ c ∈ rest.head?, p c = false) :
    (run ++ rest).takeWhile p = run ∧ (run ++ rest).dropWhile p = rest := by
  rw [List.takeWhile_append_of_pos inside, List.dropWhile_append_of_pos inside]
  cases rest with
  | nil => simp
  | cons c rest => simp [stops c rfl]

theorem read_digit {c : Char} (digit : isDigit c = true) (rest : List Char) :
    read (c :: rest) = readNumber (c :: rest) := by
  unfold read
  split
  case h_1 same => cases same
  case h_16 same => cases same; rw [if_pos digit]
  all_goals rename_i same; cases same; cases digit

theorem read_letter {c : Char} (letter : isLetter c = true) (rest : List Char) :
    read (c :: rest) = .ok (readWord (c :: rest)) := by
  have other : ¬ isDigit c = true := by simp [isDigit_of_letter letter]
  unfold read
  split
  case h_1 same => cases same
  case h_16 same => cases same; rw [if_neg other, if_pos letter]
  all_goals rename_i same; cases same; cases letter

theorem read_word {text rest : List Char} (some : text ≠ []) (letters : ∀ c ∈ text, isLetter c = true)
    (stops : ∀ c ∈ rest.head?, isLetter c = false) :
    read (text ++ rest) = .ok ⟨.ofWord (String.ofList text), text, text.length⟩ := by
  have run := (span_run letters stops).1
  obtain ⟨c, tail, rfl⟩ := List.exists_cons_of_ne_nil some
  rw [List.cons_append, read_letter (letters c List.mem_cons_self), readWord, ← List.cons_append, run]

theorem read_numeral {text rest : List Char} (numeral : Numeral text)
    (stops : ∀ c ∈ rest.head?, isDigit c = false) (point : rest.head? ≠ some '.') :
    read (text ++ rest) = .ok ⟨.number, text, text.length⟩ := by
  have begins {digits : List Char} (written : Digits digits) (more : List Char) :
      read (digits ++ more) = readNumber (digits ++ more) := by
    obtain ⟨c, tail, rfl⟩ := List.exists_cons_of_ne_nil written.1
    exact read_digit (written.2 c List.mem_cons_self) _
  cases numeral with
  | whole written =>
    obtain ⟨front, behind⟩ := span_run written.2 stops
    rw [begins written, readNumber, front, behind]
    split
    · exact absurd rfl point
    · rfl
  | @decimal digits places written fraction =>
    have pointed : ∀ c ∈ ('.' :: (places ++ rest)).head?, isDigit c = false := by
      simp only [List.head?_cons, Option.mem_some_iff, forall_eq']
      decide
    obtain ⟨front, behind⟩ := span_run written.2 pointed
    obtain ⟨decimals, -⟩ := span_run fraction.2 stops
    rw [List.append_assoc, List.cons_append, begins written, readNumber, front, behind]
    simp only [decimals]
    rw [if_neg (by simp [fraction.1])]

theorem read_quoted {text : List Char} (spelled : ∀ c ∈ text, isStringChar c = true)
    (rest : List Char) :
    read ('"' :: text ++ ['"'] ++ rest) = .ok ⟨.string, text, text.length + 2⟩ := by
  have closed : ∀ c ∈ ('"' :: rest).head?, isStringChar c = false := by
    simp only [List.head?_cons, Option.mem_some_iff, forall_eq']
    decide
  obtain ⟨front, behind⟩ := span_run spelled closed
  show readString (text ++ ['"'] ++ rest) = _
  rw [List.append_assoc, List.singleton_append, readString, front, behind]
  rfl

theorem read_operator {op : Operator} {rest : List Char}
    (stops : ∀ c ∈ rest.head?, (Kind.operator op).takes c = false) :
    read (op.spelling.toList ++ rest) =
      .ok ⟨.operator op, op.spelling.toList, op.spelling.toList.length⟩ := by
  have apart (takes : (Kind.operator op).takes '=' = true) (tail : List Char) :
      rest ≠ '=' :: tail := by
    rintro rfl
    rw [stops '=' rfl] at takes
    cases takes
  cases op with
  | assign => simp [Operator.spelling, read, apart rfl]
  | less => simp [Operator.spelling, read, apart rfl]
  | greater => simp [Operator.spelling, read, apart rfl]
  | _ => rfl

/-- A token is read back from a text that begins with it, if it is complete there. A number must also not
be followed by a point, which would ask for decimal places. -/
theorem read_written {kind : Kind} {text rest : List Char} (spelled : Spelled kind text)
    (more : kind ≠ .eof) (stops : ∀ c ∈ rest.head?, kind.takes c = false)
    (point : rest.head? ≠ some '.') :
    read (kind.written text ++ rest) = .ok ⟨kind, text, (kind.written text).length⟩ := by
  cases kind with
  | newline => rw [show text = ['\n'] from spelled]; rfl
  | eof => exact absurd rfl more
  | unknown => exact spelled.elim
  | number => exact read_numeral spelled stops point
  | ident =>
    obtain ⟨some, letters, free⟩ := spelled
    have found := read_word some letters stops
    rwa [Kind.ofWord, free] at found
  | string =>
    have found := read_quoted spelled rest
    simpa [Kind.written] using found
  | keyword word =>
    obtain ⟨some, letters⟩ := Kind.keyword_letters word
    have kind : Kind.ofWord (String.ofList word.spelling.toList) = .keyword word := by
      cases word <;> decide
    rw [show text = _ from spelled]
    have found := read_word some letters stops
    rwa [kind] at found
  | operator op =>
    rw [show text = _ from spelled]
    exact read_operator stops

end Lexeme

/-! ## All tokens -/

namespace Word

/-- A word as it stands in a source. -/
def written (word : Word) : List Char := word.kind.written word.text.toList

/-- A word that a token other than the end can carry. -/
structure IsSpelled (word : Word) : Prop where
  more : word.kind ≠ .eof
  spelled : Spelled word.kind word.text.toList

end Word

/-- The texts that words can be printed as: one word after the other, with blanks between neighbours. Only
between neighbours that do not run together can there be none. -/
inductive Printed : List Word → List Char → Prop where
  | nil : Printed [] []
  | single (word : Word) : Printed [word] word.written
  | cons (word : Word) (blanks : List Char) {next : Word} {words : List Word} {text : List Char}
      (blank : ∀ c ∈ blanks, Scanner.isBlank c = true)
      (apart : blanks = [] → word.kind.runsInto next.kind = false)
      (more : Printed (next :: words) text) :
      Printed (word :: next :: words) (word.written ++ (blanks ++ text))

theorem Printed.opens {word : Word} {words : List Word} {text : List Char}
    (printed : Printed (word :: words) text) (spelled : word.IsSpelled) :
    ∃ c tail, text = c :: tail ∧ word.kind.opens c = true := by
  obtain ⟨c, tail, written, opens⟩ := spelled.spelled.opens spelled.more
  cases printed with
  | single => exact ⟨c, tail, written, opens⟩
  | @cons _ blanks _ _ text blank apart more =>
    refine ⟨c, tail ++ (blanks ++ text), ?_, opens⟩
    rw [Word.written, written, List.cons_append]

namespace Scanner

theorem skipGap_rest {c : Cursor} {blanks text : List Char} (blank : ∀ d ∈ blanks, isBlank d = true)
    (begins : ∀ d ∈ text.head?, isBlank d = false ∧ d ≠ '#') (stands : c.rest = blanks ++ text) :
    (skipGap c).rest = text := by
  obtain ⟨front, -⟩ := Lexeme.span_run blank fun d first => (begins d first).1
  have passed : (skipBlanks c).rest = text := by
    rw [skipBlanks, Cursor.skipWhile, Cursor.skip_rest, stands, front, List.drop_left]
  have noComment : (skipBlanks c).current? ≠ some '#' := by
    rw [Cursor.current?, passed]
    intro hash
    exact (begins '#' hash).2 rfl
  rw [skipGap, skipComment, if_neg noComment, passed]

/-- One step hands out the word that is printed next, blanks before it or not. -/
theorem next_written {sc : Scanner} {word : Word} {blanks rest : List Char} (spelled : word.IsSpelled)
    (blank : ∀ c ∈ blanks, isBlank c = true)
    (stops : ∀ c ∈ rest.head?, word.kind.takes c = false) (point : rest.head? ≠ some '.')
    (stands : sc.cursor.rest = blanks ++ (word.written ++ rest)) :
    ∃ token sc', next sc = .ok token sc' ∧ token.word = word ∧ sc'.cursor.rest = rest := by
  obtain ⟨c, tail, written, opens⟩ := spelled.spelled.opens spelled.more
  have here : (skipGap sc.cursor).rest = word.written ++ rest := by
    refine skipGap_rest blank ?_ stands
    rw [Word.written, written]
    have apart := Kind.opens_apart opens
    simp_all [isBlank]
  have found := Lexeme.read_written spelled.spelled spelled.more stops point
  unfold next
  dsimp only
  rw [here, Word.written, found]
  refine ⟨_, _, rfl, ?_, ?_⟩
  · simp [Token.word]
  · simp [here, Word.written]

/-- Behind the last word there is the newline that was put after the text, and the end. -/
theorem stream_closing {sc : Scanner} (blanks : List Char) (blank : ∀ c ∈ blanks, isBlank c = true)
    (stands : sc.cursor.rest = blanks ++ ['\n']) :
    sc.stream.fault = none ∧ sc.stream.tokens.map Token.word = [.newline, .eof] := by
  obtain ⟨token, sc', step, word, rest⟩ := @next_written sc .newline blanks []
    ⟨by decide, rfl⟩ blank (by simp) (by simp) stands
  have more : token.kind ≠ .eof := by
    rw [← Token.word_kind, word]
    decide
  have ended := next_at_end rest
  rw [stream_of_ok step, Stream.cons_of_more more, stream_of_ok ended, Stream.cons_of_end rfl]
  exact ⟨rfl, by simp [word]; rfl⟩

/-- Before a newline every token is complete. -/
theorem takes_newline (kind : Kind) : kind.takes '\n' = false := by
  unfold Kind.takes
  split <;> rfl

/-- All steps together hand out the words that were printed. -/
theorem stream_printed {words : List Word} {text : List Char} (printed : Printed words text) :
    ∀ (sc : Scanner) (blanks : List Char), (∀ word ∈ words, word.IsSpelled) →
      (∀ c ∈ blanks, isBlank c = true) → sc.cursor.rest = blanks ++ (text ++ ['\n']) →
      sc.stream.fault = none ∧ sc.stream.tokens.map Token.word = words ++ [.newline, .eof] := by
  have first {sc sc' : Scanner} {token : Token} {word : Word} {words : List Word}
      (spelled : word.IsSpelled) (step : next sc = .ok token sc') (same : token.word = word)
      (later : sc'.stream.fault = none ∧ sc'.stream.tokens.map Token.word = words) :
      sc.stream.fault = none ∧ sc.stream.tokens.map Token.word = word :: words := by
    have more : token.kind ≠ .eof := by
      rw [← Token.word_kind, same]
      exact spelled.more
    rw [stream_of_ok step, Stream.cons_of_more more]
    exact ⟨later.1, by rw [List.map_cons, same, later.2]⟩
  induction printed with
  | nil =>
    intro sc blanks _ blank stands
    exact stream_closing blanks blank stands
  | single word =>
    intro sc blanks spelled blank stands
    have here := spelled word List.mem_cons_self
    obtain ⟨token, sc', step, same, rest⟩ := next_written here blank
      (by simpa using takes_newline word.kind) (by simp) stands
    exact first here step same (stream_closing [] nofun rest)
  | @cons word gap next words text between apart more ih =>
    intro sc blanks spelled blank stands
    obtain ⟨here, later⟩ := List.forall_mem_cons.1 spelled
    obtain ⟨c, tail, rfl, opens⟩ := more.opens (later next List.mem_cons_self)
    -- What follows the word is a blank, or the next word if the two do not run together.
    have follows : ∀ d ∈ (gap ++ (c :: tail ++ ['\n'])).head?,
        word.kind.takes d = false ∧ d ≠ '.' := by
      intro d isFirst
      cases gap with
      | nil =>
        obtain rfl : c = d := by simpa using isFirst
        refine ⟨Kind.takes_of_opens (apart rfl) opens, ?_⟩
        rintro rfl
        exact Kind.opens_apart opens (by decide)
      | cons b gap =>
        obtain rfl : b = d := by simpa using isFirst
        have blank := between b List.mem_cons_self
        refine ⟨Kind.takes_of_blank _ blank, ?_⟩
        rintro rfl
        cases blank
    obtain ⟨token, sc', step, same, rest⟩ := next_written here blank
      (fun d isFirst => (follows d isFirst).1) (fun point => (follows '.' point).2 rfl)
      (by simpa using stands)
    exact first here step same (ih sc' gap later between rest)

end Scanner

/-- **Scanning undoes printing.** -/
theorem scan_printed (file source : String) {words : List Word} (spelled : ∀ word ∈ words, word.IsSpelled)
    (printed : Printed words source.toList) :
    (Scanner.start file source).drain.fault = none ∧
      (Scanner.start file source).drain.tokens.map Token.word = words ++ [.newline, .eof] :=
  Scanner.stream_printed printed _ [] spelled nofun rfl

/-- Words that touch wherever they can: a name and a number, two marks with equals signs, a string and what
is around it. -/
theorem scan_printed_touching :
    let words : List Word := [⟨.keyword .if_, "IF"⟩, ⟨.ident, "x"⟩, ⟨.number, "1.5"⟩,
      ⟨.operator .notEqual, "!="⟩, ⟨.operator .assign, "="⟩, ⟨.operator .equal, "=="⟩,
      ⟨.string, "#"⟩, ⟨.newline, "\n"⟩, ⟨.number, "2"⟩, ⟨.keyword .let_, "LET"⟩]
    let source := "IF\tx1.5!== ==\"#\"\n2LET"
    (∀ word ∈ words, word.IsSpelled) ∧ Printed words source.toList ∧
      (Scanner.start "demo" source).drain.fault = none ∧
      (Scanner.start "demo" source).drain.tokens.map Token.word = words ++ [.newline, .eof] := by
  intro words source
  have letters : ∀ c ∈ "x".toList, Lexeme.isLetter c = true := List.all_eq_true.1 (by decide)
  have digit (c : Char) (isDigit : Lexeme.isDigit c = true) : Digits [c] := ⟨nofun, by simpa⟩
  have decimal : Numeral "1.5".toList := .decimal (digit '1' rfl) (digit '5' rfl)
  have spelled : ∀ word ∈ words, word.IsSpelled := by
    simp only [words, List.forall_mem_cons]
    exact ⟨⟨nofun, rfl⟩, ⟨nofun, by decide, letters, by decide⟩, ⟨nofun, decimal⟩, ⟨nofun, rfl⟩, ⟨nofun, rfl⟩,
      ⟨nofun, rfl⟩, ⟨nofun, List.all_eq_true.1 (by decide)⟩, ⟨nofun, rfl⟩, ⟨nofun, .whole (digit '2' rfl)⟩,
      ⟨nofun, rfl⟩, nofun⟩
  have printed : Printed words source.toList := by
    have built := Printed.cons ⟨.keyword .if_, "IF"⟩ ['\t'] (by simp [Scanner.isBlank]) nofun <|
      .cons ⟨.ident, "x"⟩ [] nofun (fun _ => rfl) <|
      .cons ⟨.number, "1.5"⟩ [] nofun (fun _ => rfl) <|
      .cons ⟨.operator .notEqual, "!="⟩ [] nofun (fun _ => rfl) <|
      .cons ⟨.operator .assign, "="⟩ [' '] (by simp [Scanner.isBlank]) nofun <|
      .cons ⟨.operator .equal, "=="⟩ [] nofun (fun _ => rfl) <|
      .cons ⟨.string, "#"⟩ [] nofun (fun _ => rfl) <|
      .cons ⟨.newline, "\n"⟩ [] nofun (fun _ => rfl) <|
      .cons ⟨.number, "2"⟩ [] nofun (fun _ => rfl) <|
      .single ⟨.keyword .let_, "LET"⟩
    exact Eq.mp (congrArg (Printed words) (by decide +kernel)) built
  exact ⟨spelled, printed, scan_printed "demo" source spelled printed⟩

end LineBasic
