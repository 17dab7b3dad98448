import LineBasic.Proofs.Token.Spelling

/-!
# The tokens of a C expression

C splits its text greedily: a token takes in every next character with which it is still a token. `lex`
does so for the tokens that expressions are made of, one character at a time, with the token that is
being made at hand. The marks are all in the table from which it chooses, also those that begin
comments, so that a text in which two operators run together is split as C splits it.

An operand ends where an operator or a parenthesis comes, and an operator ends where an operand begins.
-/

namespace LineBasic.C

set_option autoImplicit false

open Lexeme (isDigit isLetter isDigit_of_letter)

inductive Token where
  /-- An identifier or a keyword. -/
  | word (text : List Char)
  | number (text : List Char)
  | mark (text : List Char)
  deriving DecidableEq

/-- The marks of C that can stand in an expression, and the beginnings of comments. -/
def marks : List (List Char) :=
  ["+", "-", "*", "/", "%", "=", "<", ">", "!", "&", "|", "^", "~", "?", ":", ",", "(", ")", "[", "]",
    ".", "++", "--", "//", "/*", "<<", ">>", "->", "<=", ">=", "==", "!=", "&&", "||", "+=", "-=",
    "*=", "/=", "%=", "&=", "|=", "^=", "<<=", ">>="].map String.toList

/-- Marks that come about where two operators run together. -/
def fusedMarks : List (List Char) :=
  ["++", "--", "//", "/*", "<<", ">>", "->", "+=", "-=", "*=", "/=", "%=", "&=", "|=", "^=", "<<=",
    ">>="].map String.toList

def Token.isFused : Token → Bool
  | .mark text => fusedMarks.contains text
  | .word _ | .number _ => false

def isWordChar (c : Char) : Bool := isLetter c || isDigit c || c == '_'

/-- A number takes in letters, digits, points, and a sign after the letter of an exponent. -/
def continuesNumber (text : List Char) (c : Char) : Bool :=
  isWordChar c || c == '.' ||
    ((c == '+' || c == '-') && text.getLast?.any fun last => ['e', 'E', 'p', 'P'].contains last)

/-- The token with one more character, if that is a token. -/
def extend : Token → Char → Option Token
  | .word text, c => if isWordChar c then some (.word (text ++ [c])) else none
  | .number text, c => if continuesNumber text c then some (.number (text ++ [c])) else none
  | .mark text, c =>
      if text = ['.'] ∧ isDigit c then some (.number ['.', c])
      else if marks.contains (text ++ [c]) then some (.mark (text ++ [c]))
      else none

/-- The token that a character begins. -/
def begin? (c : Char) : Option Token :=
  if isDigit c then some (.number [c])
  else if isLetter c || c == '_' then some (.word [c])
  else if marks.contains [c] then some (.mark [c])
  else none

/-- The tokens of a text, `pending` being the one that is made. -/
def lex (pending : Option Token) : List Char → Option (List Token)
  | [] => some pending.toList
  | c :: rest =>
      match pending.bind fun token => extend token c with
      | some longer => lex (some longer) rest
      | none =>
          if c = ' ' then (lex none rest).map (pending.toList ++ ·)
          else (begin? c).bind fun token => (lex (some token) rest).map (pending.toList ++ ·)

/-- A token that cannot take in the next character is done. -/
theorem lex_done {token : Token} {rest : List Char}
    (closed : ∀ c, rest.head? = some c → extend token c = none) :
    lex (some token) rest = (lex none rest).map (token :: ·) := by
  cases rest with
  | nil => rfl
  | cons c rest =>
    have ends : (some token).bind (fun token => extend token c) = none := closed c rfl
    rw [lex, ends, lex]
    dsimp only [Option.bind_none]
    split
    · rw [Option.map_map]
      rfl
    · rw [Option.map_bind]
      congr 1
      funext other
      rw [Function.comp, Option.map_map]
      rfl

/-! ## Words and numbers -/

/-- A character after which an operand is over. -/
def isStop (c : Char) : Bool := ['+', '-', '*', '/', ')', '<', '>', '=', '!'].contains c

/-- The text ends, or an operator or a parenthesis comes. -/
def Stops (rest : List Char) : Prop := ∀ c, rest.head? = some c → isStop c = true

theorem stops_nil : Stops [] := nofun

theorem stops_cons {c : Char} (stop : isStop c = true) (rest : List Char) : Stops (c :: rest) := by
  intro d same
  cases same
  exact stop

theorem isStop_cases {c : Char} (stop : isStop c = true) :
    isWordChar c = false ∧ (c == '.') = false ∧ c ≠ ' ' := by
  have member : c ∈ ['+', '-', '*', '/', ')', '<', '>', '=', '!'] := List.contains_iff_mem.1 stop
  simp only [List.mem_cons, List.not_mem_nil, or_false] at member
  rcases member with rfl | rfl | rfl | rfl | rfl | rfl | rfl | rfl | rfl <;> decide

theorem extend_word_stop (text : List Char) {c : Char} (stop : isStop c = true) :
    extend (.word text) c = none := by
  simp [extend, (isStop_cases stop).1]

/-- A number that ends in a digit is over where an operator comes, a sign too. -/
theorem extend_number_stop {text : List Char} {last c : Char} (ends : text.getLast? = some last)
    (digit : isDigit last = true) (stop : isStop c = true) : extend (.number text) c = none := by
  have noExponent : ['e', 'E', 'p', 'P'].contains last = false := by
    by_contra letter
    rw [Bool.not_eq_false, List.contains_iff_mem] at letter
    simp only [List.mem_cons, List.not_mem_nil, or_false] at letter
    rcases letter with rfl | rfl | rfl | rfl <;> cases digit
  obtain ⟨apart, point, -⟩ := isStop_cases stop
  simp only [extend, continuesNumber, apart, point, ends, Option.any_some, noExponent, Bool.and_false,
    Bool.or_false, Bool.false_eq_true, if_false]

theorem lex_word_extend (text more rest : List Char) (letters : ∀ c ∈ more, isLetter c = true) :
    lex (some (.word text)) (more ++ rest) = lex (some (.word (text ++ more))) rest := by
  induction more generalizing text with
  | nil => rw [List.append_nil, List.nil_append]
  | cons c more ih =>
    obtain ⟨letter, later⟩ := List.forall_mem_cons.1 letters
    have longer : (some (Token.word text)).bind (fun token => extend token c) =
        some (.word (text ++ [c])) := by
      simp [extend, isWordChar, letter]
    rw [List.cons_append, lex, longer]
    dsimp only
    rw [ih _ later, List.append_assoc, List.singleton_append]

theorem lex_number_extend (text more rest : List Char)
    (digits : ∀ c ∈ more, isDigit c = true ∨ c = '.') :
    lex (some (.number text)) (more ++ rest) = lex (some (.number (text ++ more))) rest := by
  induction more generalizing text with
  | nil => rw [List.append_nil, List.nil_append]
  | cons c more ih =>
    obtain ⟨digit, later⟩ := List.forall_mem_cons.1 digits
    have longer : (some (Token.number text)).bind (fun token => extend token c) =
        some (.number (text ++ [c])) := by
      rcases digit with digit | rfl
      · simp [extend, continuesNumber, isWordChar, digit]
      · simp [extend, continuesNumber]
    rw [List.cons_append, lex, longer]
    dsimp only
    rw [ih _ later, List.append_assoc, List.singleton_append]

theorem not_blank_of_alnum {c : Char} (alnum : isDigit c = true ∨ isLetter c = true) : c ≠ ' ' := by
  rintro rfl
  rcases alnum with digit | letter
  · cases digit
  · cases letter

/-- A name is one word. -/
theorem lex_name {text rest : List Char} (some : text ≠ []) (letters : ∀ c ∈ text, isLetter c = true)
    (stops : Stops rest) : lex none (text ++ rest) = (lex none rest).map (.word text :: ·) := by
  obtain ⟨c, more, rfl⟩ := List.exists_cons_of_ne_nil some
  obtain ⟨letter, later⟩ := List.forall_mem_cons.1 letters
  have begins : begin? c = .some (.word [c]) := by simp [begin?, isDigit_of_letter letter, letter]
  rw [List.cons_append, lex]
  simp only [Option.bind_none, not_blank_of_alnum (.inr letter), if_false, begins, Option.bind_some,
    Option.toList_none, List.nil_append, Option.map_id_fun']
  rw [lex_word_extend _ _ _ later, List.singleton_append]
  exact lex_done fun d next => extend_word_stop _ (stops d next)

/-- A number is a digit followed by digits and points, the last of them a digit. -/
theorem numeral_cases {text : List Char} (numeral : Numeral text) :
    ∃ c more, text = c :: more ∧ isDigit c = true ∧ (∀ d ∈ more, isDigit d = true ∨ d = '.') ∧
      ∃ last, text.getLast? = some last ∧ isDigit last = true := by
  have ends {digits : List Char} (written : Digits digits) (front : List Char) :
      ∃ last, (front ++ digits).getLast? = some last ∧ isDigit last = true := by
    obtain ⟨some, all⟩ := written
    refine ⟨digits.getLast some, ?_, all _ (List.getLast_mem some)⟩
    rw [List.getLast?_append, List.getLast?_eq_some_getLast some, Option.some_or]
  cases numeral with
  | whole written =>
    have last := ends written []
    obtain ⟨some, all⟩ := written
    obtain ⟨c, more, rfl⟩ := List.exists_cons_of_ne_nil some
    obtain ⟨digit, later⟩ := List.forall_mem_cons.1 all
    exact ⟨c, more, rfl, digit, fun d member => .inl (later d member), last⟩
  | @decimal digits places written fraction =>
    have last := ends fraction (digits ++ ['.'])
    rw [List.append_assoc, List.singleton_append] at last
    obtain ⟨some, all⟩ := written
    obtain ⟨c, more, rfl⟩ := List.exists_cons_of_ne_nil some
    obtain ⟨digit, later⟩ := List.forall_mem_cons.1 all
    refine ⟨c, more ++ '.' :: places, rfl, digit, fun d member => ?_, last⟩
    rcases List.mem_append.1 member with whole | member
    · exact .inl (later d whole)
    · rcases List.mem_cons.1 member with point | place
      · exact .inr point
      · exact .inl (fraction.2 d place)

theorem lex_numeral {text rest : List Char} (numeral : Numeral text) (stops : Stops rest) :
    lex none (text ++ rest) = (lex none rest).map (.number text :: ·) := by
  obtain ⟨c, more, rfl, digit, later, last, ends, lastDigit⟩ := numeral_cases numeral
  have begins : begin? c = some (.number [c]) := by simp [begin?, digit]
  rw [List.cons_append, lex]
  simp only [Option.bind_none, not_blank_of_alnum (.inl digit), if_false, begins, Option.bind_some,
    Option.toList_none, List.nil_append, Option.map_id_fun']
  rw [lex_number_extend _ _ _ later, List.singleton_append]
  exact lex_done fun d next => extend_number_stop ends lastDigit (stops d next)

/-! ## Marks -/

/-- The text begins with an operand. -/
def Opens (text : List Char) : Prop :=
  ∃ c, text.head? = some c ∧ (isDigit c = true ∨ isLetter c = true ∨ c = '(')

/-- No mark holds a letter or a digit. -/
theorem marks_plain : ∀ mark ∈ marks, ∀ c ∈ mark, isDigit c = false ∧ isLetter c = false := by
  have plain : (marks.all fun mark => mark.all fun c => !isDigit c && !isLetter c) = true := by decide
  intro mark listed c member
  simpa using List.all_eq_true.1 (List.all_eq_true.1 plain mark listed) c member

theorem extend_mark_alnum {text : List Char} (point : text ≠ ['.']) {c : Char}
    (alnum : isDigit c = true ∨ isLetter c = true) : extend (.mark text) c = none := by
  have unlisted : ¬ marks.contains (text ++ [c]) = true := by
    intro listed
    obtain ⟨noDigit, noLetter⟩ := marks_plain _ (List.contains_iff_mem.1 listed) c (by simp)
    rcases alnum with digit | letter
    · rw [noDigit] at digit
      cases digit
    · rw [noLetter] at letter
      cases letter
  rw [extend, if_neg fun both => point both.1, if_neg unlisted]

/-- An operator is over where an operand begins. -/
theorem extend_operator_opens (op : Operator) {rest : List Char} (opens : Opens rest) :
    ∀ c, rest.head? = some c → extend (.mark op.spelling.toList) c = none := by
  intro c next
  obtain ⟨d, same, opens⟩ := opens
  rw [next] at same
  cases same
  rcases opens with digit | letter | rfl
  · exact extend_mark_alnum (by cases op <;> decide) (.inl digit)
  · exact extend_mark_alnum (by cases op <;> decide) (.inr letter)
  · cases op <;> decide

theorem lex_operator (op : Operator) {rest : List Char} (opens : Opens rest) :
    lex none (op.spelling.toList ++ rest) = (lex none rest).map (.mark op.spelling.toList :: ·) := by
  rw [← lex_done (extend_operator_opens op opens)]
  cases op <;> exact Option.map_id'

theorem operator_not_fused (op : Operator) : (Token.mark op.spelling.toList).isFused = false := by
  cases op <;> decide

theorem operator_stops (op : Operator) (rest : List Char) : Stops (op.spelling.toList ++ rest) := by
  cases op <;> exact stops_cons rfl _

/-- A parenthesis is a mark of its own, whatever comes next. -/
theorem lex_paren {paren : Char} (isParen : paren = '(' ∨ paren = ')') (rest : List Char) :
    lex none (paren :: rest) = (lex none rest).map (.mark [paren] :: ·) := by
  have alone : ∀ mark ∈ marks, mark.head? = some '(' ∨ mark.head? = some ')' → mark.length = 1 := by
    decide
  have closed (c : Char) : extend (.mark [paren]) c = none := by
    have unlisted : ¬ marks.contains [paren, c] = true := by
      intro listed
      have := alone _ (List.contains_iff_mem.1 listed) (by simpa using isParen)
      simp at this
    have point : [paren] ≠ ['.'] := by
      rintro same
      cases same
      simp at isParen
    rw [extend, if_neg fun both => point both.1]
    exact if_neg unlisted
  have begins : lex none (paren :: rest) = lex (some (.mark [paren])) rest := by
    rcases isParen with rfl | rfl <;> exact Option.map_id'
  rw [begins, lex_done fun c _ => closed c]

/-! ## Characters that are in no token -/

/-- Ends of lines and quotes. -/
def isForeign (c : Char) : Bool := c == '\n' || c == '"'

theorem marks_not_foreign : ∀ mark ∈ marks, ∀ c ∈ mark, isForeign c = false := by
  have plain : (marks.all fun mark => mark.all fun c => !isForeign c) = true := by decide
  intro mark listed c member
  simpa using List.all_eq_true.1 (List.all_eq_true.1 plain mark listed) c member

theorem isForeign_cases {c : Char} (foreign : isForeign c = true) :
    isWordChar c = false ∧ isDigit c = false ∧ (c == '.' || c == '+' || c == '-') = false ∧ c ≠ ' ' := by
  simp only [isForeign, Bool.or_eq_true, beq_iff_eq] at foreign
  rcases foreign with rfl | rfl <;> decide

theorem extend_foreign {c : Char} (foreign : isForeign c = true) (token : Token) :
    extend token c = none := by
  obtain ⟨apart, noDigit, noMark, -⟩ := isForeign_cases foreign
  simp only [Bool.or_eq_false_iff] at noMark
  cases token with
  | word text => simp [extend, apart]
  | number text => simp [extend, continuesNumber, apart, noMark]
  | mark text =>
    have unlisted : ¬ marks.contains (text ++ [c]) = true := by
      intro listed
      have := marks_not_foreign _ (List.contains_iff_mem.1 listed) c (by simp)
      rw [foreign] at this
      cases this
    rw [extend, if_neg (by simp [noDigit]), if_neg unlisted]

theorem begin?_foreign {c : Char} (foreign : isForeign c = true) : begin? c = none := by
  simp only [isForeign, Bool.or_eq_true, beq_iff_eq] at foreign
  rcases foreign with rfl | rfl <;> decide

/-- A text that can be split holds no foreign character. -/
theorem lex_not_foreign {text : List Char} : ∀ {pending : Option Token} {tokens : List Token},
    lex pending text = some tokens → ∀ c ∈ text, isForeign c = false := by
  induction text with
  | nil => nofun
  | cons d rest ih =>
    intro pending tokens lexed
    rw [lex] at lexed
    by_cases foreign : isForeign d = true
    · have stuck : (pending.bind fun token => extend token d) = none := by
        cases pending with
        | none => rfl
        | some token => exact extend_foreign foreign token
      rw [stuck, begin?_foreign foreign, if_neg (isForeign_cases foreign).2.2.2] at lexed
      cases lexed
    · refine List.forall_mem_cons.2 ⟨by simpa using foreign, ?_⟩
      split at lexed
      · exact ih lexed
      · split at lexed
        · obtain ⟨later, found, -⟩ := Option.map_eq_some_iff.1 lexed
          exact ih found
        · obtain ⟨token, -, found⟩ := Option.bind_eq_some_iff.1 lexed
          obtain ⟨later, found, -⟩ := Option.map_eq_some_iff.1 found
          exact ih found

end LineBasic.C
