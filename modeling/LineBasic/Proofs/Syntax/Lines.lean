import LineBasic.Proofs.C.Text
import LineBasic.Proofs.Source.Lines
import LineBasic.Proofs.Syntax.Words

/-!
# The lines of a C program

A C program is written line by line, and each line can be told from its text: which form it has, from its
first word and what stands after it (`shapeOf_text`), and then the names, numbers and expressions that
were put into the form (`Line.text_injective`). So the text of a program determines its statements
(`Code.bare_eq_of_lines`).
-/

namespace LineBasic

set_option autoImplicit false

open Lexeme (isLetter)

/-! ## Expressions are told by their texts -/

/-- The word that a token of C goes back to. Parentheses go back to none. -/
def C.Token.word? : C.Token → Option Word
  | .word text => some ⟨.ident, String.ofList text⟩
  | .number text => some ⟨.number, String.ofList text⟩
  | .mark text => (Operator.all.find? fun op => op.spelling.toList = text).map Word.operator

theorem C.word?_operator (op : Operator) :
    (C.Token.mark op.spelling.toList).word? = some (.operator op) := by
  cases op <;> decide

namespace Syntax

open Pass (Block)

theorem Operand.words_of_cTokens (operand : Operand) :
    operand.cTokens.filterMap C.Token.word? = operand.words := by
  obtain ⟨sign, primary⟩ := operand
  have leaf : primary.cToken.word? = some primary.word := by
    cases primary <;> simp [Primary.cToken, C.Token.word?, Primary.word]
  cases sign with
  | none => simp [cTokens, words, leaf]
  | some sign =>
    have opening : (C.Token.mark ['(']).word? = none := by decide
    have closing : (C.Token.mark [')']).word? = none := by decide
    simp [cTokens, words, leaf, opening, closing, C.word?_operator]

theorem Chain.words_of_cTokens {ρ ι : Type} {operator : ρ → Operator} {tokens : ι → List C.Token}
    {words : ι → List Word} (items : ∀ operand, (tokens operand).filterMap C.Token.word? = words operand)
    (chain : Chain ρ ι) :
    (chain.cTokens operator tokens).filterMap C.Token.word? = chain.words operator words := by
  obtain ⟨first, links⟩ := chain
  simp only [cTokens, Chain.words, List.filterMap_append, items, List.append_cancel_left_eq]
  induction links with
  | nil => rfl
  | cons link links ih => simp [restCTokens, restWords, C.word?_operator, items, ih]

theorem Expression.words_of_cTokens :
    ∀ value : Expression, value.cTokens.filterMap C.Token.word? = value.words :=
  Chain.words_of_cTokens (Chain.words_of_cTokens Operand.words_of_cTokens)

theorem Condition.words_of_cTokens (condition : Condition) :
    condition.cTokens.filterMap C.Token.word? = condition.words :=
  Chain.words_of_cTokens Expression.words_of_cTokens condition.toChain

theorem Expression.text_injective {value other : Expression}
    (well : ∀ primary ∈ value.primaries, primary.WellSpelled)
    (well' : ∀ primary ∈ other.primaries, primary.WellSpelled) (same : value.text = other.text) :
    value = other := by
  have split := (lexes_expression well).whole
  rw [same, (lexes_expression well').whole] at split
  apply Expression.words_injective
  rw [← value.words_of_cTokens, ← other.words_of_cTokens, Option.some.inj split]

theorem Condition.text_injective {condition other : Condition}
    (well : ∀ primary ∈ condition.primaries, primary.WellSpelled)
    (well' : ∀ primary ∈ other.primaries, primary.WellSpelled) (same : condition.text = other.text) :
    condition = other := by
  have split := (lexes_condition well).whole
  rw [same, (lexes_condition well').whole] at split
  apply Condition.words_injective
  rw [← condition.words_of_cTokens, ← other.words_of_cTokens, Option.some.inj split]

/-! ## Lines -/

inductive Line where
  | printText (text : String)
  | print (value : Expression)
  | label (name : String)
  | goto (name : String)
  | assign (name : String) (value : Expression)
  /-- Reads a number, and opens what is done if there is none. -/
  | read (name : String)
  /-- Passes over a word that is no number. -/
  | discard
  | opens (block : Block) (condition : Condition)
  | close
  | leave
  | declare (name : String)

/-- A text between two others. -/
def framed (before inner after : String) : String := before ++ inner ++ after

theorem framed_toList (before inner after : String) :
    (framed before inner after).toList = before.toList ++ (inner.toList ++ after.toList) := by
  simp [framed]

theorem framed_injective {before inner other after : String}
    (same : framed before inner after = framed before other after) : inner = other :=
  (String.append_right_inj _).1 ((String.append_left_inj _).1 same)

def Line.text (precision : Int) : Line → String
  | .printText text => framed "printf(\"" text "\\n\");"
  | .print value => framed s!"printf(\"%.{precision}f\\n\", (float)(" value.text "));"
  | .label name => framed "" name ":;"
  | .goto name => framed "goto " name ";"
  | .assign name value => framed s!"{name} = " value.text ";"
  | .read name => framed "if(0 == scanf(\"%f\", &" name ")) \x7b"
  | .discard => "scanf(\"%*s\");"
  | .opens block condition => framed (blockWord block ++ "(") condition.text ")\x7b"
  | .close => "\x7d"
  | .leave => "return 0;"
  | .declare name => framed "float " name ";"

/-- The text of lines, each with its newline. -/
def linesText (precision : Int) : List Line → String
  | [] => ""
  | first :: rest => line (first.text precision) ++ linesText precision rest

def zero : Expression := ⟨⟨⟨none, .number "0"⟩, []⟩, []⟩

def Simple.lines : Simple → List Line
  | .printText text => [.printText text]
  | .print value => [.print value]
  | .label name => [.label name]
  | .goto name => [.goto name]
  | .assign name value => [.assign name value]
  | .input name => [.read name, .assign name zero, .discard, .close]

def Code.lines : Code → List Line
  | .done => []
  | .simple _ statement next => statement.lines ++ next.lines
  | .block _ kind condition body next =>
      .opens kind condition :: body.lines ++ .close :: next.lines

theorem linesText_append (precision : Int) (lines more : List Line) :
    linesText precision (lines ++ more) = linesText precision lines ++ linesText precision more := by
  induction lines with
  | nil => exact String.empty_append.symm
  | cons first lines ih => simp only [List.cons_append, linesText, ih, String.append_assoc]

theorem linesText_toList (precision : Int) (lines : List Line) :
    (linesText precision lines).toList =
      Text.unlines (lines.map fun line => (line.text precision).toList) := by
  induction lines with
  | nil => rfl
  | cons first lines ih => simp [linesText, line, Text.unlines, ih]

theorem Simple.text_eq_lines (precision : Int) (statement : Simple) :
    statement.text precision = linesText precision statement.lines := by
  cases statement with
  | printText text =>
    simp only [lines, linesText, String.append_empty]
    rfl
  | print value =>
    simp only [text, lines, linesText, Line.text, framed, line, String.append_empty, String.append_assoc]
  | label name =>
    simp only [lines, linesText, Line.text, framed, String.append_empty, String.empty_append]
    rfl
  | goto name =>
    simp only [lines, linesText, String.append_empty]
    rfl
  | assign name value =>
    simp only [text, lines, linesText, Line.text, framed, line, String.append_empty, String.append_assoc]
  | input name =>
    have reads : framed "if(0 == scanf(\"%f\", &" name ")) \x7b" =
        s!"if(0 == scanf(\"%f\", &{name})) " ++ "\x7b" :=
      (@String.append_assoc _ ")) " "\x7b").symm
    have resets : framed s!"{name} = " zero.text ";" = s!"{name} = 0;" := by
      show name ++ " = " ++ "0" ++ ";" = name ++ " = 0;"
      rw [String.append_assoc, String.append_assoc]
      rfl
    simp only [text, lines, linesText, Line.text, reads, resets, String.append_empty,
      ← String.append_assoc]

theorem Code.text_eq_lines {options : Options} (plain : options.lineComments = false) (code : Code) :
    code.text options = linesText options.precision code.lines := by
  induction code with
  | done => rfl
  | simple number statement next ih =>
    rw [text, lineComment, plain, lines, linesText_append, Simple.text_eq_lines, ih]
    exact congrArg (· ++ _) String.empty_append
  | block number kind condition body next ihBody ihNext =>
    simp only [text, lineComment, plain, Bool.false_eq_true, if_false, String.empty_append, lines,
      linesText_append, linesText, ihBody, ihNext, Line.text, framed, line, String.append_assoc,
      List.cons_append]

theorem declarations_eq_lines (precision : Int) (names : List String) :
    declarations names = linesText precision (names.map Line.declare) := by
  induction names with
  | nil => rfl
  | cons name names ih =>
    rw [declarations, ih]
    rfl

theorem epilogue_eq_lines (precision : Int) : epilogue = linesText precision [.leave, .close] := rfl

/-! ## Telling lines apart -/

/-- A name is written in letters. -/
def Letters (name : String) : Prop := name.toList ≠ [] ∧ ∀ c ∈ name.toList, isLetter c = true

def Line.WellSpelled : Line → Prop
  | .printText text => ∀ c ∈ text.toList, Lexeme.isStringChar c = true
  | .print value => ∀ primary ∈ value.primaries, primary.WellSpelled
  | .label name | .goto name | .read name | .declare name => Letters name
  | .assign name value => Letters name ∧ ∀ primary ∈ value.primaries, primary.WellSpelled
  | .opens _ condition => ∀ primary ∈ condition.primaries, primary.WellSpelled
  | .discard | .close | .leave => True

inductive Shape where
  | printText
  | print
  | label
  | goto
  | assign
  | read
  | discard
  | opens (block : Block)
  | close
  | leave
  | declare
  deriving DecidableEq

def Line.shape : Line → Shape
  | .printText _ => .printText
  | .print _ => .print
  | .label _ => .label
  | .goto _ => .goto
  | .assign _ _ => .assign
  | .read _ => .read
  | .discard => .discard
  | .opens block _ => .opens block
  | .close => .close
  | .leave => .leave
  | .declare _ => .declare

/-- The shape of a line by its first word and what stands after it. -/
def shapeAfter (word rest : List Char) : Shape :=
  if rest.head? = some ':' then .label
  else if rest.head? = some '\x7d' then .close
  else if rest.head? = some ' ' then
    if rest.tail.head? = some '=' then .assign
    else if word = "goto".toList then .goto
    else if word = "float".toList then .declare
    else .leave
  else if word = "printf".toList then
    if (rest.drop 2).head? = some '%' then .print else .printText
  else if word = "scanf".toList then .discard
  else if word = "while".toList then .opens .loop
  else if '"' ∈ rest then .read
  else .opens .choice

def shapeOf (text : List Char) : Shape := shapeAfter (text.takeWhile isLetter) (text.dropWhile isLetter)

theorem shapeOf_append {word rest : List Char} {c : Char} (letters : word.all isLetter = true)
    (stop : isLetter c = false) : shapeOf (word ++ c :: rest) = shapeAfter word (c :: rest) := by
  have all := List.all_eq_true.1 letters
  rw [shapeOf, List.takeWhile_append_of_pos all, List.dropWhile_append_of_pos all]
  simp [stop]

theorem Expression.not_foreign {value : Expression}
    (well : ∀ primary ∈ value.primaries, primary.WellSpelled) :
    ∀ c ∈ value.text.toList, C.isForeign c = false :=
  C.lex_not_foreign (lexes_expression well).whole

theorem Condition.not_foreign {condition : Condition}
    (well : ∀ primary ∈ condition.primaries, primary.WellSpelled) :
    ∀ c ∈ condition.text.toList, C.isForeign c = false :=
  C.lex_not_foreign (lexes_condition well).whole

/-- A text of one class of characters does not begin with another one. -/
theorem head?_ne_of_all {p : Char → Bool} {text rest : List Char} {c : Char}
    (all : ∀ d ∈ text, p d = true) (other : p c = false) (apart : rest.head? ≠ some c) :
    (text ++ rest).head? ≠ some c := by
  cases text with
  | nil => exact apart
  | cons d text =>
    intro same
    have first := all d List.mem_cons_self
    rw [Option.some.inj same, other] at first
    cases first

theorem Line.assign_toList (precision : Int) (name : String) (value : Expression) :
    ((Line.assign name value).text precision).toList =
      name.toList ++ ' ' :: '=' :: ' ' :: (value.text.toList ++ [';']) := by
  rw [Line.text, framed_toList, String.toList_append, List.append_assoc]
  rfl

/-- The shape of a line can be told from its text. -/
theorem shapeOf_text (precision : Int) {line : Line} (well : line.WellSpelled) :
    shapeOf (line.text precision).toList = line.shape := by
  have named {name : String} (letters : Letters name) :
      (name.toList ++ [';']).head? ≠ some '=' :=
    head?_ne_of_all letters.2 (by decide) (by decide)
  cases line with
  | printText text =>
    have cut : ((Line.printText text).text precision).toList =
        "printf".toList ++ '(' :: '"' :: (text.toList ++ "\\n\");".toList) := by
      rw [Line.text, framed_toList]
      rfl
    -- A string holds no percent sign, so it does not look like the format of a number.
    have plain : (text.toList ++ "\\n\");".toList).head? ≠ some '%' :=
      head?_ne_of_all well (by decide) (by decide)
    rw [cut, shapeOf_append (by decide) (by decide)]
    simpa [shapeAfter, Line.shape] using plain
  | print value =>
    have cut : ((Line.print value).text precision).toList =
        "printf".toList ++ '(' :: '"' :: '%' :: ".".toList ++ ((toString precision).toList ++
          ("f\\n\", (float)(".toList ++ (value.text.toList ++ "));".toList))) := by
      rw [Line.text, framed_toList, String.toList_append, String.toList_append, List.append_assoc,
        List.append_assoc]
      rfl
    rw [cut, List.append_assoc, List.cons_append, shapeOf_append (by decide) (by decide)]
    simp [shapeAfter, Line.shape]
  | label name =>
    have cut : ((Line.label name).text precision).toList = name.toList ++ ':' :: [';'] := by
      rw [Line.text, framed_toList]
      rfl
    rw [cut, shapeOf_append (List.all_eq_true.2 well.2) (by decide)]
    simp [shapeAfter, Line.shape]
  | goto name =>
    have cut : ((Line.goto name).text precision).toList =
        "goto".toList ++ ' ' :: (name.toList ++ [';']) := by
      rw [Line.text, framed_toList]
      rfl
    rw [cut, shapeOf_append (by decide) (by decide)]
    simpa [shapeAfter, Line.shape] using named well
  | assign name value =>
    rw [Line.assign_toList, shapeOf_append (List.all_eq_true.2 well.1.2) (by decide)]
    simp [shapeAfter, Line.shape]
  | read name =>
    have cut : ((Line.read name).text precision).toList =
        "if".toList ++ '(' :: ("0 == scanf(\"%f\", &".toList ++ (name.toList ++ ")) \x7b".toList)) := by
      rw [Line.text, framed_toList]
      rfl
    rw [cut, shapeOf_append (by decide) (by decide)]
    simp [shapeAfter, Line.shape]
  | discard => exact (by decide : shapeOf "scanf(\"%*s\");".toList = .discard)
  | opens block condition =>
    have cut : ((Line.opens block condition).text precision).toList =
        (blockWord block).toList ++ '(' :: (condition.text.toList ++ [')', '\x7b']) := by
      rw [Line.text, framed_toList]
      simp
    -- Both this line and one that reads a number may begin with `if(`, but here is no string.
    have noQuote : '"' ∉ condition.text.toList := fun member =>
      absurd (condition.not_foreign well _ member) (by decide)
    rw [cut, shapeOf_append (by cases block <;> decide) (by decide)]
    cases block <;> simp [shapeAfter, Line.shape, blockWord, noQuote]
  | close => exact (by decide : shapeOf "\x7d".toList = .close)
  | leave => exact (by decide : shapeOf "return 0;".toList = .leave)
  | declare name =>
    have cut : ((Line.declare name).text precision).toList =
        "float".toList ++ ' ' :: (name.toList ++ [';']) := by
      rw [Line.text, framed_toList]
      rfl
    rw [cut, shapeOf_append (by decide) (by decide)]
    simpa [shapeAfter, Line.shape] using named well

/-- An assignment begins with the name that is set. -/
theorem Line.assign_name {precision : Int} {name other : String} {value otherValue : Expression}
    (letters : Letters name) (letters' : Letters other)
    (same : (Line.assign name value).text precision = (Line.assign other otherValue).text precision) :
    name = other := by
  have texts := congrArg (fun text => text.toList.takeWhile isLetter) same
  have stop : isLetter ' ' = false := by decide
  simp only [assign_toList, List.takeWhile_append_of_pos letters.2,
    List.takeWhile_append_of_pos letters'.2, List.takeWhile_cons, stop, Bool.false_eq_true, if_false,
    List.append_nil] at texts
  exact String.ext texts

/-- A line is told by its text. -/
theorem Line.text_injective {precision : Int} {line other : Line} (well : line.WellSpelled)
    (well' : other.WellSpelled) (same : line.text precision = other.text precision) : line = other := by
  have shapes : line.shape = other.shape := by
    rw [← shapeOf_text precision well, same, shapeOf_text precision well']
  cases line with
  | printText text =>
    cases other with
    | printText text' => rw [framed_injective same]
    | _ => cases shapes
  | print value =>
    cases other with
    | print value' => rw [value.text_injective well well' (framed_injective same)]
    | _ => cases shapes
  | label name =>
    cases other with
    | label name' => rw [framed_injective same]
    | _ => cases shapes
  | goto name =>
    cases other with
    | goto name' => rw [framed_injective same]
    | _ => cases shapes
  | assign name value =>
    cases other with
    | assign name' value' =>
      obtain rfl := assign_name well.1 well'.1 same
      rw [value.text_injective well.2 well'.2 (framed_injective same)]
    | _ => cases shapes
  | read name =>
    cases other with
    | read name' => rw [framed_injective same]
    | _ => cases shapes
  | discard =>
    cases other with
    | discard => rfl
    | _ => cases shapes
  | opens block condition =>
    cases other with
    | opens block' condition' =>
      obtain rfl := Shape.opens.inj shapes
      rw [condition.text_injective well well' (framed_injective same)]
    | _ => cases shapes
  | close =>
    cases other with
    | close => rfl
    | _ => cases shapes
  | leave =>
    cases other with
    | leave => rfl
    | _ => cases shapes
  | declare name =>
    cases other with
    | declare name' => rw [framed_injective same]
    | _ => cases shapes

/-! ## No newline stands inside a line -/

theorem newline_not_mem_framed {before inner after : String} (first : '\n' ∉ before.toList)
    (second : '\n' ∉ inner.toList) (third : '\n' ∉ after.toList) :
    '\n' ∉ (framed before inner after).toList := by
  simp [framed_toList, first, second, third]

theorem Line.newline_not_mem (precision : Int) {line : Line} (well : line.WellSpelled) :
    '\n' ∉ (line.text precision).toList := by
  have named {name : String} (letters : Letters name) : '\n' ∉ name.toList := fun member =>
    absurd (letters.2 _ member) (by decide)
  have valued {value : Expression} (well : ∀ primary ∈ value.primaries, primary.WellSpelled) :
      '\n' ∉ value.text.toList := fun member =>
    absurd (value.not_foreign well _ member) (by decide)
  cases line with
  | printText text =>
    exact newline_not_mem_framed (by decide) (fun member => absurd (well _ member) (by decide)) (by decide)
  | print value =>
    have format : '\n' ∉ (framed "printf(\"%." (toString precision) "f\\n\", (float)(").toList :=
      newline_not_mem_framed (by decide) (Text.newline_not_mem_int precision) (by decide)
    exact newline_not_mem_framed format (valued well) (by decide)
  | label name => exact newline_not_mem_framed (by decide) (named well) (by decide)
  | goto name => exact newline_not_mem_framed (by decide) (named well) (by decide)
  | assign name value =>
    have target : '\n' ∉ (name ++ " = ").toList := by simp [named well.1]
    exact newline_not_mem_framed target (valued well.2) (by decide)
  | read name => exact newline_not_mem_framed (by decide) (named well) (by decide)
  | discard => exact (by decide : '\n' ∉ "scanf(\"%*s\");".toList)
  | opens block condition =>
    have inside : '\n' ∉ condition.text.toList := fun member =>
      absurd (condition.not_foreign well _ member) (by decide)
    exact newline_not_mem_framed (by cases block <;> decide) inside (by decide)
  | close => exact (by decide : '\n' ∉ "\x7d".toList)
  | leave => exact (by decide : '\n' ∉ "return 0;".toList)
  | declare name => exact newline_not_mem_framed (by decide) (named well) (by decide)

/-- Cutting the text of lines gives their texts back. -/
theorem lines_linesText (precision : Int) {lines : List Line}
    (well : ∀ line ∈ lines, line.WellSpelled) :
    Text.lines (linesText precision lines).toList =
      lines.map (fun line => (line.text precision).toList) ++ [[]] := by
  rw [linesText_toList, Text.lines_unlines]
  intro part member
  obtain ⟨line, listed, rfl⟩ := List.mem_map.1 member
  exact line.newline_not_mem precision (well line listed)

/-- Lines are told by their text. -/
theorem linesText_injective {precision : Int} {lines others : List Line}
    (well : ∀ line ∈ lines, line.WellSpelled) (well' : ∀ line ∈ others, line.WellSpelled)
    (same : linesText precision lines = linesText precision others) : lines = others := by
  have texts := lines_linesText precision well
  rw [same, lines_linesText precision well'] at texts
  replace texts := List.append_cancel_right texts
  clear same
  induction lines generalizing others with
  | nil => simpa using texts
  | cons line lines ih =>
    cases others with
    | nil => cases texts
    | cons other others =>
      obtain ⟨first, later⟩ := List.cons.inj texts
      obtain ⟨wellFirst, wellLater⟩ := List.forall_mem_cons.1 well
      obtain ⟨wellFirst', wellLater'⟩ := List.forall_mem_cons.1 well'
      rw [Line.text_injective wellFirst wellFirst' (String.ext first.symm), ih wellLater wellLater' later]

/-! ## Statements are told by their lines -/

/-- The lines after statements: the end of a block or of the program. -/
def EndsLines (lines : List Line) : Prop :=
  ∃ later, lines = .close :: later ∨ lines = .leave :: later

theorem Simple.lines_injective {statement other : Simple} {rest rest' : List Line}
    (same : statement.lines ++ rest = other.lines ++ rest') : statement = other ∧ rest = rest' := by
  cases statement <;> cases other <;> simp_all [lines]

theorem Simple.lines_ne_opens {statement : Simple} {rest later : List Line} {block : Block}
    {condition : Condition} : statement.lines ++ rest ≠ .opens block condition :: later := by
  intro same
  cases statement <;> simp [lines] at same

/-- Statements do not begin with a line that can follow them. -/
theorem Code.eq_done_of_endsLines {code : Code} {rest : List Line}
    (ends : EndsLines (code.lines ++ rest)) : code = .done := by
  obtain ⟨later, same⟩ := ends
  cases code with
  | done => rfl
  | simple line statement next => cases statement <;> simp [lines, Simple.lines] at same
  | block line kind condition body next => simp [lines] at same

/-- Statements are told by their lines, but for the numbers of the lines in the source. -/
theorem Code.bare_eq_of_lines {code other : Code} {rest rest' : List Line} (ends : EndsLines rest)
    (ends' : EndsLines rest') (same : code.lines ++ rest = other.lines ++ rest') :
    code.bare = other.bare ∧ rest = rest' := by
  induction code generalizing other rest rest' with
  | done =>
    rw [lines, List.nil_append] at same
    obtain rfl := other.eq_done_of_endsLines (same ▸ ends)
    exact ⟨rfl, same⟩
  | simple line statement next ih =>
    cases other with
    | done =>
      have ended : EndsLines ((simple line statement next).lines ++ rest) := by rw [same]; exact ends'
      cases eq_done_of_endsLines ended
    | simple line' statement' next' =>
      simp only [lines, List.append_assoc] at same
      obtain ⟨statements, later⟩ := Simple.lines_injective same
      obtain ⟨nexts, rests⟩ := ih ends ends' later
      exact ⟨by rw [bare, bare, statements, nexts], rests⟩
    | block line' kind' condition' body' next' =>
      simp only [lines, List.append_assoc, List.cons_append] at same
      exact absurd same Simple.lines_ne_opens
  | block line kind condition body next ihBody ihNext =>
    cases other with
    | done =>
      have ended : EndsLines ((block line kind condition body next).lines ++ rest) := by
        rw [same]
        exact ends'
      cases eq_done_of_endsLines ended
    | simple line' statement' next' =>
      simp only [lines, List.append_assoc, List.cons_append] at same
      exact absurd same.symm Simple.lines_ne_opens
    | block line' kind' condition' body' next' =>
      simp only [lines, List.append_assoc, List.cons_append, List.cons.injEq, Line.opens.injEq] at same
      -- One closing line serves both kinds of blocks; it ends the bodies and is no part of them.
      obtain ⟨⟨kinds, conditions⟩, inner⟩ := same
      obtain ⟨bodies, later⟩ := ihBody ⟨_, .inl rfl⟩ ⟨_, .inl rfl⟩ inner
      obtain ⟨nexts, rests⟩ := ihNext ends ends' (List.cons.inj later).2
      exact ⟨by rw [bare, bare, kinds, conditions, bodies, nexts], rests⟩

/-! ## Lines that are well spelled -/

theorem zero_wellSpelled : ∀ primary ∈ zero.primaries, primary.WellSpelled := by
  intro primary member
  rw [List.mem_singleton.1 member]
  exact .whole ⟨nofun, List.all_eq_true.1 (by decide)⟩

theorem Simple.Reads.wellSpelled {keyword : Token} {tokens : List Token} {statement : Simple}
    (reads : statement.Reads keyword tokens) (spelled : AllSpelled tokens) :
    ∀ line ∈ statement.lines, line.WellSpelled := by
  have named {token : Token} (kind : token.kind = .ident) (spelled : token.IsSpelled) :
      Letters token.text := by
    unfold Token.IsSpelled at spelled
    rw [kind] at spelled
    exact ⟨spelled.1, spelled.2.1⟩
  cases reads with
  | printText begins kind =>
    have quoted := spelled _ List.mem_cons_self
    unfold Token.IsSpelled at quoted
    rw [kind] at quoted
    exact List.forall_mem_singleton.2 quoted
  | print begins reads => exact List.forall_mem_singleton.2 (reads.wellSpelled spelled)
  | label begins kind => exact List.forall_mem_singleton.2 (named kind (spelled _ List.mem_cons_self))
  | goto begins kind => exact List.forall_mem_singleton.2 (named kind (spelled _ List.mem_cons_self))
  | assign begins kind equals reads =>
    obtain ⟨name, rest⟩ := List.forall_mem_cons.1 spelled
    obtain ⟨-, rest⟩ := List.forall_mem_cons.1 rest
    exact List.forall_mem_singleton.2 ⟨named kind name, reads.wellSpelled rest⟩
  | input begins kind =>
    have letters := named kind (spelled _ List.mem_cons_self)
    simp [lines, Line.WellSpelled, letters]
    exact zero_wellSpelled

theorem Code.Reads.wellSpelled {tokens : List Token} {code : Code} (reads : code.Reads tokens)
    (spelled : AllSpelled tokens) : ∀ line ∈ code.lines, line.WellSpelled := by
  induction reads with
  | done => nofun
  | simple first ends more ih =>
    obtain ⟨spelled, spelledLater⟩ := List.forall_mem_append.1 spelled
    obtain ⟨spelledLine, -⟩ := List.forall_mem_append.1 spelled
    exact List.forall_mem_append.2
      ⟨first.wellSpelled (List.forall_mem_cons.1 spelledLine).2, ih spelledLater⟩
  | block begins opens holds closes ends more ihBody ihNext =>
    obtain ⟨spelled, spelledLater⟩ := List.forall_mem_append.1 spelled
    obtain ⟨spelled, -⟩ := List.forall_mem_append.1 spelled
    obtain ⟨spelledHead, spelledInner⟩ := List.forall_mem_append.1 spelled
    obtain ⟨compared, _, _⟩ := opens
    have condition := compared.wellSpelled
      (List.forall_mem_append.1 (List.forall_mem_cons.1 spelledHead).2).1
    refine List.forall_mem_append.2 ⟨List.forall_mem_cons.2 ⟨condition, ihBody spelledInner⟩, ?_⟩
    exact List.forall_mem_cons.2 ⟨trivial, ihNext spelledLater⟩

theorem Code.ReadsProgram.wellSpelled {tokens : List Token} {code : Code}
    (reads : code.ReadsProgram tokens) (spelled : AllSpelled tokens) :
    ∀ line ∈ code.lines, line.WellSpelled := by
  obtain ⟨_, reads, _⟩ := reads
  obtain ⟨front, -⟩ := List.forall_mem_append.1 spelled
  exact reads.wellSpelled (List.forall_mem_append.1 front).2

theorem Code.letters_targets {code : Code} (well : ∀ line ∈ code.lines, line.WellSpelled) :
    ∀ name ∈ code.targets, Letters name := by
  induction code with
  | done => nofun
  | simple line statement next ih =>
    obtain ⟨first, later⟩ := List.forall_mem_append.1 well
    have rest := ih later
    cases statement with
    | assign name value =>
      exact List.forall_mem_cons.2 ⟨(List.forall_mem_singleton.1 first).1, rest⟩
    | input name => exact List.forall_mem_cons.2 ⟨first _ List.mem_cons_self, rest⟩
    | _ => exact rest
  | block line kind condition body next ihBody ihNext =>
    obtain ⟨inner, later⟩ := List.forall_mem_append.1 well
    exact List.forall_mem_append.2
      ⟨ihBody (List.forall_mem_cons.1 inner).2, ihNext (List.forall_mem_cons.1 later).2⟩

/-! ## Whole programs -/

/-- The lines of a program behind its first two: the declarations, the statements and the end. -/
def Code.programLines (code : Code) : List Line :=
  code.targets.eraseDups.map Line.declare ++ (code.lines ++ [.leave, .close])

theorem Code.programLines_wellSpelled {code : Code} (well : ∀ line ∈ code.lines, line.WellSpelled) :
    ∀ line ∈ code.programLines, line.WellSpelled := by
  refine List.forall_mem_append.2 ⟨?_, List.forall_mem_append.2 ⟨well, by simp [Line.WellSpelled]⟩⟩
  refine List.forall_mem_map.2 fun name member => ?_
  exact code.letters_targets well name (List.mem_eraseDups.1 member)

theorem Code.lines_bare (code : Code) : code.bare.lines = code.lines := by
  induction code with
  | done => rfl
  | simple line statement next ih => simp only [bare, lines, ih]
  | block line kind condition body next ihBody ihNext => simp only [bare, lines, ihBody, ihNext]

theorem Code.targets_bare (code : Code) : code.bare.targets = code.targets := by
  induction code with
  | done => rfl
  | simple line statement next ih => cases statement <;> simp only [bare, targets, ih]
  | block line kind condition body next ihBody ihNext => simp only [bare, targets, ihBody, ihNext]

theorem Code.programLines_bare (code : Code) : code.bare.programLines = code.programLines := by
  rw [programLines, programLines, lines_bare, targets_bare]

def Line.isDeclaration : Line → Bool
  | .declare _ => true
  | _ => false

/-- The statements begin where the declarations end. -/
theorem Code.dropWhile_programLines (code : Code) :
    code.programLines.dropWhile Line.isDeclaration = code.lines ++ [.leave, .close] := by
  rw [programLines, List.dropWhile_append_of_pos (by simp [Line.isDeclaration])]
  cases code with
  | done => rfl
  | simple line statement next => cases statement <;> rfl
  | block line kind condition body next => rfl

theorem Code.programLines_eq_iff {code other : Code} :
    code.programLines = other.programLines ↔ code.bare = other.bare := by
  constructor
  · intro same
    have lines := congrArg (List.dropWhile Line.isDeclaration) same
    rw [dropWhile_programLines, dropWhile_programLines] at lines
    exact (bare_eq_of_lines ⟨_, .inr rfl⟩ ⟨_, .inr rfl⟩ lines).1
  · intro same
    rw [← code.programLines_bare, same, programLines_bare]

theorem Code.program_text {options : Options} (plain : options.lineComments = false) (code : Code) :
    prologue ++ declarations code.targets.eraseDups ++ (code.text options ++ epilogue) =
      prologue ++ linesText options.precision code.programLines := by
  rw [declarations_eq_lines options.precision, code.text_eq_lines plain,
    epilogue_eq_lines options.precision, String.append_assoc, ← linesText_append, ← linesText_append]
  rfl

end Syntax

end LineBasic
