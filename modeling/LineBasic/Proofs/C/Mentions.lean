import LineBasic.Proofs.C.Lines
import LineBasic.Proofs.Syntax.Names

/-!
# The identifiers in the lines of a program

Every line of a program mentions words of C and its library, and names of the source: variables and labels.
`Line.mentions` says which, with what each stands for, and these are the identifiers that C finds in the line
(`Line.identifiers_text`). Comments hold none.
-/

namespace LineBasic

set_option autoImplicit false

namespace C

/-- Identifiers of a text between two others, where no word reaches over the seams. -/
theorem identifiers_framed {before inner after : List Char} (opens : scan .code before = .code)
    (edge : (codeOf .code before).getLast?.all (!isWordChar ·) = true)
    (inside : AllCode .code inner) (edge' : (codeOf .code after).head?.all (!isWordChar ·) = true) :
    identifiers (before ++ (inner ++ after)) =
      identifiers before ++ (words inner ++ identifiers after) := by
  rw [identifiers, codeOf_append_of opens, codeOf_append_of inside.ends, inside.same,
    words_append_of_last edge, words_append_of_head edge']
  rfl

end C

namespace Syntax

open Pass (Block)

/-! ## Expressions -/

/-- The words of a name or a number. -/
theorem Primary.WellSpelled.words {primary : Primary} (well : primary.WellSpelled) :
    C.words primary.text.toList = primary.names.map String.toList := by
  cases primary with
  | number text => exact C.words_numeral well
  | name text => exact C.words_name well.1 well.2

theorem words_operator (op : Operator) {front back : List Char} :
    C.words (front ++ (op.spelling.toList ++ back)) = C.words front ++ C.words back := by
  have all : op.spelling.toList.all (!C.isWordChar ·) = true := by cases op <;> decide
  have stops : ∀ c ∈ op.spelling.toList, C.isWordChar c = false := by simpa using all
  have begins : (op.spelling.toList ++ back).head?.all (!C.isWordChar ·) = true := by cases op <;> rfl
  rw [C.words_append_of_head begins, C.words_breaks_append stops]

theorem words_operand {operand : Operand} (well : operand.primary.WellSpelled) :
    C.words operand.text.toList = operand.primary.names.map String.toList := by
  obtain ⟨sign, primary⟩ := operand
  cases sign with
  | none => exact well.words
  | some sign =>
    have text : (Operand.text ⟨some sign, primary⟩).toList =
        ['('] ++ (sign.operator.spelling.toList ++ (primary.text.toList ++ [')'])) := by
      simp [Operand.text]
    have closing : C.words [')'] = [] := by decide
    have opening : C.words ['('] = [] := by decide
    rw [text, words_operator, C.words_append_of_head (by decide), well.words, opening, closing,
      List.append_nil, List.nil_append]

theorem words_chain {ρ ι : Type} {operator : ρ → Operator} (text : ι → String)
    (names : ι → List String) {chain : Chain ρ ι}
    (first : C.words (text chain.first).toList = (names chain.first).map String.toList)
    (rest : ∀ link ∈ chain.rest, C.words (text link.2).toList = (names link.2).map String.toList) :
    C.words (chain.text operator text).toList =
      (names chain.first ++ chain.rest.flatMap fun link => names link.2).map String.toList := by
  have joined (links : List (ρ × ι))
      (items : ∀ link ∈ links, C.words (text link.2).toList = (names link.2).map String.toList)
      (front : List Char) :
      C.words (front ++ (Chain.restText operator text links).toList) =
        C.words front ++ (links.flatMap fun link => names link.2).map String.toList := by
    induction links generalizing front with
    | nil => simp [Chain.restText]
    | cons link links ih =>
      obtain ⟨item, later⟩ := List.forall_mem_cons.1 items
      have longer := ih later (front ++ ((operator link.1).spelling.toList ++ (text link.2).toList))
      rw [words_operator, item] at longer
      simpa [Chain.restText] using longer
  rw [Chain.text, String.toList_append, joined _ rest, first, List.map_append]

theorem words_expression {value : Expression}
    (well : ∀ primary ∈ value.primaries, primary.WellSpelled) :
    C.words value.text.toList = value.names.map String.toList := by
  have term {term : Term} (well : ∀ primary ∈ term.primaries, primary.WellSpelled) :
      C.words term.text.toList = (term.primaries.flatMap Primary.names).map String.toList := by
    obtain ⟨first, rest⟩ := List.forall_mem_cons.1 well
    rw [Term.primaries, List.flatMap_cons, List.flatMap_map]
    refine words_chain Operand.text (·.primary.names) (words_operand first) fun link member => ?_
    exact words_operand (rest _ (List.mem_map.2 ⟨link, member, rfl⟩))
  rw [Expression.names, Expression.primaries, List.flatMap_append, List.flatMap_assoc]
  refine words_chain Term.text (·.primaries.flatMap Primary.names)
    (term fun primary member => well primary ?_) fun link member => term fun primary inner => well primary ?_
  · exact List.mem_append_left _ member
  · exact List.mem_append_right _ (List.mem_flatMap.2 ⟨link, member, inner⟩)

theorem words_condition {condition : Condition}
    (well : ∀ primary ∈ condition.primaries, primary.WellSpelled) :
    C.words condition.text.toList = condition.names.map String.toList := by
  rw [Condition.names, Condition.primaries, List.flatMap_append, List.flatMap_assoc]
  refine words_chain Expression.text Expression.names
    (words_expression fun primary member => well primary ?_)
    fun link member => words_expression fun primary inner => well primary ?_
  · exact List.mem_append_left _ member
  · exact List.mem_append_right _ (List.mem_flatMap.2 ⟨link, member, inner⟩)

/-! ## Lines -/

/-- What an identifier of a program stands for. -/
inductive Sense where
  /-- A word of C or of its library. -/
  | own
  | var
  | label
  deriving DecidableEq

structure Mention where
  sense : Sense
  text : String
  deriving DecidableEq

def Mention.own (text : String) : Mention := ⟨.own, text⟩

def Mention.var (text : String) : Mention := ⟨.var, text⟩

def Mention.label (text : String) : Mention := ⟨.label, text⟩

/-- The identifiers that a line mentions, from left to right. -/
def Line.mentions : Line → List Mention
  | .printText _ => [.own "printf"]
  | .print value => .own "printf" :: .own "float" :: value.names.map .var
  | .label name => [.label name]
  | .goto name => [.own "goto", .label name]
  | .assign name value => .var name :: value.names.map .var
  | .read name => [.own "if", .own "scanf", .var name]
  | .discard => [.own "scanf"]
  | .opens block condition => .own (blockWord block) :: condition.names.map .var
  | .close => []
  | .leave => [.own "return"]
  | .declare name => [.own "float", .var name]

/-- The texts of mentions, as C finds them. -/
def spelled (mentions : List Mention) : List (List Char) := mentions.map (·.text.toList)

theorem spelled_variables (names : List String) :
    spelled (names.map .var) = names.map String.toList := by
  rw [spelled, List.map_map]
  rfl

theorem identifiers_named {name before after : String} (letters : Letters name)
    (opens : C.scan .code before.toList = .code)
    (edge : (C.codeOf .code before.toList).getLast?.all (!C.isWordChar ·) = true)
    (edge' : (C.codeOf .code after.toList).head?.all (!C.isWordChar ·) = true) :
    C.identifiers (framed before name after).toList =
      C.identifiers before.toList ++ (name.toList :: C.identifiers after.toList) := by
  rw [framed_toList, C.identifiers_framed opens edge letters.allCode edge',
    C.words_name letters.1 letters.2]
  rfl

/-- The left side of an assignment. -/
theorem identifiers_target {name : String} (letters : Letters name) :
    C.scan .code (name ++ " = ").toList = .code ∧
      (C.codeOf .code (name ++ " = ").toList).getLast?.all (!C.isWordChar ·) = true ∧
      C.identifiers (name ++ " = ").toList = [name.toList] := by
  have front : C.AllCode .code (name.toList ++ " = ".toList) :=
    letters.allCode.append ⟨by decide, by decide⟩
  have none : C.words " = ".toList = [] := by decide
  rw [String.toList_append, C.identifiers, front.same, C.words_append_of_head (by decide),
    C.words_name letters.1 letters.2, none, List.getLast?_append_of_ne_nil _ (by decide)]
  exact ⟨front.ends, by decide, rfl⟩

/-- C finds in a line what the line mentions. -/
theorem Line.identifiers_text (precision : Int) {line : Line} (well : line.WellSpelled) :
    C.identifiers (line.text precision).toList = spelled line.mentions := by
  cases line with
  | printText text =>
    have opened : C.scan .code "printf(\"".toList = .literal := by decide
    have stays : ∀ c ∈ text.toList, C.Mode.next .literal c = .literal := fun c member =>
      C.next_literal (isStringChar_cases (well c member)).1
    have held : C.scan .literal text.toList = .literal :=
      C.scan_literal fun c member => (isStringChar_cases (well c member)).1
    rw [Line.text, framed_toList, C.identifiers, C.codeOf_append_of opened, C.codeOf_append_of held,
      C.codeOf_blank (by decide) stays, C.words_append_of_last (by decide), C.words_blank]
    exact (by decide : C.words (C.codeOf .code "printf(\"".toList) ++
      C.words (C.codeOf .literal "\\n\");".toList) = ["printf".toList])
  | print value =>
    have literal := isLiteral_placesFormat precision
    have opened : C.scan .code "printf(\"".toList = .literal := by decide
    have closed : C.scan .literal "\\n\", (float)(".toList = .code := by decide
    have inside := (textClass_code.expression well).1
    rw [print_toList, C.identifiers, C.codeOf_append_of opened, C.codeOf_append_of (C.scan_literal literal),
      C.codeOf_append_of closed, C.codeOf_append_of inside.ends, inside.same,
      C.codeOf_blank (by decide) fun c member => C.next_literal (literal c member),
      C.words_append_of_last (by decide), C.words_blank, C.words_append_of_last (by decide),
      C.words_append_of_head (by decide), words_expression well, ← spelled_variables]
    have first : C.words (C.codeOf .code "printf(\"".toList) = ["printf".toList] := by decide
    have second : C.words (C.codeOf .literal "\\n\", (float)(".toList) = ["float".toList] := by decide
    have last : C.words (C.codeOf .code "));".toList) = [] := by decide
    rw [first, second, last, List.append_nil]
    rfl
  | label name => exact identifiers_named well rfl rfl (by decide)
  | goto name => exact identifiers_named well (by decide) (by decide) (by decide)
  | assign name value =>
    obtain ⟨opens, edge, target⟩ := identifiers_target well.1
    have last : C.identifiers ";".toList = [] := by decide
    show C.identifiers (framed (name ++ " = ") value.text ";").toList = _
    rw [framed_toList, C.identifiers_framed opens edge (textClass_code.expression well.2).1 (by decide),
      target, words_expression well.2, last, List.append_nil, ← spelled_variables]
    rfl
  | read name => exact identifiers_named well (by decide) (by decide) (by decide)
  | discard => exact (by decide : C.identifiers "scanf(\"%*s\");".toList = ["scanf".toList])
  | opens block condition =>
    have head : C.scan .code (blockWord block ++ "(").toList = .code ∧
        (C.codeOf .code (blockWord block ++ "(").toList).getLast?.all (!C.isWordChar ·) = true ∧
        C.identifiers (blockWord block ++ "(").toList = [(blockWord block).toList] := by
      cases block <;> decide
    have last : C.identifiers ")\x7b".toList = [] := by decide
    obtain ⟨opens, edge, word⟩ := head
    rw [Line.text, framed_toList,
      C.identifiers_framed opens edge (textClass_code.condition well).1 (by decide), word,
      words_condition well, last, List.append_nil, ← spelled_variables]
    rfl
  | close => exact (by decide : C.identifiers "\x7d".toList = [])
  | leave => exact (by decide : C.identifiers "return 0;".toList = ["return".toList])
  | declare name => exact identifiers_named well (by decide) (by decide) (by decide)

def Row.mentions : Row → List Mention
  | .comment _ => []
  | .plain line => line.mentions

/-- A comment hides what stands in it. -/
theorem Row.identifiers_text (precision : Int) {row : Row} (well : row.WellSpelled) :
    C.identifiers (row.text precision) = spelled row.mentions := by
  cases row with
  | comment number =>
    have opened : C.scan .code "/* line ".toList = .comment := by decide
    have digits : ∀ c ∈ (toString number).toList, c ≠ '*' ∧ c ≠ '\\' := fun c member =>
      ⟨Text.ne_of_mem_int member (by decide), Text.ne_of_mem_int member (by decide)⟩
    rw [text, commentText_eq, C.identifiers, C.codeOf_append_of opened,
      C.codeOf_append_of (C.scan_comment digits),
      C.codeOf_blank (by decide) fun c member => C.next_comment (digits c member),
      C.words_append_of_last (by decide), C.words_blank]
    exact (by decide : C.words (C.codeOf .code "/* line ".toList) ++
      C.words (C.codeOf .comment " */".toList) = [])
  | plain line => exact line.identifiers_text precision well

end Syntax

end LineBasic
