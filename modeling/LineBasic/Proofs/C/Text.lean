import LineBasic.Proofs.C.Token
import LineBasic.Proofs.Syntax.Emission
import LineBasic.Proofs.Syntax.Spelling

/-!
# How C splits the text of an expression

In the text of an expression operands and operators take turns, so C splits it at the seams between
them: no two of its marks run together (`lexes_expression`).
-/

namespace LineBasic.C

set_option autoImplicit false

/-- The text is split into these tokens wherever an operand may end after it. -/
structure Lexes (text : String) (tokens : List Token) : Prop where
  opens : Opens text.toList
  splits {rest : List Char} (stops : Stops rest) :
    lex none (text.toList ++ rest) = (lex none rest).map (tokens ++ ·)

theorem Lexes.whole {text : String} {tokens : List Token} (lexes : Lexes text tokens) :
    lex none text.toList = some tokens := by
  have := lexes.splits stops_nil
  rwa [List.append_nil, lex, Option.map_some, Option.toList_none, List.append_nil] at this

end LineBasic.C

namespace LineBasic.Syntax

open C (Lexes)
open Lexeme (isDigit isLetter)

def Primary.cToken : Primary → C.Token
  | .number text => .number text.toList
  | .name text => .word text.toList

def Operand.cTokens : Operand → List C.Token
  | ⟨none, primary⟩ => [primary.cToken]
  | ⟨some sign, primary⟩ =>
      [.mark ['('], .mark sign.operator.spelling.toList, primary.cToken, .mark [')']]

namespace Chain

variable {ρ ι : Type} (operator : ρ → Operator) (item : ι → List C.Token)

def restCTokens : List (ρ × ι) → List C.Token
  | [] => []
  | (joint, operand) :: rest =>
      .mark (operator joint).spelling.toList :: (item operand ++ restCTokens rest)

def cTokens (chain : Chain ρ ι) : List C.Token :=
  item chain.first ++ restCTokens operator item chain.rest

end Chain

def Term.cTokens : Term → List C.Token := Chain.cTokens Scale.operator Operand.cTokens

def Expression.cTokens : Expression → List C.Token := Chain.cTokens Sign.operator Term.cTokens

def Condition.cTokens (condition : Condition) : List C.Token :=
  condition.toChain.cTokens Relation.operator Expression.cTokens

theorem Primary.WellSpelled.lexes {primary : Primary} (well : primary.WellSpelled) :
    Lexes primary.text [primary.cToken] := by
  cases primary with
  | number text =>
    refine ⟨?_, fun stops => C.lex_numeral well stops⟩
    obtain ⟨c, more, same, digit, -⟩ := C.numeral_cases well
    exact ⟨c, by rw [Primary.text, same]; rfl, .inl digit⟩
  | name text =>
    obtain ⟨some, letters⟩ := well
    refine ⟨?_, fun stops => C.lex_name some letters stops⟩
    obtain ⟨c, more, same⟩ := List.exists_cons_of_ne_nil some
    refine ⟨c, by rw [Primary.text, same]; rfl, .inr (.inl (letters c ?_))⟩
    rw [same]
    exact List.mem_cons_self

theorem lexes_operand {operand : Operand} (well : operand.primary.WellSpelled) :
    Lexes operand.text operand.cTokens := by
  obtain ⟨sign, primary⟩ := operand
  have inner := well.lexes
  cases sign with
  | none => exact inner
  | some sign =>
    refine ⟨⟨'(', by simp [Operand.text], .inr (.inr rfl)⟩, fun {rest} stops => ?_⟩
    have opens : C.Opens (primary.text.toList ++ ')' :: rest) := by
      obtain ⟨c, first, opens⟩ := inner.opens
      exact ⟨c, by rw [List.head?_append, first, Option.some_or], opens⟩
    have text : (Operand.text ⟨some sign, primary⟩).toList ++ rest =
        '(' :: (sign.operator.spelling.toList ++ (primary.text.toList ++ ')' :: rest)) := by
      simp [Operand.text, String.toList_append]
    rw [text, C.lex_paren (.inl rfl), C.lex_operator _ opens, inner.splits (C.stops_cons rfl _),
      C.lex_paren (.inr rfl)]
    simp only [Option.map_map]
    rfl

section Chains

variable {ρ ι : Type} {operator : ρ → Operator} {text : ι → String} {tokens : ι → List C.Token}

/-- Each joint closes the item before it and is closed by the item after it. -/
theorem lexes_rest {links : List (ρ × ι)} (items : ∀ link ∈ links, Lexes (text link.2) (tokens link.2))
    {after : List Char} (stops : C.Stops after) :
    C.Stops ((Chain.restText operator text links).toList ++ after) ∧
      C.lex none ((Chain.restText operator text links).toList ++ after) =
        (C.lex none after).map (Chain.restCTokens operator tokens links ++ ·) := by
  induction links with
  | nil =>
    refine ⟨by simpa [Chain.restText] using stops, ?_⟩
    simp [Chain.restText, Chain.restCTokens]
  | cons link links ih =>
    obtain ⟨joint, operand⟩ := link
    obtain ⟨item, later⟩ := List.forall_mem_cons.1 items
    obtain ⟨ends, splits⟩ := ih later
    have opens : C.Opens ((text operand).toList ++
        ((Chain.restText operator text links).toList ++ after)) := by
      obtain ⟨c, begins, opens⟩ := item.opens
      exact ⟨c, by rw [List.head?_append, begins, Option.some_or], opens⟩
    rw [Chain.restText, String.toList_append, String.toList_append, List.append_assoc,
      List.append_assoc]
    refine ⟨C.operator_stops _ _, ?_⟩
    rw [C.lex_operator _ opens, item.splits ends, splits]
    simp only [Option.map_map, Chain.restCTokens]
    congr 1
    funext more
    simp

theorem lexes_chain {chain : Chain ρ ι} (first : Lexes (text chain.first) (tokens chain.first))
    (rest : ∀ link ∈ chain.rest, Lexes (text link.2) (tokens link.2)) :
    Lexes (chain.text operator text) (chain.cTokens operator tokens) := by
  obtain ⟨c, begins, opens⟩ := first.opens
  refine ⟨⟨c, ?_, opens⟩, fun {after} stops => ?_⟩
  · rw [Chain.text, String.toList_append, List.head?_append, begins, Option.some_or]
  · obtain ⟨ends, splits⟩ := lexes_rest rest stops
    rw [Chain.text, String.toList_append, List.append_assoc, first.splits ends, splits,
      Option.map_map]
    congr 1
    funext more
    simp [Chain.cTokens]

end Chains

theorem lexes_term {term : Term} (well : ∀ primary ∈ term.primaries, primary.WellSpelled) :
    Lexes term.text term.cTokens := by
  obtain ⟨first, rest⟩ := List.forall_mem_cons.1 well
  refine lexes_chain (lexes_operand first) fun link member => lexes_operand (rest _ ?_)
  exact List.mem_map.2 ⟨link, member, rfl⟩

theorem lexes_expression {value : Expression}
    (well : ∀ primary ∈ value.primaries, primary.WellSpelled) :
    Lexes value.text value.cTokens := by
  refine lexes_chain (lexes_term fun primary member => well primary ?_) fun link member =>
    lexes_term fun primary inner => well primary ?_
  · exact List.mem_append_left _ member
  · exact List.mem_append_right _ (List.mem_flatMap.2 ⟨link, member, inner⟩)

theorem lexes_condition {condition : Condition}
    (well : ∀ primary ∈ condition.primaries, primary.WellSpelled) :
    Lexes condition.text condition.cTokens := by
  refine lexes_chain (lexes_expression fun primary member => well primary ?_) fun link member =>
    lexes_expression fun primary inner => well primary ?_
  · exact List.mem_append_left _ member
  · exact List.mem_append_right _ (List.mem_flatMap.2 ⟨link, member, inner⟩)

/-! ## Classes of texts -/

/-- A name or a number is made of letters, digits and points. -/
theorem Primary.WellSpelled.chars {primary : Primary} (well : primary.WellSpelled) :
    primary.text.toList ≠ [] ∧
      ∀ c ∈ primary.text.toList, isLetter c = true ∨ isDigit c = true ∨ c = '.' := by
  cases primary with
  | number text =>
    obtain ⟨c, more, same, digit, later, -⟩ := C.numeral_cases well
    rw [Primary.text, same]
    refine ⟨List.cons_ne_nil c more, List.forall_mem_cons.2 ⟨.inr (.inl digit), ?_⟩⟩
    exact fun d member => .inr (later d member)
  | name text => exact ⟨well.1, fun c member => .inl (well.2 c member)⟩

/-- A class of texts that is closed under the ways in which expressions are put together. -/
structure TextClass (holds : List Char → Prop) : Prop where
  leaf {primary : Primary} (well : primary.WellSpelled) : holds primary.text.toList
  signed (sign : Sign) {text : List Char} (inner : holds text) :
    holds ('(' :: (sign.operator.spelling.toList ++ (text ++ [')'])))
  joined (op : Operator) {text more : List Char} (first : holds text) (second : holds more) :
    holds (text ++ (op.spelling.toList ++ more))

namespace TextClass

variable {holds : List Char → Prop} (closed : TextClass holds)

include closed

theorem operand {operand : Operand} (well : operand.primary.WellSpelled) : holds operand.text.toList := by
  obtain ⟨sign, primary⟩ := operand
  cases sign with
  | none => exact closed.leaf well
  | some sign => simpa [Operand.text] using closed.signed sign (closed.leaf well)

/-- The items of a chain are joined from the left. -/
theorem chain {ρ ι : Type} {operator : ρ → Operator} {text : ι → String} {chain : Chain ρ ι}
    (first : holds (text chain.first).toList) (rest : ∀ link ∈ chain.rest, holds (text link.2).toList) :
    holds (chain.text operator text).toList := by
  have joined (links : List (ρ × ι)) (items : ∀ link ∈ links, holds (text link.2).toList)
      (front : List Char) (begun : holds front) :
      holds (front ++ (Chain.restText operator text links).toList) := by
    induction links generalizing front with
    | nil => simpa [Chain.restText] using begun
    | cons link links ih =>
      obtain ⟨item, later⟩ := List.forall_mem_cons.1 items
      have longer := ih later _ (closed.joined (operator link.1) begun item)
      simpa [Chain.restText] using longer
  rw [Chain.text, String.toList_append]
  exact joined chain.rest rest _ first

theorem expression {value : Expression} (well : ∀ primary ∈ value.primaries, primary.WellSpelled) :
    holds value.text.toList := by
  have term {term : Term} (well : ∀ primary ∈ term.primaries, primary.WellSpelled) :
      holds term.text.toList := by
    obtain ⟨first, rest⟩ := List.forall_mem_cons.1 well
    refine closed.chain (closed.operand first) fun link member => closed.operand (rest _ ?_)
    exact List.mem_map.2 ⟨link, member, rfl⟩
  refine closed.chain (term fun primary member => well primary ?_) fun link member =>
    term fun primary inner => well primary ?_
  · exact List.mem_append_left _ member
  · exact List.mem_append_right _ (List.mem_flatMap.2 ⟨link, member, inner⟩)

theorem condition {condition : Condition}
    (well : ∀ primary ∈ condition.primaries, primary.WellSpelled) : holds condition.text.toList := by
  refine closed.chain (closed.expression fun primary member => well primary ?_) fun link member =>
    closed.expression fun primary inner => well primary ?_
  · exact List.mem_append_left _ member
  · exact List.mem_append_right _ (List.mem_flatMap.2 ⟨link, member, inner⟩)

end TextClass

/-! ## No marks run together -/

theorem Primary.not_fused (primary : Primary) : primary.cToken.isFused = false := by
  cases primary <;> rfl

theorem Operand.not_fused (operand : Operand) : ∀ token ∈ operand.cTokens, token.isFused = false := by
  obtain ⟨sign, primary⟩ := operand
  intro token member
  cases sign with
  | none =>
    rw [List.mem_singleton.1 member]
    exact primary.not_fused
  | some sign =>
    simp only [cTokens, List.mem_cons, List.not_mem_nil, or_false] at member
    rcases member with rfl | rfl | rfl | rfl
    · decide
    · exact C.operator_not_fused _
    · exact primary.not_fused
    · decide

theorem Chain.not_fused {ρ ι : Type} {operator : ρ → Operator} {tokens : ι → List C.Token}
    (items : ∀ operand, ∀ token ∈ tokens operand, token.isFused = false) (chain : Chain ρ ι) :
    ∀ token ∈ chain.cTokens operator tokens, token.isFused = false := by
  obtain ⟨first, links⟩ := chain
  refine List.forall_mem_append.2 ⟨items first, ?_⟩
  induction links with
  | nil => nofun
  | cons link links ih =>
    obtain ⟨joint, operand⟩ := link
    exact List.forall_mem_cons.2 ⟨C.operator_not_fused _, List.forall_mem_append.2 ⟨items operand, ih⟩⟩

theorem Expression.not_fused : ∀ value : Expression, ∀ token ∈ value.cTokens, token.isFused = false :=
  Chain.not_fused (Chain.not_fused Operand.not_fused)

theorem Condition.not_fused (condition : Condition) :
    ∀ token ∈ condition.cTokens, token.isFused = false :=
  Chain.not_fused Expression.not_fused condition.toChain

end LineBasic.Syntax
