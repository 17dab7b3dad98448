import LineBasic.Proofs.Syntax.Tree

/-!
# How the leaves of a tree are spelled

The leaves of a tree are texts of tokens, so they are spelled as the kinds of these tokens demand: numbers
in digits, names in letters.
-/

namespace LineBasic.Syntax

set_option autoImplicit false

/-- A number is written in digits, a name in letters. -/
def Primary.WellSpelled : Primary → Prop
  | .number text => Numeral text.toList
  | .name text => text.toList ≠ [] ∧ ∀ c ∈ text.toList, Lexeme.isLetter c = true

def Term.primaries (term : Term) : List Primary :=
  term.first.primary :: term.rest.map fun link => link.2.primary

def Expression.primaries (value : Expression) : List Primary :=
  value.first.primaries ++ value.rest.flatMap fun link => link.2.primaries

def Condition.primaries (condition : Condition) : List Primary :=
  condition.first.primaries ++ condition.rest.flatMap fun link => link.2.primaries

theorem Primary.Reads.wellSpelled {token : Token} {primary : Primary} (reads : primary.Reads token)
    (spelled : token.IsSpelled) : primary.WellSpelled := by
  unfold Token.IsSpelled at spelled
  cases reads with
  | number kind =>
    rw [kind] at spelled
    exact spelled
  | name kind =>
    rw [kind] at spelled
    exact ⟨spelled.1, spelled.2.1⟩

/-- The tokens are spelled as their kinds demand. -/
def AllSpelled (tokens : List Token) : Prop := ∀ token ∈ tokens, token.IsSpelled

theorem Operand.Reads.wellSpelled {tokens : List Token} {operand : Operand}
    (reads : operand.Reads tokens) (spelled : AllSpelled tokens) : operand.primary.WellSpelled := by
  cases reads with
  | plain reads => exact reads.wellSpelled (spelled _ (by simp))
  | signed _ reads => exact reads.wellSpelled (spelled _ (by simp))

section Chains

variable {ρ ι : Type} {operator : ρ → Operator} {item : List Token → ι → Prop} {P : ι → Prop}

theorem Chain.RestReads.all {tokens : List Token} {links : List (ρ × ι)}
    (reads : RestReads operator item tokens links) (spelled : AllSpelled tokens)
    (each : ∀ tokens operand, item tokens operand → AllSpelled tokens → P operand) :
    ∀ link ∈ links, P link.2 := by
  induction reads with
  | nil => nofun
  | cons _ first _ ih =>
    obtain ⟨inner, later⟩ := List.forall_mem_append.1 spelled
    exact List.forall_mem_cons.2 ⟨each _ _ first (List.forall_mem_cons.1 inner).2, ih later⟩

/-- What the items of a chain have if their tokens are well spelled. -/
theorem Chain.Reads.all {tokens : List Token} {chain : Chain ρ ι}
    (reads : Reads operator item tokens chain) (spelled : AllSpelled tokens)
    (each : ∀ tokens operand, item tokens operand → AllSpelled tokens → P operand) :
    P chain.first ∧ ∀ link ∈ chain.rest, P link.2 := by
  obtain ⟨first, more⟩ := reads
  obtain ⟨inner, later⟩ := List.forall_mem_append.1 spelled
  exact ⟨each _ _ first inner, more.all later each⟩

/-- The leaves of a chain are those of its items. -/
theorem Chain.Reads.leaves {tokens : List Token} {chain : Chain ρ ι} {primaries : ι → List Primary}
    (reads : Reads operator item tokens chain) (spelled : AllSpelled tokens)
    (each : ∀ tokens operand, item tokens operand → AllSpelled tokens →
      ∀ primary ∈ primaries operand, primary.WellSpelled) :
    ∀ primary ∈ primaries chain.first ++ chain.rest.flatMap fun link => primaries link.2,
      primary.WellSpelled := by
  obtain ⟨first, rest⟩ := reads.all spelled each
  refine List.forall_mem_append.2 ⟨first, fun primary member => ?_⟩
  obtain ⟨link, listed, inner⟩ := List.mem_flatMap.1 member
  exact rest link listed primary inner

end Chains

theorem Term.Reads.wellSpelled {tokens : List Token} {term : Term} (reads : Term.Reads tokens term)
    (spelled : AllSpelled tokens) : ∀ primary ∈ term.primaries, primary.WellSpelled := by
  obtain ⟨first, rest⟩ := Chain.Reads.all (P := fun operand => operand.primary.WellSpelled) reads spelled
    fun _ _ => Operand.Reads.wellSpelled
  exact List.forall_mem_cons.2 ⟨first, List.forall_mem_map.2 rest⟩

theorem Expression.Reads.wellSpelled {tokens : List Token} {value : Expression}
    (reads : Expression.Reads tokens value) (spelled : AllSpelled tokens) :
    ∀ primary ∈ value.primaries, primary.WellSpelled :=
  Chain.Reads.leaves reads spelled fun _ _ => Term.Reads.wellSpelled

theorem Condition.Reads.wellSpelled {tokens : List Token} {condition : Condition}
    (reads : condition.Reads tokens) (spelled : AllSpelled tokens) :
    ∀ primary ∈ condition.primaries, primary.WellSpelled :=
  Chain.Reads.leaves reads spelled fun _ _ => Expression.Reads.wellSpelled

end LineBasic.Syntax
