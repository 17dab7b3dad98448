import LineBasic.Proofs.Names.Rules
import LineBasic.Proofs.Syntax.Tree

/-!
# What places matter to

Tokens can be put elsewhere without a change of their words (`Relocates`). Names and the rules for them do not depend
on places (`wellNamed_map`), and a tree depends on them only in the numbers of its lines
(`Code.ReadsProgram.relocated`).
-/

namespace LineBasic

set_option autoImplicit false

/-- The tokens are put elsewhere, and the number of each line becomes another one. -/
structure Relocates (move : Token → Token) (renumber : Int → Int) : Prop where
  kind (token : Token) : (move token).kind = token.kind
  text (token : Token) : (move token).text = token.text
  line (token : Token) : (move token).location.line = renumber token.location.line

variable {move : Token → Token} {renumber : Int → Int} {tokens : List Token}

/-! ## Names -/

theorem throughout_map {holds : List Token → Token → Prop} (f : Token → Token) :
    Throughout holds (tokens.map f) ↔
      Throughout (fun before token => holds (before.map f) (f token)) tokens := by
  induction tokens using List.reverseRecOn with
  | nil => simp [throughout_nil]
  | append_singleton tokens last ih =>
    rw [List.map_append, List.map_singleton, throughout_concat, throughout_concat, ih]

section Names

variable (relocates : Relocates move renumber)

include relocates

theorem Role.next_map (tokens : List Token) : Role.next (tokens.map move) = Role.next tokens := by
  induction tokens using List.reverseRecOn with
  | nil => rfl
  | append_singleton tokens last ih =>
    rw [List.map_append, List.map_singleton, next_concat, next_concat, relocates.kind]

theorem inRole_map (role : Role) (tokens : List Token) :
    inRole role (tokens.map move) = (inRole role tokens).map move := by
  induction tokens using List.reverseRecOn with
  | nil => rfl
  | append_singleton tokens last ih =>
    rw [List.map_append, List.map_singleton, inRole_concat, inRole_concat, ih, Role.next_map relocates,
      List.map_append]
    split <;> rfl

theorem texts_inRole_map (role : Role) (tokens : List Token) :
    (inRole role (tokens.map move)).map (·.text) = (inRole role tokens).map (·.text) := by
  rw [inRole_map relocates, List.map_map]
  exact List.map_congr_left fun token _ => relocates.text token

theorem finished_map (tokens : List Token) :
    finished (tokens.map move) = (finished tokens).map move := by
  induction tokens using List.reverseRecOn with
  | nil => rfl
  | append_singleton tokens last ih =>
    have kind := relocates.kind last
    rw [List.map_append, List.map_singleton]
    by_cases newline : last.kind = .newline
    · rw [finished_concat_newline _ newline, finished_concat_newline _ (kind.trans newline), List.map_append,
        List.map_singleton]
    · rw [finished_concat_other _ newline, finished_concat_other _ (kind ▸ newline), ih]

theorem exists_inRole_map (role : Role) (tokens : List Token) (name : String) :
    (∃ token ∈ inRole role (tokens.map move), token.text = name) ↔
      ∃ token ∈ inRole role tokens, token.text = name := by
  rw [← List.mem_map, texts_inRole_map relocates, List.mem_map]

theorem forall_inRole_map (role : Role) (tokens : List Token) (P : String → Prop) :
    (∀ token ∈ inRole role (tokens.map move), P token.text) ↔
      ∀ token ∈ inRole role tokens, P token.text := by
  simp only [inRole_map relocates, List.forall_mem_map, relocates.text]

/-- Places do not matter to the rules of names. -/
theorem wellNamed_map : WellNamed (tokens.map move) ↔ WellNamed tokens := by
  have reads : Throughout (fun before token => Role.next before = .plain → token.kind = .ident →
        ∃ target ∈ inRole .target (finished before), target.text = token.text) (tokens.map move) ↔
      Throughout (fun before token => Role.next before = .plain → token.kind = .ident →
        ∃ target ∈ inRole .target (finished before), target.text = token.text) tokens := by
    rw [throughout_map]
    simp only [Role.next_map relocates, relocates.kind, relocates.text, finished_map relocates,
      exists_inRole_map relocates]
  have labels := texts_inRole_map relocates .label tokens
  have jumps : (∀ jump ∈ inRole .jump (tokens.map move),
        ∃ label ∈ inRole .label (tokens.map move), label.text = jump.text) ↔
      ∀ jump ∈ inRole .jump tokens, ∃ label ∈ inRole .label tokens, label.text = jump.text := by
    simp only [exists_inRole_map relocates]
    exact forall_inRole_map relocates .jump tokens
      fun name => ∃ label ∈ inRole .label tokens, label.text = name
  have free (role : Role) (reserved : List String) :=
    forall_inRole_map relocates role tokens (· ∉ reserved)
  constructor
  · intro named
    exact ⟨reads.1 named.reads, labels ▸ named.labelsOnce, jumps.1 named.jumpsDefined,
      (free _ _).1 named.targetsFree, (free _ _).1 named.labelsFree, (free _ _).1 named.jumpsFree⟩
  · intro named
    exact ⟨reads.2 named.reads, labels.symm ▸ named.labelsOnce, jumps.2 named.jumpsDefined,
      (free _ _).2 named.targetsFree, (free _ _).2 named.labelsFree, (free _ _).2 named.jumpsFree⟩

end Names

/-! ## Trees -/

namespace Syntax

/-- Statements that begin on lines with other numbers. -/
def Code.relined (renumber : Int → Int) : Code → Code
  | .done => .done
  | .simple line statement next => .simple (renumber line) statement (next.relined renumber)
  | .block line kind condition body next =>
      .block (renumber line) kind condition (body.relined renumber) (next.relined renumber)

theorem Code.relined_id (code : Code) : code.relined id = code := by
  induction code with
  | done => rfl
  | simple line statement next ih => rw [relined, ih]; rfl
  | block line kind condition body next ihBody ihNext => rw [relined, ihBody, ihNext]; rfl

section Trees

variable (relocates : Relocates move renumber)

include relocates

theorem Primary.Reads.relocated {token : Token} {primary : Primary} (reads : primary.Reads token) :
    primary.Reads (move token) := by
  cases reads with
  | number kind =>
    rw [← relocates.text]
    exact .number ((relocates.kind token).trans kind)
  | name kind =>
    rw [← relocates.text]
    exact .name ((relocates.kind token).trans kind)

theorem Operand.Reads.relocated {operand : Operand} (reads : operand.Reads tokens) :
    operand.Reads (tokens.map move) := by
  cases reads with
  | plain reads => exact .plain (reads.relocated relocates)
  | signed kind reads => exact .signed ((relocates.kind _).trans kind) (reads.relocated relocates)

section Chains

variable {ρ ι : Type} {operator : ρ → Operator} {item : List Token → ι → Prop}

theorem Chain.RestReads.relocated {rest : List (ρ × ι)}
    (items : ∀ {tokens operand}, item tokens operand → item (tokens.map move) operand)
    (reads : RestReads operator item tokens rest) :
    RestReads operator item (tokens.map move) rest := by
  induction reads with
  | nil => exact .nil
  | cons kind reads more ih =>
    rw [List.map_append, List.map_cons]
    exact .cons ((relocates.kind _).trans kind) (items reads) ih

theorem Chain.Reads.relocated {chain : Chain ρ ι}
    (items : ∀ {tokens operand}, item tokens operand → item (tokens.map move) operand)
    (reads : Reads operator item tokens chain) : Reads operator item (tokens.map move) chain := by
  obtain ⟨first, more⟩ := reads
  rw [List.map_append]
  exact .mk (items first) (more.relocated relocates items)

end Chains

theorem Expression.Reads.relocated {value : Expression} (reads : Expression.Reads tokens value) :
    Expression.Reads (tokens.map move) value :=
  Chain.Reads.relocated relocates
    (Chain.Reads.relocated relocates (Operand.Reads.relocated relocates)) reads

theorem Condition.Reads.relocated {condition : Condition} (reads : condition.Reads tokens) :
    condition.Reads (tokens.map move) :=
  Chain.Reads.relocated relocates (Expression.Reads.relocated relocates) reads

theorem newlines_relocated (newlines : ∀ token ∈ tokens, token.kind = .newline) :
    ∀ token ∈ tokens.map move, token.kind = .newline := by
  intro token member
  obtain ⟨newline, listed, rfl⟩ := List.mem_map.1 member
  rw [relocates.kind, newlines newline listed]

theorem LineEnd.relocated (ends : LineEnd tokens) : LineEnd (tokens.map move) :=
  ⟨by simpa using ends.1, newlines_relocated relocates ends.2⟩

theorem Simple.Reads.relocated {keyword : Token} {statement : Simple}
    (reads : statement.Reads keyword tokens) : statement.Reads (move keyword) (tokens.map move) := by
  have kind {token : Token} {kind : Kind} (same : token.kind = kind) : (move token).kind = kind :=
    (relocates.kind token).trans same
  cases reads with
  | printText begins string => rw [← relocates.text]; exact .printText (kind begins) (kind string)
  | print begins reads => exact .print (kind begins) (reads.relocated relocates)
  | label begins name => rw [← relocates.text]; exact .label (kind begins) (kind name)
  | goto begins name => rw [← relocates.text]; exact .goto (kind begins) (kind name)
  | assign begins name equals reads =>
    rw [← relocates.text]
    exact .assign (kind begins) (kind name) (kind equals) (reads.relocated relocates)
  | input begins name => rw [← relocates.text]; exact .input (kind begins) (kind name)

theorem HeadReads.relocated {block : Pass.Block} {condition : Condition}
    (reads : HeadReads block tokens condition) : HeadReads block (tokens.map move) condition := by
  obtain ⟨compared, opens, ends⟩ := reads
  rw [List.map_append, List.map_cons]
  exact .mk (compared.relocated relocates) ((relocates.kind _).trans opens) (ends.relocated relocates)

theorem Code.Reads.relocated {code : Code} (reads : code.Reads tokens) :
    (code.relined renumber).Reads (tokens.map move) := by
  induction reads with
  | done => exact .done
  | simple first ends _ ih =>
    rw [List.map_append, List.map_append, List.map_cons, relined, ← relocates.line]
    exact .simple (first.relocated relocates) (ends.relocated relocates) ih
  | block begins opens _ closes ends _ ihBody ihNext =>
    rw [List.map_append, List.map_append, List.map_append, List.map_cons, List.map_cons, relined,
      ← relocates.line]
    exact .block ((relocates.kind _).trans begins) (opens.relocated relocates) ihBody
      ((relocates.kind _).trans closes) (ends.relocated relocates) ihNext

theorem Code.ReadsProgram.relocated {code : Code} (reads : code.ReadsProgram tokens) :
    (code.relined renumber).ReadsProgram (tokens.map move) := by
  obtain ⟨blanks, reads, ends⟩ := reads
  rw [List.map_append, List.map_append, List.map_singleton]
  exact .mk (newlines_relocated relocates blanks) (reads.relocated relocates)
    ((relocates.kind _).trans ends)

end Trees

end Syntax

end LineBasic
