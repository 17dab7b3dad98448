import LineBasic.Proofs.Syntax.Tree

/-!
# Tokens have one tree

The tokens of a program stand for one tree only. The reason is found form by form: tokens that begin with
an item and go on with what can follow the item are split in one way, since the kind of the next token
tells whether the item goes on (`Determined`).
-/

namespace LineBasic.Syntax

set_option autoImplicit false

open Pass (Block)

variable {ι : Type}

/-- The tokens begin, if there are any, with one of these kinds. -/
def Heads (follow : Kind → Prop) (tokens : List Token) : Prop :=
  ∀ token, tokens.head? = some token → follow token.kind

theorem heads_cons {follow : Kind → Prop} {token : Token} (holds : follow token.kind)
    (tokens : List Token) : Heads follow (token :: tokens) := by
  intro first same
  cases same
  exact holds

theorem Heads.mono {follow wider : Kind → Prop} {tokens : List Token} (heads : Heads follow tokens)
    (weaken : ∀ kind, follow kind → wider kind) : Heads wider tokens :=
  fun token same => weaken _ (heads token same)

/-- Tokens are split in one way into those of an item and a rest that can follow it. -/
def Determined (item : List Token → ι → Prop) (follow : Kind → Prop) : Prop :=
  ∀ ⦃tokens tokens' rest rest' : List Token⦄ ⦃value value' : ι⦄, item tokens value →
    item tokens' value' → tokens ++ rest = tokens' ++ rest' → Heads follow rest →
    Heads follow rest' → value = value' ∧ rest = rest'

theorem Sign.operator_injective : Function.Injective Sign.operator := by
  intro sign sign' same
  cases sign <;> cases sign' <;> cases same <;> rfl

theorem Scale.operator_injective : Function.Injective Scale.operator := by
  intro scale scale' same
  cases scale <;> cases scale' <;> cases same <;> rfl

theorem Relation.operator_injective : Function.Injective Relation.operator := by
  intro relation relation' same
  cases relation <;> cases relation' <;> cases same <;> rfl

theorem Block.keyword_injective : Function.Injective Block.keyword := by
  intro block block' same
  cases block <;> cases block' <;> cases same <;> rfl

/-! ## Expressions -/

theorem Primary.Reads.eq {token : Token} {primary other : Primary} (reads : primary.Reads token)
    (again : other.Reads token) : primary = other := by
  cases reads with
  | number kind =>
    cases again with
    | number => rfl
    | name kind' => rw [kind] at kind'; cases kind'
  | name kind =>
    cases again with
    | number kind' => rw [kind] at kind'; cases kind'
    | name => rfl

theorem Primary.Reads.not_operator {token : Token} {primary : Primary} {op : Operator}
    (reads : primary.Reads token) : token.kind ≠ .operator op := by
  cases reads with
  | number kind => simp [kind]
  | name kind => simp [kind]

theorem determined_operand : Determined Operand.Reads fun _ => True := by
  intro tokens tokens' rest rest' value value' reads again same _ _
  cases reads with
  | plain reads =>
    cases again with
    | plain again =>
      cases same
      exact ⟨by rw [reads.eq again], rfl⟩
    | signed kind again =>
      cases same
      exact absurd kind reads.not_operator
  | @signed _ _ sign _ kind reads =>
    cases again with
    | plain again =>
      cases same
      exact absurd kind again.not_operator
    | @signed _ _ sign' _ kind' again =>
      cases same
      have signs : sign = sign' := by
        rw [kind] at kind'
        exact Sign.operator_injective (Kind.operator.inj kind')
      exact ⟨by rw [reads.eq again, signs], rfl⟩

namespace Chain

variable {ρ : Type} {operator : ρ → Operator} {item : List Token → ι → Prop} {inner follow : Kind → Prop}

theorem RestReads.heads (marks : ∀ joint, inner (.operator (operator joint)))
    (wider : ∀ kind, follow kind → inner kind) {tokens after : List Token} {rest : List (ρ × ι)}
    (reads : RestReads operator item tokens rest) (heads : Heads follow after) :
    Heads inner (tokens ++ after) := by
  cases reads with
  | nil => exact heads.mono wider
  | cons kind _ _ => exact heads_cons (kind ▸ marks _) _

/-- A chain is determined if its items are, its joints can follow an item and cannot follow the
chain. -/
theorem determined_rest (items : Determined item inner)
    (marks : ∀ joint, inner (.operator (operator joint)))
    (wider : ∀ kind, follow kind → inner kind) (stops : ∀ joint, ¬ follow (.operator (operator joint)))
    (injective : Function.Injective operator) :
    Determined (RestReads operator item) follow := by
  intro tokens tokens' after after' rest rest' reads again same heads heads'
  induction reads generalizing tokens' rest' with
  | nil =>
    cases again with
    | nil => exact ⟨rfl, same⟩
    | cons kind _ _ =>
      have : follow _ := heads _ (by rw [← List.nil_append after, same]; rfl)
      exact absurd (kind ▸ this) (stops _)
  | @cons mark joint tokens later operand rest kind reads more ih =>
    cases again with
    | nil =>
      have : follow _ := heads' mark (by rw [← List.nil_append after', ← same]; rfl)
      exact absurd (kind ▸ this) (stops _)
    | @cons mark' joint' tokens' later' operand' rest' kind' reads' more' =>
      simp only [List.cons_append, List.append_assoc, List.cons.injEq] at same
      obtain ⟨rfl, same⟩ := same
      have joints : joint = joint' := by
        apply injective
        rw [kind] at kind'
        exact Kind.operator.inj kind'
      obtain ⟨operands, same⟩ := items reads reads' same (more.heads marks wider heads)
        (more'.heads marks wider heads')
      obtain ⟨rests, same⟩ := ih more' same
      exact ⟨by rw [joints, operands, rests], same⟩

theorem determined (items : Determined item inner)
    (marks : ∀ joint, inner (.operator (operator joint)))
    (wider : ∀ kind, follow kind → inner kind) (stops : ∀ joint, ¬ follow (.operator (operator joint)))
    (injective : Function.Injective operator) :
    Determined (Reads operator item) follow := by
  intro tokens tokens' after after' chain chain' reads again same heads heads'
  obtain ⟨first, more⟩ := reads
  obtain ⟨first', more'⟩ := again
  rw [List.append_assoc, List.append_assoc] at same
  obtain ⟨firsts, same⟩ := items first first' same (more.heads marks wider heads)
    (more'.heads marks wider heads')
  obtain ⟨rests, same⟩ :=
    determined_rest items marks wider stops injective more more' same heads heads'
  refine ⟨?_, same⟩
  obtain ⟨f, r⟩ := chain
  obtain ⟨f', r'⟩ := chain'
  cases firsts
  cases rests
  rfl

end Chain

theorem determined_term : Determined Term.Reads fun kind => kind.isScale = false := by
  refine Chain.determined determined_operand (fun _ => trivial) (fun _ _ => trivial) ?_
    Scale.operator_injective
  intro joint apart
  cases joint <;> cases apart

theorem determined_expression :
    Determined Expression.Reads fun kind => kind.isScale = false ∧ kind.isSign = false := by
  refine Chain.determined determined_term ?_ (fun _ apart => apart.1) ?_ Sign.operator_injective
  · intro joint
    cases joint <;> rfl
  · intro joint apart
    cases joint <;> cases apart.2

theorem determined_condition :
    Determined Condition.Reads fun kind =>
      (kind.isScale = false ∧ kind.isSign = false) ∧ kind.isComparison = false := by
  intro tokens tokens' rest rest' condition condition' reads again same heads heads'
  obtain ⟨chains, same⟩ := Chain.determined determined_expression
    (fun joint => by cases joint <;> exact ⟨rfl, rfl⟩) (fun _ apart => apart.1)
    (fun joint apart => by cases joint <;> cases apart.2) Relation.operator_injective
    reads again same heads heads'
  refine ⟨?_, same⟩
  obtain ⟨chain, compares⟩ := condition
  obtain ⟨chain', compares'⟩ := condition'
  cases chains
  rfl

theorem Expression.Reads.eq {tokens : List Token} {value other : Expression}
    (reads : Expression.Reads tokens value) (again : Expression.Reads tokens other) : other = value := by
  have same : tokens ++ [] = tokens ++ [] := rfl
  exact (determined_expression again reads same nofun nofun).1

theorem Condition.Reads.eq {tokens : List Token} {condition other : Condition}
    (reads : condition.Reads tokens) (again : other.Reads tokens) : other = condition := by
  have same : tokens ++ [] = tokens ++ [] := rfl
  exact (determined_condition again reads same nofun nofun).1

theorem Operand.Reads.heads {tokens : List Token} {operand : Operand} (reads : operand.Reads tokens)
    (rest : List Token) : Heads (fun kind => kind ≠ .string) (tokens ++ rest) := by
  cases reads with
  | plain reads =>
    cases reads with
    | number kind => exact heads_cons (by simp [kind]) _
    | name kind => exact heads_cons (by simp [kind]) _
  | signed kind _ => exact heads_cons (by simp [kind]) _

/-- An expression begins with an operand, never with a string. -/
theorem Expression.Reads.heads {tokens : List Token} {value : Expression}
    (reads : Expression.Reads tokens value) (rest : List Token) :
    Heads (fun kind => kind ≠ .string) (tokens ++ rest) := by
  obtain ⟨⟨first, _⟩, _⟩ := reads
  rw [List.append_assoc, List.append_assoc]
  exact first.heads _

/-! ## Lines -/

theorem eq_of_newlines {tokens tokens' rest rest' : List Token}
    (blank : ∀ token ∈ tokens, token.kind = .newline)
    (blank' : ∀ token ∈ tokens', token.kind = .newline) (same : tokens ++ rest = tokens' ++ rest')
    (heads : Heads (· ≠ .newline) rest) (heads' : Heads (· ≠ .newline) rest') : rest = rest' := by
  induction tokens generalizing tokens' with
  | nil =>
    cases tokens' with
    | nil => exact same
    | cons token tokens' =>
      exact absurd (blank' token List.mem_cons_self)
        (heads token (by rw [← List.nil_append rest, same]; rfl))
  | cons token tokens ih =>
    cases tokens' with
    | nil =>
      exact absurd (blank token List.mem_cons_self)
        (heads' token (by rw [← List.nil_append rest', ← same]; rfl))
    | cons token' tokens' =>
      exact ih (fun t member => blank t (List.mem_cons_of_mem _ member))
        (fun t member => blank' t (List.mem_cons_of_mem _ member)) (List.cons.inj same).2

theorem LineEnd.heads {newlines : List Token} (ends : LineEnd newlines) (rest : List Token) :
    Heads (· = .newline) (newlines ++ rest) := by
  obtain ⟨some, blank⟩ := ends
  cases newlines with
  | nil => exact absurd rfl some
  | cons token newlines => exact heads_cons (blank token List.mem_cons_self) _

theorem determined_simple (keyword : Token) :
    Determined (fun tokens statement => Simple.Reads keyword tokens statement) (· = .newline) := by
  intro tokens tokens' rest rest' statement statement' reads again same heads heads'
  have ends {after : List Token} (heads : Heads (· = .newline) after) :
      Heads (fun kind => kind.isScale = false ∧ kind.isSign = false) after :=
    heads.mono fun kind newline => by rw [newline]; exact ⟨rfl, rfl⟩
  cases reads with
  | printText begins kind =>
    cases again with
    | printText => cases same; exact ⟨rfl, rfl⟩
    | print _ reads => exact absurd kind (reads.heads rest' _ (by rw [← same]; rfl))
    | _ => simp_all only [Kind.keyword.injEq, reduceCtorEq]
  | print begins reads =>
    cases again with
    | printText _ kind => exact absurd kind (reads.heads rest _ (by rw [same]; rfl))
    | print _ again =>
      obtain ⟨values, same⟩ := determined_expression reads again same (ends heads) (ends heads')
      exact ⟨by rw [values], same⟩
    | _ => simp_all only [Kind.keyword.injEq, reduceCtorEq]
  | label begins kind =>
    cases again with
    | label => cases same; exact ⟨rfl, rfl⟩
    | _ => simp_all only [Kind.keyword.injEq, reduceCtorEq]
  | goto begins kind =>
    cases again with
    | goto => cases same; exact ⟨rfl, rfl⟩
    | _ => simp_all only [Kind.keyword.injEq, reduceCtorEq]
  | assign begins kind equals reads =>
    cases again with
    | assign _ kind' equals' again =>
      simp only [List.cons_append, List.cons.injEq] at same
      obtain ⟨rfl, -, same⟩ := same
      obtain ⟨values, same⟩ := determined_expression reads again same (ends heads) (ends heads')
      exact ⟨by rw [values], same⟩
    | _ => simp_all only [Kind.keyword.injEq, reduceCtorEq]
  | input begins kind =>
    cases again with
    | input => cases same; exact ⟨rfl, rfl⟩
    | _ => simp_all only [Kind.keyword.injEq, reduceCtorEq]

theorem determined_head (block : Block) : Determined (HeadReads block) (· ≠ .newline) := by
  intro tokens tokens' rest rest' condition condition' reads again same heads heads'
  obtain ⟨compared, opens, ends⟩ := reads
  obtain ⟨compared', opens', ends'⟩ := again
  simp only [List.append_assoc, List.cons_append] at same
  have opened {opener : Token} (opens : opener.kind = .keyword block.opener) (after : List Token) :
      Heads (fun kind => (kind.isScale = false ∧ kind.isSign = false) ∧ kind.isComparison = false)
        (opener :: after) := heads_cons (by rw [opens]; exact ⟨⟨rfl, rfl⟩, rfl⟩) _
  obtain ⟨conditions, same⟩ :=
    determined_condition compared compared' same (opened opens _) (opened opens' _)
  exact ⟨conditions, eq_of_newlines ends.2 ends'.2 (List.cons.inj same).2 heads heads'⟩

/-! ## Statements -/

/-- What can follow the statements of a program or of a block. -/
def EndsCode (kind : Kind) : Prop := kind = .eof ∨ ∃ block : Block, kind = .keyword block.closer

theorem EndsCode.not_newline {kind : Kind} (ends : EndsCode kind) : kind ≠ .newline := by
  rcases ends with rfl | ⟨block, rfl⟩ <;> simp

theorem Simple.Reads.not_endsCode {keyword : Token} {tokens : List Token} {statement : Simple}
    (reads : statement.Reads keyword tokens) : ¬ EndsCode keyword.kind := by
  rintro (isEnd | ⟨block, closes⟩)
  · cases reads <;> simp_all only [reduceCtorEq]
  · cases block <;> cases reads <;> simp_all only [Block.closer, Kind.keyword.injEq, reduceCtorEq]

theorem Simple.Reads.not_block {keyword : Token} {tokens : List Token} {statement : Simple}
    (reads : statement.Reads keyword tokens) (block : Block) :
    keyword.kind ≠ .keyword block.keyword := by
  intro begins
  cases block <;> cases reads <;> simp_all only [Block.keyword, Kind.keyword.injEq, reduceCtorEq]

theorem not_endsCode_of_block {keyword : Token} {block : Block}
    (begins : keyword.kind = .keyword block.keyword) : ¬ EndsCode keyword.kind := by
  rw [begins]
  rintro (isEnd | ⟨other, closes⟩)
  · cases isEnd
  · cases block <;> cases other <;> cases closes

/-- Statements begin with a keyword, so no newline is left before them. -/
theorem Code.Reads.heads {tokens rest : List Token} {code : Code} (reads : code.Reads tokens)
    (heads : Heads EndsCode rest) : Heads (· ≠ .newline) (tokens ++ rest) := by
  cases reads with
  | done => exact heads.mono fun _ ends => ends.not_newline
  | simple first ends more => exact heads_cons (by cases first <;> simp [*]) _
  | block begins opens holds closes ends more => exact heads_cons (by simp [begins]) _

theorem determined_code : Determined (fun tokens code => Code.Reads tokens code) EndsCode := by
  intro tokens tokens' rest rest' code code' reads again same heads heads'
  induction reads generalizing tokens' rest rest' code' with
  | done =>
    cases again with
    | done => exact ⟨rfl, same⟩
    | simple first _ _ => exact absurd (heads _ (by rw [← List.nil_append rest, same]; rfl)) first.not_endsCode
    | block begins _ _ _ _ _ =>
      exact absurd (heads _ (by rw [← List.nil_append rest, same]; rfl)) (not_endsCode_of_block begins)
  | @simple keyword tokens newlines later statement next first ends more ih =>
    cases again with
    | done =>
      exact absurd (heads' keyword (by rw [← List.nil_append rest', ← same]; rfl)) first.not_endsCode
    | simple first' ends' more' =>
      simp only [List.cons_append, List.append_assoc, List.cons.injEq] at same
      obtain ⟨rfl, same⟩ := same
      obtain ⟨rfl, same⟩ := determined_simple keyword first first' same (ends.heads _) (ends'.heads _)
      have same := eq_of_newlines ends.2 ends'.2 same (more.heads heads) (more'.heads heads')
      obtain ⟨rfl, same⟩ := ih more' same heads heads'
      exact ⟨rfl, same⟩
    | block begins _ _ _ _ _ =>
      simp only [List.cons_append, List.append_assoc, List.cons.injEq] at same
      obtain ⟨rfl, -⟩ := same
      exact absurd begins (first.not_block _)
  | @block keyword closer head inner newlines later kind condition body next begins opens holds closes
      ends more ihBody ihNext =>
    cases again with
    | done =>
      exact absurd (heads' keyword (by rw [← List.nil_append rest', ← same]; rfl))
        (not_endsCode_of_block begins)
    | simple first' _ _ =>
      simp only [List.cons_append, List.append_assoc, List.cons.injEq] at same
      obtain ⟨rfl, -⟩ := same
      exact absurd begins (first'.not_block _)
    | @block keyword' closer' head' inner' newlines' later' kind' condition' body' next' begins' opens'
        holds' closes' ends' more' =>
      simp only [List.cons_append, List.append_assoc, List.cons.injEq] at same
      obtain ⟨rfl, same⟩ := same
      have kinds : kind = kind' := by
        rw [begins] at begins'
        exact Block.keyword_injective (Kind.keyword.inj begins')
      subst kinds
      have closed {token : Token} (closes : token.kind = .keyword kind.closer) (after : List Token) :
          Heads EndsCode (token :: after) := heads_cons (.inr ⟨kind, closes⟩) _
      obtain ⟨rfl, same⟩ := determined_head kind opens opens' same (holds.heads (closed closes _))
        (holds'.heads (closed closes' _))
      obtain ⟨rfl, same⟩ := ihBody holds' same (closed closes _) (closed closes' _)
      have same := eq_of_newlines ends.2 ends'.2 (List.cons.inj same).2 (more.heads heads)
        (more'.heads heads')
      obtain ⟨rfl, same⟩ := ihNext more' same heads heads'
      exact ⟨rfl, same⟩

/-- The tokens of a program have one tree. -/
theorem Code.ReadsProgram.eq {tokens : List Token} {code other : Code}
    (reads : code.ReadsProgram tokens) (again : other.ReadsProgram tokens) : code = other := by
  generalize same : tokens = tokens' at again
  obtain ⟨blanks, reads, ends⟩ := reads
  obtain ⟨blanks', reads', ends'⟩ := again
  rw [List.append_assoc, List.append_assoc] at same
  have last {token : Token} (ends : token.kind = .eof) : Heads EndsCode [token] :=
    heads_cons (.inl ends) _
  have same := eq_of_newlines blanks blanks' same (reads.heads (last ends)) (reads'.heads (last ends'))
  exact (determined_code reads reads' same (last ends) (last ends')).1

end LineBasic.Syntax
