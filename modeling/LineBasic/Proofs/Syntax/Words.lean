import LineBasic.Proofs.Syntax.Spelling
import LineBasic.Proofs.Syntax.Unique

/-!
# The words of a tree

A word is a token without its place. The tokens of a tree carry words that the tree determines, up to the
number of newlines between its lines, and these words determine the tree in turn, up to the numbers of its
lines (`Code.words_eq_iff`). `withoutLayout` is what is left of the tokens of a program when empty lines
are dropped: the words of its tree (`Code.ReadsProgram.withoutLayout`).
-/

namespace LineBasic

set_option autoImplicit false

structure Word where
  kind : Kind
  text : String
  deriving DecidableEq

def Token.word (token : Token) : Word := ⟨token.kind, token.text⟩

@[simp] theorem Token.word_kind (token : Token) : token.word.kind = token.kind := rfl

namespace Word

def keyword (word : Keyword) : Word := ⟨.keyword word, word.spelling⟩

def operator (op : Operator) : Word := ⟨.operator op, op.spelling⟩

def newline : Word := ⟨.newline, "\n"⟩

def eof : Word := ⟨.eof, ""⟩

/-- A token that carries the word, at no place in particular. -/
def token (word : Word) : Token := ⟨word.kind, word.text, ⟨"", 0, 0⟩⟩

@[simp] theorem token_line (word : Word) : word.token.location.line = 0 := rfl

end Word

/-- The word of a token whose kind leaves no choice of the text. -/
theorem Token.IsSpelled.word_eq {token : Token} {word : Word} (spelled : token.IsSpelled)
    (kind : token.kind = word.kind) (fixed : ∀ text, Spelled word.kind text → text = word.text.toList) :
    token.word = word := by
  unfold IsSpelled at spelled
  rw [kind] at spelled
  have text : token.text = word.text := String.ext (fixed _ spelled)
  unfold Token.word
  rw [kind, text]

namespace Syntax

open Pass (Block)

variable {ρ ι : Type}

/-! ## Expressions -/

def Primary.word : Primary → Word
  | .number text => ⟨.number, text⟩
  | .name text => ⟨.ident, text⟩

def Operand.words : Operand → List Word
  | ⟨none, primary⟩ => [primary.word]
  | ⟨some sign, primary⟩ => [.operator sign.operator, primary.word]

namespace Chain

variable (operator : ρ → Operator) (item : ι → List Word)

def restWords : List (ρ × ι) → List Word
  | [] => []
  | (joint, operand) :: rest => .operator (operator joint) :: item operand ++ restWords rest

def words (chain : Chain ρ ι) : List Word := item chain.first ++ restWords operator item chain.rest

end Chain

def Term.words : Term → List Word := Chain.words Scale.operator Operand.words

def Expression.words : Expression → List Word := Chain.words Sign.operator Term.words

def Condition.words (condition : Condition) : List Word :=
  Chain.words Relation.operator Expression.words condition.toChain

/-- The tokens of a form carry its words, and tokens that carry its words can be read as it. -/
structure Carries (item : List Token → ι → Prop) (words : ι → List Word) : Prop where
  words_eq {tokens : List Token} {value : ι} (reads : item tokens value) (spelled : AllSpelled tokens) :
    tokens.map Token.word = words value
  reads (value : ι) : item ((words value).map Word.token) value

theorem Carries.injective {item : List Token → ι → Prop} {words : ι → List Word} {follow : Kind → Prop}
    (carries : Carries item words) (determined : Determined item follow) :
    Function.Injective words := by
  intro value other same
  have reads := carries.reads value
  rw [same] at reads
  have whole : (words other).map Word.token ++ [] = (words other).map Word.token ++ [] := rfl
  exact (determined reads (carries.reads other) whole nofun nofun).1

theorem word_operator {mark : Token} {op : Operator} (kind : mark.kind = .operator op)
    (spelled : mark.IsSpelled) : mark.word = .operator op :=
  spelled.word_eq kind fun _ => id

theorem word_keyword {token : Token} {word : Keyword} (kind : token.kind = .keyword word)
    (spelled : token.IsSpelled) : token.word = .keyword word :=
  spelled.word_eq kind fun _ => id

theorem Primary.Reads.word_eq {token : Token} {primary : Primary} (reads : primary.Reads token) :
    token.word = primary.word := by
  cases reads with
  | number kind => rw [Token.word, kind]; rfl
  | name kind => rw [Token.word, kind]; rfl

theorem Primary.reads_word (primary : Primary) : primary.Reads primary.word.token := by
  cases primary with
  | number text => exact .number (show (number text).word.token.kind = _ from rfl)
  | name text => exact .name (show (name text).word.token.kind = _ from rfl)

theorem carries_operand : Carries Operand.Reads Operand.words where
  words_eq reads spelled := by
    cases reads with
    | plain reads => rw [List.map_singleton, reads.word_eq]; rfl
    | signed kind reads =>
      rw [List.map_cons, List.map_singleton, word_operator kind (spelled _ (by simp)), reads.word_eq]
      rfl
  reads operand := by
    obtain ⟨sign, primary⟩ := operand
    cases sign with
    | none => exact .plain primary.reads_word
    | some sign => exact .signed rfl primary.reads_word

section Chains

variable {operator : ρ → Operator} {item : List Token → ι → Prop} {words : ι → List Word}

theorem carries_rest (items : Carries item words) :
    Carries (Chain.RestReads operator item) (Chain.restWords operator words) where
  words_eq reads spelled := by
    induction reads with
    | nil => rfl
    | cons kind reads more ih =>
      obtain ⟨inner, later⟩ := List.forall_mem_append.1 spelled
      obtain ⟨mark, inner⟩ := List.forall_mem_cons.1 inner
      rw [List.map_append, List.map_cons, word_operator kind mark, items.words_eq reads inner, ih later]
      rfl
  reads links := by
    induction links with
    | nil => exact .nil
    | cons link links ih =>
      have mark : (Word.operator (operator link.1)).token.kind = .operator (operator link.1) := rfl
      have joined := Chain.RestReads.cons mark (items.reads link.2) ih
      simpa [Chain.restWords] using joined

theorem carries_chain (items : Carries item words) :
    Carries (Chain.Reads operator item) (Chain.words operator words) where
  words_eq reads spelled := by
    obtain ⟨first, more⟩ := reads
    obtain ⟨inner, later⟩ := List.forall_mem_append.1 spelled
    rw [List.map_append, items.words_eq first inner, (carries_rest items).words_eq more later]
    rfl
  reads chain := by
    rw [Chain.words, List.map_append]
    exact .mk (items.reads chain.first) ((carries_rest items).reads chain.rest)

end Chains

theorem carries_expression : Carries Expression.Reads Expression.words :=
  carries_chain (carries_chain carries_operand)

theorem carries_condition : Carries Condition.Reads Condition.words where
  words_eq := (carries_chain carries_expression).words_eq
  reads condition := (carries_chain carries_expression).reads condition.toChain

theorem Expression.words_injective : Function.Injective Expression.words :=
  carries_expression.injective determined_expression

theorem Condition.words_injective : Function.Injective Condition.words :=
  carries_condition.injective determined_condition

/-! ## Statements -/

/-- The words of a simple statement without the end of the line. -/
def Simple.words : Simple → List Word
  | .printText text => [.keyword .print, ⟨.string, text⟩]
  | .print value => .keyword .print :: value.words
  | .label name => [.keyword .label, ⟨.ident, name⟩]
  | .goto name => [.keyword .goto, ⟨.ident, name⟩]
  | .assign name value => .keyword .let_ :: ⟨.ident, name⟩ :: .operator .assign :: value.words
  | .input name => [.keyword .input, ⟨.ident, name⟩]

/-- The words of statements, with one newline at the end of each line. -/
def Code.words : Code → List Word
  | .done => []
  | .simple _ statement next => statement.words ++ .newline :: next.words
  | .block _ kind condition body next =>
      .keyword kind.keyword :: condition.words ++ .keyword kind.opener :: .newline :: body.words
        ++ .keyword kind.closer :: .newline :: next.words

/-- Statements without the numbers of their lines. -/
def Code.bare : Code → Code
  | .done => .done
  | .simple _ statement next => .simple 0 statement next.bare
  | .block _ kind condition body next => .block 0 kind condition body.bare next.bare

theorem Simple.Reads.words_eq {keyword : Token} {tokens : List Token} {statement : Simple}
    (reads : statement.Reads keyword tokens) (spelled : AllSpelled (keyword :: tokens)) :
    (keyword :: tokens).map Token.word = statement.words := by
  obtain ⟨begun, rest⟩ := List.forall_mem_cons.1 spelled
  have named {token : Token} {kind : Kind} (same : token.kind = kind) :
      token.word = ⟨kind, token.text⟩ := by rw [Token.word, same]
  cases reads with
  | printText begins kind =>
    rw [List.map_cons, List.map_singleton, word_keyword begins begun, named kind]
    rfl
  | print begins reads =>
    rw [List.map_cons, word_keyword begins begun, carries_expression.words_eq reads rest]
    rfl
  | label begins kind =>
    rw [List.map_cons, List.map_singleton, word_keyword begins begun, named kind]
    rfl
  | goto begins kind =>
    rw [List.map_cons, List.map_singleton, word_keyword begins begun, named kind]
    rfl
  | assign begins kind equals reads =>
    obtain ⟨-, rest⟩ := List.forall_mem_cons.1 rest
    obtain ⟨mark, rest⟩ := List.forall_mem_cons.1 rest
    rw [List.map_cons, List.map_cons, List.map_cons, word_keyword begins begun, named kind,
      word_operator equals mark, carries_expression.words_eq reads rest]
    rfl
  | input begins kind =>
    rw [List.map_cons, List.map_singleton, word_keyword begins begun, named kind]
    rfl

theorem Simple.reads_words (statement : Simple) :
    ∃ keyword tokens, statement.words.map Word.token = keyword :: tokens ∧
      statement.Reads keyword tokens ∧ keyword.location.line = 0 := by
  have named (name : String) : (Word.mk .ident name).token.kind = .ident := rfl
  cases statement with
  | printText text =>
    exact ⟨_, _, rfl, .printText rfl (show (Word.mk .string text).token.kind = _ from rfl), rfl⟩
  | print value => exact ⟨_, _, rfl, .print rfl (carries_expression.reads value), rfl⟩
  | label name => exact ⟨_, _, rfl, .label rfl (named name), rfl⟩
  | goto name => exact ⟨_, _, rfl, .goto rfl (named name), rfl⟩
  | assign name value =>
    exact ⟨_, _, rfl, .assign rfl (named name) rfl (carries_expression.reads value), rfl⟩
  | input name => exact ⟨_, _, rfl, .input rfl (named name), rfl⟩

theorem lineEnd_newline : LineEnd [Word.newline.token] := ⟨nofun, by simp [Word.token, Word.newline]⟩

theorem Code.reads_words (code : Code) : code.bare.Reads (code.words.map Word.token) := by
  induction code with
  | done => exact .done
  | simple line statement next ih =>
    obtain ⟨keyword, tokens, same, reads, unplaced⟩ := statement.reads_words
    have joined := Code.Reads.simple reads lineEnd_newline ih
    rw [unplaced] at joined
    simpa [words, bare, same] using joined
  | block line kind condition body next ihBody ihNext =>
    have head : HeadReads kind _ condition :=
      .mk (carries_condition.reads condition)
        (show (Word.keyword kind.opener).token.kind = _ from rfl) lineEnd_newline
    have joined := Code.Reads.block (show (Word.keyword kind.keyword).token.kind = _ from rfl) head ihBody
      (show (Word.keyword kind.closer).token.kind = _ from rfl) lineEnd_newline ihNext
    simpa [words, bare] using joined

theorem Code.words_bare (code : Code) : code.bare.words = code.words := by
  induction code with
  | done => rfl
  | simple line statement next ih => simp only [bare, words, ih]
  | block line kind condition body next ihBody ihNext => simp only [bare, words, ihBody, ihNext]

/-- The words of statements say everything but the numbers of their lines. -/
theorem Code.words_eq_iff {code other : Code} : code.words = other.words ↔ code.bare = other.bare := by
  constructor
  · intro same
    have reads := code.reads_words
    rw [same] at reads
    have whole : other.words.map Word.token ++ [] = other.words.map Word.token ++ [] := rfl
    exact (determined_code reads other.reads_words whole nofun nofun).1
  · intro same
    rw [← code.words_bare, same, words_bare]

/-! ## Layout -/

/-- Makes one newline of each run of newlines. -/
def collapse : List Word → List Word
  | first :: second :: rest =>
      if first.kind = .newline ∧ second.kind = .newline then collapse (second :: rest)
      else first :: collapse (second :: rest)
  | short => short

/-- The words of tokens without empty lines. -/
def withoutLayout (tokens : List Token) : List Word :=
  collapse ((tokens.map Token.word).dropWhile fun word => word.kind = .newline)

theorem collapse_cons {word : Word} (inside : word.kind ≠ .newline) (rest : List Word) :
    collapse (word :: rest) = word :: collapse rest := by
  cases rest with
  | nil => rfl
  | cons second rest => rw [collapse, if_neg fun both => inside both.1]

theorem collapse_keyword (word : Keyword) (rest : List Word) :
    collapse (.keyword word :: rest) = .keyword word :: collapse rest :=
  collapse_cons (by simp [Word.keyword]) rest

theorem collapse_append {front : List Word} (inside : ∀ word ∈ front, word.kind ≠ .newline)
    (rest : List Word) : collapse (front ++ rest) = front ++ collapse rest := by
  induction front with
  | nil => rfl
  | cons word front ih =>
    obtain ⟨first, later⟩ := List.forall_mem_cons.1 inside
    rw [List.cons_append, collapse_cons first, ih later, List.cons_append]

/-- A run of newlines becomes one. -/
theorem collapse_lineEnd {newlines rest : List Token} (ends : LineEnd newlines)
    (spelled : AllSpelled newlines) (heads : Heads (· ≠ .newline) rest) :
    collapse ((newlines ++ rest).map Token.word) = .newline :: collapse (rest.map Token.word) := by
  obtain ⟨some, blank⟩ := ends
  induction newlines with
  | nil => exact absurd rfl some
  | cons token newlines ih =>
    obtain ⟨kind, blank⟩ := List.forall_mem_cons.1 blank
    obtain ⟨first, later⟩ := List.forall_mem_cons.1 spelled
    cases newlines with
    | nil =>
      have word : token.word = .newline := first.word_eq kind fun _ => id
      -- The last newline of the run stays: what follows it is none.
      cases rest with
      | nil => rw [List.append_nil, List.map_singleton, word]; rfl
      | cons second rest =>
        have inside : second.kind ≠ .newline := heads second rfl
        rw [List.singleton_append, List.map_cons, List.map_cons, word, collapse,
          if_neg fun both => inside both.2]
    | cons second newlines =>
      rw [← ih later nofun blank]
      simp only [List.cons_append, List.map_cons]
      rw [collapse, if_pos ⟨kind, blank second List.mem_cons_self⟩]

/-! No newline stands inside a line. -/

theorem Operand.words_inside (operand : Operand) : ∀ word ∈ operand.words, word.kind ≠ .newline := by
  obtain ⟨sign, primary⟩ := operand
  have leaf : primary.word.kind ≠ .newline := by cases primary <;> simp [Primary.word]
  cases sign <;> simp [words, leaf, Word.operator]

theorem Chain.words_inside {operator : ρ → Operator} {words : ι → List Word}
    (items : ∀ operand, ∀ word ∈ words operand, word.kind ≠ .newline) (chain : Chain ρ ι) :
    ∀ word ∈ chain.words operator words, word.kind ≠ .newline := by
  obtain ⟨first, links⟩ := chain
  refine List.forall_mem_append.2 ⟨items first, ?_⟩
  induction links with
  | nil => nofun
  | cons link links ih =>
    refine List.forall_mem_append.2 ⟨List.forall_mem_cons.2 ⟨?_, items link.2⟩, ih⟩
    simp [Word.operator]

theorem Expression.words_inside : ∀ value : Expression, ∀ word ∈ value.words, word.kind ≠ .newline :=
  Chain.words_inside (Chain.words_inside Operand.words_inside)

theorem Condition.words_inside (condition : Condition) :
    ∀ word ∈ condition.words, word.kind ≠ .newline :=
  Chain.words_inside Expression.words_inside condition.toChain

theorem Simple.words_inside (statement : Simple) :
    ∀ word ∈ statement.words, word.kind ≠ .newline := by
  cases statement with
  | print value => exact List.forall_mem_cons.2 ⟨nofun, value.words_inside⟩
  | assign name value =>
    have front : ∀ word ∈ [Word.keyword .let_, ⟨.ident, name⟩, .operator .assign],
        word.kind ≠ .newline := by simp [Word.keyword, Word.operator]
    exact List.forall_mem_append.2 ⟨front, value.words_inside⟩
  | _ => simp [words, Word.keyword]

theorem HeadReads.collapse_words {block : Block} {tokens rest : List Token} {condition : Condition}
    (reads : HeadReads block tokens condition) (spelled : AllSpelled tokens)
    (heads : Heads (· ≠ .newline) rest) :
    collapse ((tokens ++ rest).map Token.word) =
      condition.words ++ .keyword block.opener :: .newline :: collapse (rest.map Token.word) := by
  obtain ⟨compared, opens, ends⟩ := reads
  obtain ⟨inner, spelled⟩ := List.forall_mem_append.1 spelled
  obtain ⟨opener, newlines⟩ := List.forall_mem_cons.1 spelled
  rw [List.append_assoc, List.map_append, carries_condition.words_eq compared inner,
    collapse_append condition.words_inside, List.cons_append, List.map_cons, word_keyword opens opener,
    collapse_keyword, collapse_lineEnd ends newlines heads]

theorem Code.Reads.collapse_words {tokens : List Token} {code : Code} (reads : code.Reads tokens)
    (spelled : AllSpelled tokens) :
    ∀ {rest : List Token}, Heads EndsCode rest →
      collapse ((tokens ++ rest).map Token.word) = code.words ++ collapse (rest.map Token.word) := by
  induction reads with
  | done => exact fun _ => rfl
  | @simple keyword tokens newlines later statement next first ends more ih =>
    intro rest heads
    obtain ⟨spelled, spelledLater⟩ := List.forall_mem_append.1 spelled
    obtain ⟨spelledLine, spelledEnd⟩ := List.forall_mem_append.1 spelled
    rw [List.append_assoc, List.append_assoc, List.map_append, first.words_eq spelledLine,
      collapse_append statement.words_inside, collapse_lineEnd ends spelledEnd (more.heads heads),
      ih spelledLater heads]
    simp [words]
  | @block keyword closer head inner newlines later kind condition body next begins opens holds closes
      ends more ihBody ihNext =>
    intro rest heads
    obtain ⟨spelled, spelledLater⟩ := List.forall_mem_append.1 spelled
    obtain ⟨spelled, spelledEnd⟩ := List.forall_mem_append.1 spelled
    obtain ⟨spelledCloser, spelledEnd⟩ := List.forall_mem_cons.1 spelledEnd
    obtain ⟨spelled, spelledInner⟩ := List.forall_mem_append.1 spelled
    obtain ⟨spelledKeyword, spelledHead⟩ := List.forall_mem_cons.1 spelled
    have closed : Heads EndsCode (closer :: (newlines ++ (later ++ rest))) :=
      heads_cons (.inr ⟨kind, closes⟩) _
    have regroup : keyword :: head ++ inner ++ closer :: newlines ++ later ++ rest =
        keyword :: (head ++ (inner ++ closer :: (newlines ++ (later ++ rest)))) := by simp
    rw [regroup, List.map_cons, word_keyword begins spelledKeyword, collapse_keyword,
      opens.collapse_words spelledHead (holds.heads closed), ihBody spelledInner closed, List.map_cons,
      word_keyword closes spelledCloser, collapse_keyword,
      collapse_lineEnd ends spelledEnd (more.heads heads), ihNext spelledLater heads]
    simp [words]

theorem dropWhile_newlines {tokens : List Token} (heads : Heads (· ≠ .newline) tokens) :
    (tokens.map Token.word).dropWhile (fun word => word.kind = .newline) = tokens.map Token.word := by
  cases tokens with
  | nil => rfl
  | cons token tokens =>
    have inside : token.kind ≠ .newline := heads token rfl
    rw [List.map_cons, List.dropWhile_cons_of_neg (by simp [inside])]

/-- Without layout, the tokens of a program are the words of its tree. -/
theorem Code.ReadsProgram.withoutLayout {tokens : List Token} {code : Code}
    (reads : code.ReadsProgram tokens) (spelled : AllSpelled tokens) :
    withoutLayout tokens = code.words ++ [.eof] := by
  obtain ⟨blanks, reads, ends⟩ := reads
  rename_i blank tokens last
  obtain ⟨inner, spelledLast⟩ := List.forall_mem_append.1 spelled
  obtain ⟨-, inner⟩ := List.forall_mem_append.1 inner
  have final : Heads EndsCode [last] := heads_cons (.inl ends) _
  have eof : last.word = .eof := (spelledLast last (by simp)).word_eq ends fun _ => id
  unfold Syntax.withoutLayout
  rw [List.append_assoc, List.map_append, List.dropWhile_append_of_pos (by simpa using blanks),
    dropWhile_newlines (reads.heads final), reads.collapse_words inner final, List.map_singleton, eof]
  rfl

end Syntax

end LineBasic
