import LineBasic.Proofs.Grammar.Rule

/-!
# Stages of reading

A program can be read token by token with little memory: a stage within the current line and the
list of the blocks that are open, innermost first. `Point.next` says where a token leads, and where
it leads nowhere the token cannot stand.

`Point.rest` gives each position the words that can follow it, in terms of the grammar. The step law
`rest_cons` says that `next` follows these words exactly, and `completable` that no position is a dead
end. Together they decide the grammar: `derives_iff_run` for whole programs, `viable_iff_run` for their
beginnings.
-/

namespace LineBasic.Grammar

set_option autoImplicit false

open Pass (Block)

/-- What an expression is read for. -/
inductive Goal where
  /-- The rest of a line. -/
  | line
  /-- The condition of a block; `compared` once a comparison was read. -/
  | condition (block : Block) (compared : Bool)
  deriving DecidableEq

inductive Stage where
  /-- Before a statement, or before the end of a block or of the program. -/
  | lineStart
  /-- Before a name, which an assignment follows if `assigns` holds. -/
  | name (assigns : Bool)
  /-- Before the sign of an assignment. -/
  | assignment
  /-- Before an operand; if `text` holds, a string may stand in its place. -/
  | operand (goal : Goal) (text : Bool)
  /-- Between the sign of an operand and the operand. -/
  | signed (goal : Goal)
  /-- After an operand. -/
  | joined (goal : Goal)
  | lineEnd
  | done
  deriving DecidableEq

structure Point where
  stage : Stage
  blocks : List Block
  deriving DecidableEq

namespace Point

/-- The position before a program. -/
def start : Point := ⟨.lineStart, []⟩

/-- Where the end of an expression leads. -/
def afterExpression (blocks : List Block) : Goal → Kind → Option Point
  | .line, .newline => some ⟨.lineStart, blocks⟩
  | .condition block compared, kind =>
      if kind.isComparison then some ⟨.operand (.condition block true) false, blocks⟩
      else if compared ∧ kind = .keyword block.opener then some ⟨.lineEnd, block :: blocks⟩
      else none
  | _, _ => none

/-- Where the keyword of a statement leads. -/
def beginStatement (blocks : List Block) : Kind → Option Point
  | .keyword .print => some ⟨.operand .line true, blocks⟩
  | .keyword .if_ => some ⟨.operand (.condition .choice false) false, blocks⟩
  | .keyword .while_ => some ⟨.operand (.condition .loop false) false, blocks⟩
  | .keyword .label | .keyword .goto | .keyword .input => some ⟨.name false, blocks⟩
  | .keyword .let_ => some ⟨.name true, blocks⟩
  | _ => none

/-- Where the end of a block or of the program leads. -/
def endBlock : List Block → Kind → Option Point
  | [], kind => if kind = .eof then some ⟨.done, []⟩ else none
  | block :: outer, kind => if kind = .keyword block.closer then some ⟨.lineEnd, outer⟩ else none

/-- Where a primary leads. -/
def afterPrimary (goal : Goal) (blocks : List Block) : Kind → Option Point
  | .number | .ident => some ⟨.joined goal, blocks⟩
  | _ => none

/-- Where a token leads; nowhere if it cannot stand here. -/
def next : Point → Kind → Option Point
  | ⟨.lineStart, blocks⟩, kind =>
      if kind = .newline then some ⟨.lineStart, blocks⟩
      else (beginStatement blocks kind).or (endBlock blocks kind)
  | ⟨.name assigns, blocks⟩, kind =>
      if kind = .ident then some ⟨if assigns then .assignment else .lineEnd, blocks⟩ else none
  | ⟨.assignment, blocks⟩, kind =>
      if kind = .operator .assign then some ⟨.operand .line false, blocks⟩ else none
  | ⟨.operand goal text, blocks⟩, kind =>
      if kind.isSign then some ⟨.signed goal, blocks⟩
      else if text ∧ kind = .string then some ⟨.lineEnd, blocks⟩
      else afterPrimary goal blocks kind
  | ⟨.signed goal, blocks⟩, kind => afterPrimary goal blocks kind
  | ⟨.joined goal, blocks⟩, kind =>
      if kind.isScale ∨ kind.isSign then some ⟨.operand goal false, blocks⟩
      else afterExpression blocks goal kind
  | ⟨.lineEnd, blocks⟩, kind => if kind = .newline then some ⟨.lineStart, blocks⟩ else none
  | ⟨.done, _⟩, _ => none

/-- Where a sequence of tokens leads. -/
def run (p : Point) (word : List Kind) : Option Point := word.foldlM next p

/-! ## What can follow a position -/

/-- The words from the start of a statement on. -/
def restOfBlocks : List Block → Words
  | [] => Followed .statements (Followed (.kind .eof) Ended)
  | block :: outer =>
      Followed .statements (Followed (.keyword block.closer) (Followed .line (restOfBlocks outer)))

def restOfGoal (blocks : List Block) : Goal → Words
  | .line => Followed .line (restOfBlocks blocks)
  | .condition block compared =>
      let comparisons := Rule.relation ++ .symbol .expression
      Followed (if compared then .many comparisons else .several comparisons)
        (Followed (.keyword block.opener) (Followed .line (restOfBlocks (block :: blocks))))

/-- The words after an operand. -/
def restOfChain (goal : Goal) (blocks : List Block) : Words :=
  Followed (.many (.scale ++ .symbol .unary))
    (Followed (.many (.sign ++ .symbol .term)) (restOfGoal blocks goal))

/-- The words that can follow a position. -/
def rest : Point → Words
  | ⟨.lineStart, blocks⟩ => Followed (.many (.kind .newline)) (restOfBlocks blocks)
  | ⟨.name true, blocks⟩ =>
      Followed (.kind .ident) (Followed (.operator .assign)
        (Followed (.symbol .unary) (restOfChain .line blocks)))
  | ⟨.name false, blocks⟩ => Followed (.kind .ident) (Followed .line (restOfBlocks blocks))
  | ⟨.assignment, blocks⟩ =>
      Followed (.operator .assign) (Followed (.symbol .unary) (restOfChain .line blocks))
  | ⟨.operand goal text, blocks⟩ => fun word =>
      (text ∧ Followed (.kind .string) (Followed .line (restOfBlocks blocks)) word)
        ∨ Followed (.symbol .unary) (restOfChain goal blocks) word
  | ⟨.signed goal, blocks⟩ => Followed (.symbol .primary) (restOfChain goal blocks)
  | ⟨.joined goal, blocks⟩ => restOfChain goal blocks
  | ⟨.lineEnd, blocks⟩ => Followed .line (restOfBlocks blocks)
  | ⟨.done, _⟩ => Ended

end Point

/-! ## First tokens -/

section Classes

variable (K : Words) (k : Kind) (word : List Kind)

theorem followed_primary_cons :
    Followed (.symbol .primary) K (k :: word) ↔ (k = .number ∨ k = .ident) ∧ K word := by
  rw [followed_symbol, rule, followed_either, followed_kind_cons, followed_kind_cons, or_and_right]

theorem followed_sign_cons : Followed .sign K (k :: word) ↔ k.isSign = true ∧ K word := by
  rw [Rule.sign, Rule.operator, Rule.operator, followed_either, followed_kind_cons,
    followed_kind_cons, ← or_and_right]
  unfold Kind.isSign
  split <;> simp_all

theorem followed_scale_cons : Followed .scale K (k :: word) ↔ k.isScale = true ∧ K word := by
  rw [Rule.scale, Rule.operator, Rule.operator, followed_either, followed_kind_cons,
    followed_kind_cons, ← or_and_right]
  unfold Kind.isScale
  split <;> simp_all

theorem followed_relation_cons :
    Followed .relation K (k :: word) ↔ k.isComparison = true ∧ K word := by
  simp only [Rule.relation, Rule.operator, followed_either, followed_kind_cons, ← or_and_right]
  cases k with
  | operator op => cases op <;> simp [Kind.isComparison, Operator.isComparison]
  | _ => simp [Kind.isComparison]

theorem followed_unary_cons :
    Followed (.symbol .unary) K (k :: word) ↔
      (k.isSign = true ∧ Followed (.symbol .primary) K word) ∨
        ((k = .number ∨ k = .ident) ∧ K word) := by
  rw [followed_symbol, rule, followed_sequence, followed_optional, followed_primary_cons, or_comm,
    Rule.operator, Rule.operator, followed_either, followed_kind_cons, followed_kind_cons,
    ← or_and_right]
  unfold Kind.isSign
  split <;> simp_all

/-- A line end is a newline and any number of further ones. -/
theorem followed_line_cons :
    Followed .line K (k :: word) ↔ k = .newline ∧ Followed (.many (.kind .newline)) K word := by
  rw [Rule.line, followed_symbol, rule, followed_several, followed_kind_cons]

end Classes

theorem followed_expression (K : Words) :
    Followed (.symbol .expression) K =
      Followed (.symbol .unary) (Followed (.many (.scale ++ .symbol .unary))
        (Followed (.many (.sign ++ .symbol .term)) K)) := by
  rw [followed_symbol, rule, followed_sequence, followed_symbol _ .term, rule, followed_sequence]

namespace Point

section Steps

variable (goal : Goal) (blocks : List Block) (k : Kind) (word : List Kind)

theorem restOfChain_cons :
    restOfChain goal blocks (k :: word) ↔
      ((k.isScale = true ∨ k.isSign = true) ∧
          Followed (.symbol .unary) (restOfChain goal blocks) word) ∨
        restOfGoal blocks goal (k :: word) := by
  unfold restOfChain
  rw [followed_many, followed_sequence, followed_scale_cons, followed_many, followed_sequence,
    followed_sign_cons, followed_symbol _ .term, rule, followed_sequence]
  simp only [or_and_right, or_comm, or_left_comm]

/-- A condition goes on with a comparison, or, once there was one, ends with the opening keyword. -/
theorem restOfCondition_cons (block : Block) (compared : Bool) :
    restOfGoal blocks (.condition block compared) (k :: word) ↔
      (k.isComparison = true ∧
          Followed (.symbol .unary) (restOfChain (.condition block true) blocks) word) ∨
        ((compared = true ∧ k = .keyword block.opener) ∧
          Followed .line (restOfBlocks (block :: blocks)) word) := by
  have again : Followed (Rule.relation ++ .symbol .expression)
        (restOfGoal blocks (.condition block true)) (k :: word) ↔
      k.isComparison = true ∧
        Followed (.symbol .unary) (restOfChain (.condition block true) blocks) word := by
    rw [followed_sequence, followed_relation_cons, followed_expression]
    rfl
  cases compared with
  | false =>
    have first : restOfGoal blocks (.condition block false) =
        Followed (Rule.relation ++ .symbol .expression)
          (restOfGoal blocks (.condition block true)) := followed_several _ _
    simp only [first, again, Bool.false_eq_true, false_and, or_false]
  | true =>
    rw [restOfGoal, if_pos rfl, followed_many, Rule.keyword, followed_kind_cons, or_comm]
    simp only [true_and]
    exact or_congr_left again

theorem afterExpression_rest :
    restOfGoal blocks goal (k :: word) ↔
      ∃ q, afterExpression blocks goal k = some q ∧ q.rest word := by
  cases goal with
  | line =>
    rw [restOfGoal, followed_line_cons]
    by_cases ends : k = .newline
    · simp [ends, afterExpression, rest]
    · simp [ends, afterExpression]
  | condition block compared =>
    rw [restOfCondition_cons]
    by_cases compares : k.isComparison = true
    · have : k ≠ .keyword block.opener := fun same => by simp [same, Kind.isComparison] at compares
      simp [afterExpression, compares, this, rest]
    · by_cases opens : compared = true ∧ k = .keyword block.opener
      · simp [afterExpression, opens, rest, Kind.isComparison]
      · simp [afterExpression, compares, opens]

theorem afterExpression_of_joins (joins : k.isScale = true ∨ k.isSign = true) :
    afterExpression blocks goal k = none := by
  cases k with
  | operator op =>
    cases goal with
    | line => rfl
    | condition block compared =>
      cases op <;> simp_all [afterExpression, Kind.isComparison, Operator.isComparison, Kind.isScale,
        Kind.isSign]
  | _ => simp [Kind.isScale, Kind.isSign] at joins

theorem afterPrimary_rest :
    Followed (.symbol .primary) (restOfChain goal blocks) (k :: word) ↔
      ∃ q, afterPrimary goal blocks k = some q ∧ q.rest word := by
  rw [followed_primary_cons]
  cases k <;> simp [afterPrimary, rest]

theorem expression_rest :
    Followed (.symbol .expression) (restOfGoal blocks goal) =
      Followed (.symbol .unary) (restOfChain goal blocks) :=
  followed_expression _

theorem comparison_rest (block : Block) :
    Followed (.symbol .comparison)
        (Followed (.keyword block.opener) (Followed .line (restOfBlocks (block :: blocks)))) =
      Followed (.symbol .unary) (restOfChain (.condition block false) blocks) := by
  rw [followed_symbol, rule, followed_sequence, ← expression_rest]
  rfl

theorem beginStatement_rest :
    Followed (.symbol .statement) (restOfBlocks blocks) (k :: word) ↔
      ∃ q, beginStatement blocks k = some q ∧ q.rest word := by
  have print := expression_rest .line blocks
  have choice := comparison_rest blocks .choice
  have loop := comparison_rest blocks .loop
  rw [followed_symbol, rule]
  simp only [followed_either, followed_sequence, Rule.keyword, followed_kind_cons]
  cases k with
  | keyword first =>
    cases first
    case print => simp [beginStatement, rest, ← print, restOfGoal]
    case let_ => simp [beginStatement, rest, ← print, restOfGoal]
    case if_ =>
      simp [beginStatement, rest, ← choice, restOfBlocks, Block.opener, Block.closer, Rule.keyword]
    case while_ =>
      simp [beginStatement, rest, ← loop, restOfBlocks, Block.opener, Block.closer, Rule.keyword]
    all_goals simp [beginStatement, rest]
  | _ => simp [beginStatement]

theorem endBlock_disjoint {q : Point} (ends : endBlock blocks k = some q) :
    beginStatement blocks k = none := by
  cases blocks with
  | nil =>
    simp only [endBlock, Option.ite_none_right_eq_some] at ends
    rw [ends.1]; rfl
  | cons block outer =>
    simp only [endBlock, Option.ite_none_right_eq_some] at ends
    rw [ends.1]; cases block <;> rfl

theorem endBlock_rest :
    (∃ q, endBlock blocks k = some q ∧ q.rest word) ↔
      match blocks with
      | [] => k = .eof ∧ Ended word
      | block :: outer =>
          k = .keyword block.closer ∧ Followed .line (restOfBlocks outer) word := by
  cases blocks with
  | nil => simp [endBlock, rest, and_assoc]
  | cons block outer => simp [endBlock, rest, and_assoc]

theorem restOfBlocks_cons :
    restOfBlocks blocks (k :: word) ↔
      ∃ q, (beginStatement blocks k).or (endBlock blocks k) = some q ∧ q.rest word := by
  have split : restOfBlocks blocks (k :: word) ↔
      (∃ q, endBlock blocks k = some q ∧ q.rest word) ∨
        ∃ q, beginStatement blocks k = some q ∧ q.rest word := by
    rw [← beginStatement_rest, endBlock_rest]
    cases blocks with
    | nil => rw [restOfBlocks, Rule.statements, followed_many, followed_kind_cons]
    | cons block outer =>
      rw [restOfBlocks, Rule.statements, followed_many, Rule.keyword, followed_kind_cons]
  rw [split]
  cases ends : endBlock blocks k with
  | some q => simp [endBlock_disjoint blocks k ends]
  | none => simp

theorem rest_operand (text : Bool) :
    rest ⟨.operand goal text, blocks⟩ word ↔
      (text = true ∧ Followed (.kind .string) (Followed .line (restOfBlocks blocks)) word) ∨
        Followed (.symbol .unary) (restOfChain goal blocks) word := Iff.rfl

/-- A token that can follow a position leads to one that the rest of the word can follow. -/
theorem rest_cons (p : Point) :
    p.rest (k :: word) ↔ ∃ q, p.next k = some q ∧ q.rest word := by
  obtain ⟨stage, blocks⟩ := p
  cases stage with
  | lineStart =>
    rw [rest, followed_many, followed_kind_cons, restOfBlocks_cons, next, or_comm]
    by_cases blank : k = .newline
    · cases blocks <;> simp [blank, beginStatement, endBlock, rest]
    · simp [blank]
  | name assigns => cases assigns <;> simp [rest, next, followed_kind_cons, and_assoc]
  | assignment => simp [rest, next, followed_kind_cons, Rule.operator, and_assoc]
  | operand goal text =>
    rw [rest_operand, next, followed_kind_cons, followed_unary_cons, ← followed_primary_cons,
      afterPrimary_rest]
    by_cases signed : k.isSign = true
    · have : k ≠ .string ∧ afterPrimary goal blocks k = none := by
        cases k <;> simp_all [Kind.isSign, afterPrimary]
      simp [signed, this, rest]
    · by_cases quoted : text = true ∧ k = .string
      · simp [quoted, rest, Kind.isSign, afterPrimary]
      · simp [signed, quoted, ← and_assoc]
  | signed goal => exact afterPrimary_rest goal blocks k word
  | joined goal =>
    rw [rest, restOfChain_cons, afterExpression_rest, next]
    by_cases joins : k.isScale = true ∨ k.isSign = true
    · simp [joins, afterExpression_of_joins goal blocks k joins, rest]
    · simp [joins]
  | lineEnd => simp [rest, next, followed_line_cons, and_assoc]
  | done => simp [rest, next, Ended]

theorem restOfBlocks_nil : ¬ restOfBlocks blocks [] := by
  cases blocks <;>
    simp [restOfBlocks, Rule.statements, followed_many, followed_symbol, rule, followed_either,
      followed_sequence, Rule.keyword, followed_kind_nil]

theorem restOfGoal_nil : ¬ restOfGoal blocks goal [] := by
  cases goal with
  | line =>
    simp [restOfGoal, Rule.line, followed_symbol, rule, followed_several, followed_kind_nil]
  | condition block compared =>
    cases compared <;>
      simp [restOfGoal, followed_many, followed_several, followed_sequence, followed_either,
        Rule.relation, Rule.operator, Rule.keyword, followed_kind_nil]

theorem restOfChain_nil : ¬ restOfChain goal blocks [] := by
  simp [restOfChain, followed_many, followed_sequence, followed_either, Rule.scale, Rule.sign,
    Rule.operator, followed_kind_nil, restOfGoal_nil]

theorem rest_nil (p : Point) : p.rest [] ↔ p.stage = .done := by
  obtain ⟨stage, blocks⟩ := p
  cases stage with
  | lineStart => simp [rest, followed_many, followed_kind_nil, restOfBlocks_nil]
  | name assigns => cases assigns <;> simp [rest, followed_kind_nil]
  | assignment => simp [rest, Rule.operator, followed_kind_nil]
  | operand goal text =>
    simp [rest, followed_kind_nil, followed_symbol, rule, followed_optional, followed_sequence,
      followed_either, Rule.operator]
  | signed goal => simp [rest, followed_symbol, rule, followed_either, followed_kind_nil]
  | joined goal => simp [rest, restOfChain_nil]
  | lineEnd => simp [rest, Rule.line, followed_symbol, rule, followed_several, followed_kind_nil]
  | done => simp [rest, Ended]

end Steps

/-! ## No dead ends -/

/-- Some word can follow the position. -/
def Completable (p : Point) : Prop := ∃ word, p.rest word

theorem completable_of_next {p q : Point} (k : Kind) (leads : p.next k = some q)
    (more : Completable q) : Completable p := by
  obtain ⟨word, holds⟩ := more
  exact ⟨k :: word, (rest_cons k word p).2 ⟨q, leads, holds⟩⟩

/-- From the start of a line, the open blocks can be closed one after the other. -/
theorem completable_lineStart (blocks : List Block) : Completable ⟨.lineStart, blocks⟩ := by
  induction blocks with
  | nil => exact completable_of_next .eof rfl ⟨[], rfl⟩
  | cons block outer ih =>
    have closes : next ⟨.lineStart, block :: outer⟩ (.keyword block.closer) =
        some ⟨.lineEnd, outer⟩ := by
      cases block <;> rfl
    exact completable_of_next _ closes (completable_of_next .newline rfl ih)

theorem completable_lineEnd (blocks : List Block) : Completable ⟨.lineEnd, blocks⟩ :=
  completable_of_next .newline rfl (completable_lineStart blocks)

theorem completable_joined (goal : Goal) (blocks : List Block) :
    Completable ⟨.joined goal, blocks⟩ := by
  cases goal with
  | line => exact completable_of_next .newline rfl (completable_lineStart blocks)
  | condition block compared =>
    have opens : next ⟨.joined (.condition block true), blocks⟩ (.keyword block.opener) =
        some ⟨.lineEnd, block :: blocks⟩ := by
      cases block <;> rfl
    have last : Completable ⟨.joined (.condition block true), blocks⟩ :=
      completable_of_next _ opens (completable_lineEnd _)
    exact completable_of_next (.operator .equal) rfl (completable_of_next .number rfl last)

theorem completable_operand (goal : Goal) (text : Bool) (blocks : List Block) :
    Completable ⟨.operand goal text, blocks⟩ := by
  have leads : next ⟨.operand goal text, blocks⟩ .number = some ⟨.joined goal, blocks⟩ := by
    simp [next, Kind.isSign, afterPrimary]
  exact completable_of_next _ leads (completable_joined goal blocks)

theorem completable (p : Point) : Completable p := by
  obtain ⟨stage, blocks⟩ := p
  cases stage with
  | lineStart => exact completable_lineStart blocks
  | name assigns =>
    cases assigns with
    | true =>
      exact completable_of_next .ident rfl
        (completable_of_next (.operator .assign) rfl (completable_operand _ _ _))
    | false => exact completable_of_next .ident rfl (completable_lineEnd blocks)
  | assignment => exact completable_of_next (.operator .assign) rfl (completable_operand _ _ _)
  | operand goal text => exact completable_operand goal text blocks
  | signed goal => exact completable_of_next .number rfl (completable_joined goal blocks)
  | joined goal => exact completable_joined goal blocks
  | lineEnd => exact completable_lineEnd blocks
  | done => exact ⟨[], rfl⟩

/-! ## Runs -/

theorem rest_run (p : Point) (word later : List Kind) :
    p.rest (word ++ later) ↔ ∃ q, p.run word = some q ∧ q.rest later := by
  induction word generalizing p with
  | nil => simp [run]
  | cons k word ih =>
    rw [List.cons_append, rest_cons]
    simp only [ih, run, List.foldlM_cons]
    cases p.next k <;> simp

end Point

open Point

theorem derives_newlines_iff (word : List Kind) :
    Derives (.many (.kind .newline)) word ↔ ∀ k ∈ word, k = .newline := by
  constructor
  · generalize same : Rule.many (.kind .newline) = r
    intro derived
    induction derived with
    | none => simp
    | more first rest ihFirst ihRest =>
      cases same
      cases first
      simpa using ihRest rfl
    | _ => cases same
  · intro blank
    induction word with
    | nil => exact .none _
    | cons k word ih =>
      obtain ⟨rfl, later⟩ := List.forall_mem_cons.1 blank
      exact .more (u := [_]) (.kind _) (ih later)

/-- Lines in a row are newlines in a row. -/
theorem derives_lines_iff (word : List Kind) :
    Derives (.many .line) word ↔ Derives (.many (.kind .newline)) word := by
  rw [derives_newlines_iff]
  constructor
  · generalize same : Rule.many .line = r
    intro derived
    induction derived with
    | none => simp
    | more first rest ihFirst ihRest =>
      cases same
      rcases first with _ | derived
      cases derived with
      | several newline newlines =>
        cases newline
        have := (derives_newlines_iff _).1 newlines
        simpa [or_imp, forall_and] using ⟨this, ihRest rfl⟩
    | _ => cases same
  · intro blank
    induction word with
    | nil => exact .none _
    | cons k word ih =>
      obtain ⟨rfl, later⟩ := List.forall_mem_cons.1 blank
      exact .more (u := [_]) (.symbol (.several (u := [_]) (.kind _) (.none _))) (ih later)

theorem rest_start : start.rest = Followed (.symbol .program) Ended := by
  have lines (K : Words) : Followed (.many .line) K = Followed (.many (.kind .newline)) K := by
    unfold Followed
    simp only [derives_lines_iff]
  rw [followed_symbol, rule, followed_sequence, followed_sequence, lines]
  rfl

theorem derives_iff_run (word : List Kind) :
    Derives (.symbol .program) word ↔ ∃ blocks, start.run word = some ⟨.done, blocks⟩ := by
  have whole := rest_run start word []
  rw [List.append_nil, rest_start, followed_ended] at whole
  rw [whole]
  simp only [rest_nil]
  constructor
  · rintro ⟨⟨stage, blocks⟩, leads, rfl⟩
    exact ⟨blocks, leads⟩
  · rintro ⟨blocks, leads⟩
    exact ⟨_, leads, rfl⟩

theorem viable_iff_run (word : List Kind) : Viable word ↔ (start.run word).isSome = true := by
  unfold Viable
  simp only [← followed_ended, ← rest_start, rest_run]
  rw [Option.isSome_iff_exists]
  constructor
  · rintro ⟨later, q, leads, -⟩
    exact ⟨q, leads⟩
  · rintro ⟨q, leads⟩
    obtain ⟨later, holds⟩ := completable q
    exact ⟨later, q, leads, holds⟩
end LineBasic.Grammar
