import LineBasic.Proofs.Syntax.Tree
import LineBasic.Proofs.Token.Lossless

/-!
# Where statements begin

A statement begins with one of seven keywords, and these keywords stand nowhere else, so the first tokens
of the statements can be picked out of a program without a parser (`Code.ReadsProgram.starts_eq`). A
statement ends with its line, so no two statements begin on one line, and the lines on which they begin
go up through the source (`Code.ReadsProgram.starts_increase`).
-/

namespace LineBasic

set_option autoImplicit false

/-- The keywords that statements begin with. -/
def statementKeywords : List Keyword := [.print, .if_, .while_, .label, .goto, .let_, .input]

/-- The kinds of token that a statement can begin with. -/
def Kind.beginsStatement (kind : Kind) : Bool := (statementKeywords.map Kind.keyword).contains kind

/-- A pass takes a token for the beginning of a statement exactly if it is one of these keywords. -/
theorem isSome_statementRest? (kind : Kind) : (Pass.statementRest? kind).isSome = kind.beginsStatement := by
  cases kind with
  | keyword word => cases word <;> rfl
  | _ => rfl

/-- The tokens that statements begin with. -/
def starters (tokens : List Token) : List Token := tokens.filter (·.kind.beginsStatement)

/-- Tokens among which no statement begins. -/
def Inner (tokens : List Token) : Prop := ∀ token ∈ tokens, token.kind.beginsStatement = false

theorem starters_append (tokens more : List Token) :
    starters (tokens ++ more) = starters tokens ++ starters more := List.filter_append ..

theorem starters_cons {token : Token} (begins : token.kind.beginsStatement = true)
    (tokens : List Token) : starters (token :: tokens) = token :: starters tokens :=
  List.filter_cons_of_pos begins

theorem Inner.starters {tokens : List Token} (inner : Inner tokens) : starters tokens = [] :=
  List.filter_eq_nil_iff.2 fun token member => by simp [inner token member]

namespace Syntax

/-! ## The tokens of expressions -/

/-- The kinds of token that expressions are made of. -/
def inExpression : Kind → Bool
  | .number | .ident | .operator _ => true
  | _ => false

theorem Primary.Reads.kind {token : Token} {primary : Primary} (reads : primary.Reads token) :
    inExpression token.kind = true := by
  cases reads with
  | number kind => rw [kind]; rfl
  | name kind => rw [kind]; rfl

theorem Operand.Reads.kinds {tokens : List Token} {operand : Operand} (reads : operand.Reads tokens) :
    ∀ token ∈ tokens, inExpression token.kind = true := by
  cases reads with
  | plain reads => exact List.forall_mem_singleton.2 reads.kind
  | signed kind reads =>
    exact List.forall_mem_cons.2 ⟨by rw [kind]; rfl, List.forall_mem_singleton.2 reads.kind⟩

namespace Chain

variable {ρ ι : Type} {operator : ρ → Operator} {item : List Token → ι → Prop}

theorem RestReads.kinds
    (items : ∀ {tokens value}, item tokens value → ∀ token ∈ tokens, inExpression token.kind = true)
    {tokens : List Token} {rest : List (ρ × ι)} (reads : RestReads operator item tokens rest) :
    ∀ token ∈ tokens, inExpression token.kind = true := by
  induction reads with
  | nil => nofun
  | cons kind reads more ih =>
    exact List.forall_mem_append.2 ⟨List.forall_mem_cons.2 ⟨by rw [kind]; rfl, items reads⟩, ih⟩

theorem Reads.kinds
    (items : ∀ {tokens value}, item tokens value → ∀ token ∈ tokens, inExpression token.kind = true)
    {tokens : List Token} {chain : Chain ρ ι} (reads : Reads operator item tokens chain) :
    ∀ token ∈ tokens, inExpression token.kind = true := by
  obtain ⟨first, more⟩ := reads
  exact List.forall_mem_append.2 ⟨items first, more.kinds items⟩

end Chain

theorem Expression.Reads.kinds {tokens : List Token} {value : Expression}
    (reads : Expression.Reads tokens value) : ∀ token ∈ tokens, inExpression token.kind = true :=
  Chain.Reads.kinds (Chain.Reads.kinds Operand.Reads.kinds) reads

theorem Condition.Reads.kinds {tokens : List Token} {condition : Condition}
    (reads : condition.Reads tokens) : ∀ token ∈ tokens, inExpression token.kind = true :=
  Chain.Reads.kinds Expression.Reads.kinds reads

/-! ## No statement begins inside another one's line -/

theorem inner_expression {tokens : List Token}
    (kinds : ∀ token ∈ tokens, inExpression token.kind = true) : Inner tokens := by
  intro token member
  have kind := kinds token member
  revert kind
  cases token.kind with
  | number => exact fun _ => rfl
  | ident => exact fun _ => rfl
  | operator op => exact fun _ => rfl
  | _ => exact nofun

theorem inner_newlines {tokens : List Token} (newlines : ∀ token ∈ tokens, token.kind = .newline) :
    Inner tokens := by
  intro token member
  rw [newlines token member]
  rfl

theorem LineEnd.inner {tokens : List Token} (ends : LineEnd tokens) : Inner tokens :=
  inner_newlines ends.2

theorem HeadReads.inner {block : Pass.Block} {tokens : List Token} {condition : Condition}
    (reads : HeadReads block tokens condition) : Inner tokens := by
  obtain ⟨compared, opens, ends⟩ := reads
  refine List.forall_mem_append.2 ⟨inner_expression compared.kinds, ?_⟩
  refine List.forall_mem_cons.2 ⟨?_, ends.inner⟩
  rw [opens]
  cases block <;> rfl

/-- A simple statement begins with its keyword, and with that alone. -/
theorem Simple.Reads.begins {keyword : Token} {tokens : List Token} {statement : Simple}
    (reads : statement.Reads keyword tokens) :
    keyword.kind.beginsStatement = true ∧ Inner tokens := by
  have named {token : Token} (kind : token.kind = .ident) : token.kind.beginsStatement = false := by
    rw [kind]
    rfl
  cases reads with
  | printText begins kind =>
    exact ⟨by rw [begins]; rfl, List.forall_mem_singleton.2 (by rw [kind]; rfl)⟩
  | print begins reads => exact ⟨by rw [begins]; rfl, inner_expression reads.kinds⟩
  | label begins kind => exact ⟨by rw [begins]; rfl, List.forall_mem_singleton.2 (named kind)⟩
  | goto begins kind => exact ⟨by rw [begins]; rfl, List.forall_mem_singleton.2 (named kind)⟩
  | assign begins kind equals reads =>
    refine ⟨by rw [begins]; rfl, List.forall_mem_cons.2 ⟨named kind, ?_⟩⟩
    exact List.forall_mem_cons.2 ⟨by rw [equals]; rfl, inner_expression reads.kinds⟩
  | input begins kind => exact ⟨by rw [begins]; rfl, List.forall_mem_singleton.2 (named kind)⟩

/-! ## The first tokens of statements -/

theorem Code.Reads.starts_eq {tokens : List Token} {code : Code} (reads : code.Reads tokens) :
    (starters tokens).map (·.location.line) = code.starts := by
  induction reads with
  | done => rfl
  | simple first ends _ ih =>
    obtain ⟨begins, inner⟩ := first.begins
    rw [starters_append, starters_append, starters_cons begins, inner.starters, ends.inner.starters,
      List.append_nil, List.singleton_append, List.map_cons, ih]
    rfl
  | @block keyword closer head inner newlines later block condition body next begins opens _ closes
      ends _ ihBody ihNext =>
    have first : keyword.kind.beginsStatement = true := by rw [begins]; cases block <;> rfl
    have last : Inner (closer :: newlines) :=
      List.forall_mem_cons.2 ⟨by rw [closes]; cases block <;> rfl, ends.inner⟩
    rw [starters_append, starters_append, starters_append, starters_cons first, opens.inner.starters,
      last.starters, List.append_nil, List.singleton_append, List.cons_append, List.map_cons,
      List.map_append, ihBody, ihNext]
    rfl

theorem Code.ReadsProgram.starts_eq {tokens : List Token} {code : Code}
    (reads : code.ReadsProgram tokens) : (starters tokens).map (·.location.line) = code.starts := by
  obtain ⟨blanks, reads, ends⟩ := reads
  have last := Inner.starters (List.forall_mem_singleton.2 (by rw [ends]; rfl))
  rw [starters_append, starters_append, (inner_newlines blanks).starters, last, List.nil_append,
    List.append_nil, reads.starts_eq]

end Syntax

/-! ## Lines go up -/

def newlines (tokens : List Token) : Nat := tokens.countP fun token => token.kind = .newline

theorem newlines_append (tokens more : List Token) :
    newlines (tokens ++ more) = newlines tokens + newlines more := List.countP_append

theorem newlines_le_cons (token : Token) (tokens : List Token) :
    newlines tokens ≤ newlines (token :: tokens) := by
  rw [newlines, newlines, List.countP_cons]
  omega

/-- The tokens stand on the lines from this one on, and each newline ends a line. -/
def Lined : Int → List Token → Prop
  | _, [] => True
  | line, token :: tokens =>
      token.location.line = line ∧ Lined (if token.kind = .newline then line + 1 else line) tokens

theorem Lined.behind {line : Int} {front tokens : List Token} (lined : Lined line (front ++ tokens)) :
    Lined (line + newlines front) tokens := by
  induction front generalizing line with
  | nil => simpa [newlines] using lined
  | cons token front ih =>
    have rest := ih lined.2
    rw [newlines, List.countP_cons]
    by_cases newline : token.kind = .newline
    · rw [if_pos newline] at rest
      rw [if_pos (by simpa using newline)]
      rwa [show line + ((front.countP fun token => token.kind = .newline) + 1 : Nat)
        = line + 1 + newlines front by rw [newlines]; omega]
    · rw [if_neg newline] at rest
      rwa [if_neg (by simpa using newline)]

theorem Lined.front {line : Int} {tokens back : List Token} (lined : Lined line (tokens ++ back)) :
    Lined line tokens := by
  induction tokens generalizing line with
  | nil => trivial
  | cons token tokens ih => exact ⟨lined.1, ih lined.2⟩

theorem LaidOut.lined {file : String} {passed : List Char} {pieces : List Piece}
    (laid : LaidOut file passed pieces) :
    Lined (1 + passed.count '\n') (pieces.map Piece.token) := by
  induction pieces generalizing passed with
  | nil => trivial
  | cons piece pieces ih =>
    have rest := ih laid.2
    rw [List.count_append, laid.1.count_newline] at rest
    refine ⟨?_, ?_⟩
    · rw [laid.1.place, placeAfter, List.count_append,
        List.count_eq_zero.2 laid.1.gap.newline_not_mem, Nat.add_zero]
    · split
      · rename_i newline
        rw [if_pos newline] at rest
        rwa [Int.add_assoc]
      · rename_i other
        rwa [if_neg other] at rest

theorem Scanner.drain_lined {file source : String}
    (whole : (Scanner.start file source).drain.fault = none) :
    Lined 1 (Scanner.start file source).drain.tokens := by
  obtain ⟨pieces, same, -, laid⟩ := drain_laid _ _ _
    (Cursor.start_eq_after (source.toList ++ ['\n'])) (closed_concat _) whole
  rw [← same]
  exact laid.lined

namespace Syntax

theorem LineEnd.newlines_pos {tokens : List Token} (ends : LineEnd tokens) : 0 < newlines tokens := by
  obtain ⟨token, tokens, rfl⟩ := List.exists_cons_of_ne_nil ends.1
  exact List.countP_pos_iff.2 ⟨token, List.mem_cons_self, by simpa using ends.2 token List.mem_cons_self⟩

theorem HeadReads.newlines_pos {block : Pass.Block} {tokens : List Token} {condition : Condition}
    (reads : HeadReads block tokens condition) : 0 < newlines tokens := by
  obtain ⟨-, -, ends⟩ := reads
  rw [newlines_append, ← List.singleton_append, newlines_append]
  have := ends.newlines_pos
  omega

/-- The lines on which statements begin go up, and lie between the first line of their tokens and the
line after the last one. -/
theorem Code.Reads.starts_increase {tokens : List Token} {code : Code} (reads : code.Reads tokens)
    {line : Int} (lined : Lined line tokens) :
    code.starts.Pairwise (· < ·) ∧
      ∀ start ∈ code.starts, line ≤ start ∧ start < line + newlines tokens := by
  induction reads generalizing line with
  | done => exact ⟨.nil, nofun⟩
  | @simple keyword tokens ending later statement next first ends _ ih =>
    have here : keyword.location.line = line := lined.1
    obtain ⟨sorted, between⟩ := ih lined.behind
    have ended := ends.newlines_pos
    simp only [newlines_append] at between ⊢
    refine ⟨List.pairwise_cons.2 ⟨fun start member => ?_, sorted⟩, ?_⟩
    · have := between start member
      omega
    · refine List.forall_mem_cons.2 ⟨by omega, fun start member => ?_⟩
      have := between start member
      omega
  | @block keyword closer head inner ending later block condition body next begins opens _ closes
      ends _ ihBody ihNext =>
    have here : keyword.location.line = line := lined.1
    obtain ⟨sorted, between⟩ := ihNext lined.behind
    obtain ⟨sortedBody, betweenBody⟩ := ihBody lined.front.front.behind
    have opened := opens.newlines_pos
    have more := newlines_le_cons keyword head
    simp only [newlines_append] at between ⊢
    refine ⟨List.pairwise_cons.2 ⟨fun start member => ?_, ?_⟩, ?_⟩
    · rcases List.mem_append.1 member with inside | behind
      · have := betweenBody start inside
        omega
      · have := between start behind
        omega
    · refine List.pairwise_append.2 ⟨sortedBody, sorted, fun start inside other behind => ?_⟩
      have := betweenBody start inside
      have := between other behind
      omega
    · refine List.forall_mem_cons.2 ⟨by omega, List.forall_mem_append.2 ⟨?_, ?_⟩⟩
      · intro start inside
        have := betweenBody start inside
        omega
      · intro start behind
        have := between start behind
        omega

theorem Code.ReadsProgram.starts_increase {tokens : List Token} {code : Code}
    (reads : code.ReadsProgram tokens) (lined : Lined 1 tokens) :
    code.starts.Pairwise (· < ·) ∧ ∀ start ∈ code.starts, 0 < start := by
  obtain ⟨-, reads, -⟩ := reads
  obtain ⟨sorted, between⟩ := reads.starts_increase lined.front.behind
  refine ⟨sorted, fun start member => ?_⟩
  have := between start member
  omega

end Syntax

end LineBasic
