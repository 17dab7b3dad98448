import LineBasic.Proofs.Names.Role
import LineBasic.Proofs.Syntax.Spelling
import LineBasic.Proofs.Syntax.Starts

/-!
# The names in a tree

The variables that a tree sets and reads and the labels that it defines and jumps to, in the order of its
statements, are the names that stand in these roles among its tokens.
-/

namespace LineBasic

set_option autoImplicit false

/-- After none of the tokens a name would be set, defined or jumped to. -/
def Quiet (tokens : List Token) : Prop := ∀ token ∈ tokens, Role.after token.kind = .plain

theorem quiet_cons {token : Token} {tokens : List Token} (plain : Role.after token.kind = .plain)
    (rest : Quiet tokens) : Quiet (token :: tokens) := List.forall_mem_cons.2 ⟨plain, rest⟩

theorem quiet_nil : Quiet [] := by
  intro token member
  cases member

/-- Names are set, defined and jumped to where a statement begins. -/
theorem Inner.quiet {tokens : List Token} (inner : Inner tokens) : Quiet tokens := by
  intro token member
  have inside := inner token member
  cases kind : token.kind with
  | keyword word =>
    rw [kind] at inside
    revert inside
    cases word <;> decide
  | _ => rfl

theorem quiet_singleton {token : Token} (plain : Role.after token.kind = .plain) : Quiet [token] :=
  quiet_cons plain quiet_nil

theorem inRoleFrom_plain {tokens : List Token} (quiet : Quiet tokens) :
    inRoleFrom .plain .plain tokens = tokens := by
  induction tokens with
  | nil => rfl
  | cons token tokens ih =>
    obtain ⟨plain, rest⟩ := List.forall_mem_cons.1 quiet
    rw [inRoleFrom, if_pos rfl, plain, ih rest, List.singleton_append]

theorem inRoleFrom_quiet {role : Role} (special : role ≠ .plain) {tokens : List Token}
    (quiet : Quiet tokens) : inRoleFrom role .plain tokens = [] := by
  induction tokens with
  | nil => rfl
  | cons token tokens ih =>
    obtain ⟨plain, rest⟩ := List.forall_mem_cons.1 quiet
    rw [inRoleFrom, if_neg special.symm, plain, ih rest, List.append_nil]

namespace Role

theorem next_append {tokens more : List Token} (plain : next tokens = .plain) :
    next (tokens ++ more) = next more := by
  unfold next at *
  rw [List.foldl_append, plain]

theorem next_quiet {tokens : List Token} (quiet : Quiet tokens) : next tokens = .plain := by
  rcases List.eq_nil_or_concat tokens with rfl | ⟨earlier, last, rfl⟩
  · rfl
  · rw [List.concat_eq_append, next_concat]
    exact quiet last (by simp)

end Role

namespace Syntax

/-! ## Expressions -/

def Primary.names : Primary → List String
  | .number _ => []
  | .name text => [text]

/-- The variables that an expression reads. -/
def Expression.names (value : Expression) : List String := value.primaries.flatMap Primary.names

def Condition.names (condition : Condition) : List String := condition.primaries.flatMap Primary.names

/-- The texts of the names among the tokens. -/
def named (tokens : List Token) : List String := (tokens.filter (·.kind = .ident)).map (·.text)

theorem named_append (tokens more : List Token) : named (tokens ++ more) = named tokens ++ named more := by
  rw [named, List.filter_append, List.map_append]
  rfl

@[simp] theorem named_nil : named [] = [] := rfl

theorem named_of_other {token : Token} (other : token.kind ≠ .ident) (tokens : List Token) :
    named (token :: tokens) = named tokens := by
  rw [named, List.filter_cons_of_neg (by simpa using other)]
  rfl

theorem Primary.Reads.named {token : Token} {primary : Primary} (reads : primary.Reads token) :
    named [token] = primary.names := by
  cases reads with
  | number kind => simp [Syntax.named, kind, names]
  | name kind => simp [Syntax.named, kind, names]

theorem Operand.Reads.named {tokens : List Token} {operand : Operand} (reads : operand.Reads tokens) :
    named tokens = operand.primary.names := by
  cases reads with
  | plain reads => exact reads.named
  | signed kind reads => rw [named_of_other (by simp [kind]), reads.named]

section Chains

variable {ρ ι : Type} {operator : ρ → Operator} {item : List Token → ι → Prop} {names : ι → List String}

theorem Chain.RestReads.named {tokens : List Token} {links : List (ρ × ι)}
    (reads : RestReads operator item tokens links)
    (each : ∀ tokens operand, item tokens operand → named tokens = names operand) :
    named tokens = links.flatMap fun link => names link.2 := by
  induction reads with
  | nil => rfl
  | cons kind first _ ih =>
    rw [named_append, named_of_other (by simp [kind]), each _ _ first, ih, List.flatMap_cons]

theorem Chain.Reads.named {tokens : List Token} {chain : Chain ρ ι}
    (reads : Reads operator item tokens chain)
    (each : ∀ tokens operand, item tokens operand → named tokens = names operand) :
    named tokens = names chain.first ++ chain.rest.flatMap fun link => names link.2 := by
  obtain ⟨first, more⟩ := reads
  rw [named_append, each _ _ first, more.named each]

end Chains

theorem Expression.Reads.named {tokens : List Token} {value : Expression}
    (reads : Expression.Reads tokens value) : named tokens = value.names := by
  have term (tokens : List Token) (term : Term) (reads : Term.Reads tokens term) :
      Syntax.named tokens = term.primaries.flatMap Primary.names := by
    rw [Chain.Reads.named reads fun _ _ => Operand.Reads.named, Term.primaries, List.flatMap_cons,
      List.flatMap_map]
  rw [Chain.Reads.named reads term, names, primaries, List.flatMap_append, List.flatMap_assoc]

theorem Condition.Reads.named {tokens : List Token} {condition : Condition}
    (reads : condition.Reads tokens) : named tokens = condition.names := by
  rw [Chain.Reads.named reads fun _ _ => Expression.Reads.named, names, primaries, List.flatMap_append,
    List.flatMap_assoc]
  rfl

/-! ## Names by their roles -/

/-- The names in the tokens, by what they stand for, with no name open at their end. -/
structure Names (tokens : List Token) (targets labels jumps reads : List String) : Prop where
  targets : (inRole .target tokens).map (·.text) = targets
  labels : (inRole .label tokens).map (·.text) = labels
  jumps : (inRole .jump tokens).map (·.text) = jumps
  reads : named (inRole .plain tokens) = reads
  next : Role.next tokens = .plain

theorem Names.append {tokens more : List Token}
    {targets targets' labels labels' jumps jumps' reads reads' : List String}
    (first : Names tokens targets labels jumps reads)
    (second : Names more targets' labels' jumps' reads') :
    Names (tokens ++ more) (targets ++ targets') (labels ++ labels') (jumps ++ jumps')
      (reads ++ reads') := by
  have cut (role : Role) : inRole role (tokens ++ more) = inRole role tokens ++ inRole role more := by
    rw [inRole_append, first.next]
    rfl
  constructor
  · rw [cut, List.map_append, first.targets, second.targets]
  · rw [cut, List.map_append, first.labels, second.labels]
  · rw [cut, List.map_append, first.jumps, second.jumps]
  · rw [cut, named_append, first.reads, second.reads]
  · rw [Role.next_append first.next, second.next]

theorem names_quiet {tokens : List Token} (quiet : Quiet tokens) :
    Names tokens [] [] [] (named tokens) := by
  have none {role : Role} (special : role ≠ .plain) : (inRole role tokens).map (·.text) = [] := by
    rw [inRole, inRoleFrom_quiet special quiet]
    rfl
  refine ⟨none (by simp), none (by simp), none (by simp), ?_, Role.next_quiet quiet⟩
  rw [inRole, inRoleFrom_plain quiet]

/-! ## Statements -/

/-- The labels that a statement jumps to. -/
def Simple.jumps : Simple → List String
  | .goto name => [name]
  | _ => []

/-- The variables that a statement reads. -/
def Simple.reads : Simple → List String
  | .print value | .assign _ value => value.names
  | _ => []

def Code.jumps : Code → List String
  | .done => []
  | .simple _ statement next => statement.jumps ++ next.jumps
  | .block _ _ _ body next => body.jumps ++ next.jumps

def Code.reads : Code → List String
  | .done => []
  | .simple _ statement next => statement.reads ++ next.reads
  | .block _ _ condition body next => condition.names ++ body.reads ++ next.reads

/-- A keyword and the name after it. -/
theorem names_keyword {role : Role} {keyword token : Token} {tokens : List Token} {word : Keyword}
    (begins : keyword.kind = .keyword word) (after : Role.after (.keyword word) = role)
    (special : role ≠ .plain) (kind : token.kind = .ident) (quiet : Quiet tokens) :
    Names (keyword :: token :: tokens) (if role = .target then [token.text] else [])
      (if role = .label then [token.text] else []) (if role = .jump then [token.text] else [])
      (named tokens) := by
  have open' : Role.after keyword.kind = role := begins ▸ after
  have plain : Role.after token.kind = .plain := by rw [kind]; rfl
  have named' : Role.next [keyword, token] = .plain := plain
  have other : keyword.kind ≠ .ident := by simp [begins]
  refine ⟨?_, ?_, ?_, ?_, (Role.next_append named').trans (Role.next_quiet quiet)⟩
  · rw [inRole, inRoleFrom, inRoleFrom, open', plain, inRoleFrom_quiet (by simp) quiet]
    cases role <;> rfl
  · rw [inRole, inRoleFrom, inRoleFrom, open', plain, inRoleFrom_quiet (by simp) quiet]
    cases role <;> rfl
  · rw [inRole, inRoleFrom, inRoleFrom, open', plain, inRoleFrom_quiet (by simp) quiet]
    cases role <;> rfl
  · rw [inRole, inRoleFrom, inRoleFrom, open', plain, inRoleFrom_plain quiet, if_pos rfl, if_neg special]
    exact named_of_other other _

theorem Simple.Reads.names {keyword : Token} {tokens : List Token} {statement : Simple}
    (reads : statement.Reads keyword tokens) (line : Int) :
    Names (keyword :: tokens) (Code.simple line statement .done).targets
      (Code.simple line statement .done).labels statement.jumps statement.reads := by
  have printed (begins : keyword.kind = .keyword .print) (inner : Quiet tokens) :
      Names (keyword :: tokens) [] [] [] (named tokens) := by
    have quiet := names_quiet (quiet_cons (by rw [begins]; rfl) inner)
    rwa [named_of_other (by simp [begins])] at quiet
  cases reads with
  | printText begins kind =>
    have quiet := printed begins (quiet_singleton (by rw [kind]; rfl))
    rwa [named_of_other (by simp [kind])] at quiet
  | print begins reads =>
    have quiet := printed begins (inner_expression reads.kinds).quiet
    rwa [reads.named] at quiet
  | label begins kind => exact names_keyword begins rfl (by decide) kind quiet_nil
  | goto begins kind => exact names_keyword begins rfl (by decide) kind quiet_nil
  | assign begins kind equals reads =>
    have inner := (inner_expression reads.kinds).quiet
    have whole := names_keyword begins rfl (by decide) kind (quiet_cons (by rw [equals]; rfl) inner)
    rw [named_of_other (by simp [equals]), reads.named] at whole
    exact whole
  | input begins kind => exact names_keyword begins rfl (by decide) kind quiet_nil

theorem Code.targets_simple (line : Int) (statement : Simple) (next : Code) :
    (simple line statement next).targets = (simple line statement .done).targets ++ next.targets := by
  cases statement <;> rfl

theorem Code.labels_simple (line : Int) (statement : Simple) (next : Code) :
    (simple line statement next).labels = (simple line statement .done).labels ++ next.labels := by
  cases statement <;> rfl

theorem LineEnd.named {tokens : List Token} (ends : LineEnd tokens) : named tokens = [] := by
  rw [Syntax.named, List.filter_eq_nil_iff.2 fun token member => by simp [ends.2 token member]]
  rfl

theorem Code.Reads.names {tokens : List Token} {code : Code} (reads : code.Reads tokens) :
    Names tokens code.targets code.labels code.jumps code.reads := by
  induction reads with
  | done => exact names_quiet quiet_nil
  | @simple keyword tokens newlines later statement next first ends _ ih =>
    rw [targets_simple, labels_simple]
    have line := (first.names keyword.location.line).append (names_quiet ends.inner.quiet)
    rw [ends.named, List.append_nil, List.append_nil, List.append_nil, List.append_nil] at line
    exact line.append ih
  | @block keyword closer head inner newlines later block condition body next begins opens _ closes
      ends _ ihBody ihNext =>
    have first : Names (keyword :: head) [] [] [] condition.names := by
      have quiet := names_quiet (quiet_cons (by rw [begins]; cases block <;> rfl) opens.inner.quiet)
      obtain ⟨reads, opened, ended⟩ := opens
      rwa [named_of_other (by simp [begins]), named_append, named_of_other (by simp [opened]),
        ended.named, reads.named, List.append_nil] at quiet
    have last : Names (closer :: newlines) [] [] [] [] := by
      have quiet := names_quiet (quiet_cons (by rw [closes]; cases block <;> rfl) ends.inner.quiet)
      rwa [named_of_other (by simp [closes]), ends.named] at quiet
    have whole := ((first.append ihBody).append last).append ihNext
    simpa only [targets, labels, jumps, Code.reads, List.nil_append, List.append_nil] using whole

theorem Code.ReadsProgram.names {tokens : List Token} {code : Code} (reads : code.ReadsProgram tokens) :
    Names tokens code.targets code.labels code.jumps code.reads := by
  obtain ⟨blanks, reads, ends⟩ := reads
  rename_i blank tokens last
  have none : named blank = [] := by
    rw [named, List.filter_eq_nil_iff.2 fun token member => by simp [blanks token member]]
    rfl
  have first := names_quiet (inner_newlines blanks).quiet
  rw [none] at first
  have final := names_quiet (quiet_singleton (by rw [ends]; rfl) : Quiet [last])
  rw [named_of_other (by simp [ends])] at final
  simpa using (first.append reads.names).append final

end Syntax

end LineBasic
