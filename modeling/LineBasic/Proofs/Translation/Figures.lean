import LineBasic.Proofs.Concat.Program
import LineBasic.Proofs.Translation.Count

/-!
# The figures of a compiled source

A pass counts while it reads, ahead of need and inside of nested blocks. What it reports can be read off the list
of tokens without a parser all the same: statements are counted by their keywords, and the names in the
tables are the tokens directly behind certain keywords (`followers`). Each statement takes three tokens at
least, and each token but the end takes a character (`compile_figures`).
-/

namespace LineBasic

set_option autoImplicit false

/-! ## Keywords -/

theorem Kind.mem_all (kind : Kind) : kind ∈ all := by
  cases kind with
  | keyword word => cases word <;> decide
  | operator op => cases op <;> decide
  | _ => decide

theorem beginsStatement_iff (kind : Kind) :
    kind.beginsStatement = true ↔ kind ∈ statementKeywords.map .keyword := List.contains_iff_mem

/-- The tokens that directly follow one of these keywords. -/
def followers (keywords : List Keyword) (tokens : List Token) : List Token :=
  ((tokens.zip tokens.tail).filter fun pair => pair.1.kind ∈ keywords.map Kind.keyword).map (·.2)

theorem followers_cons_cons (keywords : List Keyword) (first second : Token) (rest : List Token) :
    followers keywords (first :: second :: rest) =
      (if first.kind ∈ keywords.map Kind.keyword then [second] else []) ++
        followers keywords (second :: rest) := by
  rw [followers, List.tail_cons, List.zip_cons_cons, List.filter_cons]
  split <;> simp_all [followers]

/-- If the keywords are those that give the next token a role, the tokens in this role follow them. -/
theorem inRole_eq_followers {role : Role} {keywords : List Keyword} (special : role ≠ .plain)
    (gives : ∀ kind ∈ Kind.all, Role.after kind = role ↔ kind ∈ keywords.map Kind.keyword)
    (tokens : List Token) : inRole role tokens = followers keywords tokens := by
  have behind (first : Token) (rest : List Token) :
      inRoleFrom role (.after first.kind) rest = followers keywords (first :: rest) := by
    induction rest generalizing first with
    | nil => rfl
    | cons second rest ih =>
      simp only [inRoleFrom, followers_cons_cons, gives first.kind first.kind.mem_all, ih]
  cases tokens with
  | nil => rfl
  | cons first rest => rw [inRole, inRoleFrom, if_neg (Ne.symm special), List.nil_append, behind]

theorem targets_eq_followers (tokens : List Token) :
    inRole .target tokens = followers [.let_, .input] tokens :=
  inRole_eq_followers (by decide) (by decide) tokens

theorem labels_eq_followers (tokens : List Token) : inRole .label tokens = followers [.label] tokens :=
  inRole_eq_followers (by decide) (by decide) tokens

/-! ## Bounds -/

namespace Syntax

theorem Operand.Reads.ne_nil {tokens : List Token} {operand : Operand} (reads : operand.Reads tokens) :
    tokens ≠ [] := by
  cases reads <;> simp

theorem Chain.Reads.ne_nil {ρ ι : Type} {operator : ρ → Operator} {item : List Token → ι → Prop}
    {tokens : List Token} {chain : Chain ρ ι} (items : ∀ {tokens value}, item tokens value → tokens ≠ [])
    (reads : Chain.Reads operator item tokens chain) : tokens ≠ [] := by
  obtain ⟨first, -⟩ := reads
  exact List.append_ne_nil_of_left_ne_nil (items first) _

theorem Expression.Reads.ne_nil {tokens : List Token} {value : Expression}
    (reads : Expression.Reads tokens value) : tokens ≠ [] :=
  Chain.Reads.ne_nil (Chain.Reads.ne_nil Operand.Reads.ne_nil) reads

theorem Simple.Reads.ne_nil {keyword : Token} {tokens : List Token} {statement : Simple}
    (reads : statement.Reads keyword tokens) : tokens ≠ [] := by
  cases reads with
  | print _ reads => exact reads.ne_nil
  | _ => exact List.cons_ne_nil _ _

/-- A statement takes three tokens at least: its keyword, what comes behind it, and a newline. -/
theorem Code.Reads.three_mul_starts_le {tokens : List Token} {code : Code} (reads : code.Reads tokens) :
    3 * code.starts.length ≤ tokens.length := by
  induction reads with
  | done => exact Nat.le_refl 0
  | simple first ends _ ih =>
    have some := List.length_pos_iff.2 first.ne_nil
    have newline := List.length_pos_iff.2 ends.1
    simp only [Code.starts, List.length_append, List.length_cons]
    omega
  | block _ opens _ _ ends _ ihBody ihNext =>
    have newline := List.length_pos_iff.2 ends.1
    simp only [Code.starts, List.length_append, List.length_cons]
    omega

theorem Code.ReadsProgram.three_mul_starts_lt {tokens : List Token} {code : Code}
    (reads : code.ReadsProgram tokens) : 3 * code.starts.length < tokens.length := by
  obtain ⟨-, reads, -⟩ := reads
  have least := reads.three_mul_starts_le
  rw [List.length_append, List.length_append, List.length_singleton]
  omega

end Syntax

/-- Every token but the end is paid for with a character. -/
theorem Scanner.countP_drain_le (sc : Scanner) :
    sc.drain.tokens.countP (·.kind ≠ .eof) ≤ sc.cursor.rest.length := by
  fun_induction drain sc with
  | case1 => simp
  | case2 sc token sc' step isEnd => simp [isEnd]
  | case3 sc token sc' step more later ih =>
    have paid := next_rest_length step
    rw [weight, if_neg more] at paid
    rw [List.countP_cons_of_pos (by simpa using more)]
    exact Nat.le_trans (Nat.succ_le_succ ih) paid

variable {options : Options} {file source : String} {result : Compiled}

theorem tokens_le_of_compile (compiled : compile options file source = .ok result) :
    result.tokens ≤ source.length + 1 := by
  obtain ⟨-, t, -, -, -, accepted⟩ := accepted_of_compile compiled
  have counted : result.tokens = (Scanner.start file source).total :=
    Nat.succ_injective ((tokens_of_compile compiled).trans (Scanner.total_start accepted.whole).symm)
  have total : (Scanner.start file source).total =
      (Scanner.start file source).drain.tokens.countP (·.kind ≠ .eof) := Nat.zero_add _
  have length : (Scanner.start file source).cursor.rest.length = source.length + 1 := by
    simp [Scanner.start, Cursor.start, String.length_toList]
  rw [counted, total, ← length]
  exact Scanner.countP_drain_le _

/-- **The figures of a compiled source are those of its tokens.** The tokens are all tokens but the end, the
statements are the keywords that begin one, the variables are the tokens behind `LET` and `INPUT`, each
once, and the labels those behind `LABEL`. There are three tokens to a statement at least, and no more
tokens than characters and the newline put after them. -/
theorem compile_figures (compiled : compile options file source = .ok result) :
    (Scanner.start file source).drain.fault = none ∧
      result.tokens + 1 = (Scanner.start file source).drain.tokens.length ∧
      result.statements = (Scanner.start file source).drain.tokens.countP
        (fun token => token.kind ∈ statementKeywords.map Kind.keyword) ∧
      result.vars =
        ((followers [.let_, .input] (Scanner.start file source).drain.tokens).map (·.text)).eraseDups ∧
      result.labels = (followers [.label] (Scanner.start file source).drain.tokens).map (·.text) ∧
      3 * result.statements ≤ result.tokens ∧ result.tokens ≤ source.length + 1 := by
  obtain ⟨-, t, -, -, same, accepted⟩ := accepted_of_compile compiled
  obtain ⟨code, reads, -⟩ := exists_tree_of_compile compiled
  have tokens := tokens_of_compile compiled
  have statements := statements_of_compile compiled reads
  refine ⟨accepted.whole, tokens, ?_, ?_, ?_, ?_, tokens_le_of_compile compiled⟩
  · rw [statements, ← reads.starts_eq, List.length_map, starters, ← List.countP_eq_length_filter]
    simp only [← beginsStatement_iff, Bool.decide_eq_true]
  · rw [← targets_eq_followers, same]
    show t.vars.names = _
    rw [accepted.vars, NameTable.names_ofTokens]
    rfl
  · rw [← labels_eq_followers, labels_of_compile compiled]
  · have least := reads.three_mul_starts_lt
    omega

/-- A program with nested blocks, jumps, blank lines, a variable set twice and one that is read in. -/
theorem compile_figures_nested :
    let source := "INPUT n\n\nLABEL top # again\nIF n > 0 THEN\nLET n = n - 1\n" ++
      "WHILE n >= 9 REPEAT\nLET half = n / 2\nENDWHILE\nGOTO top\nENDIF\nPRINT \"LET x\""
    let tokens := (Scanner.start "demo" source).drain.tokens
    ∃ result, compile {} "demo" source = .ok result ∧
      result.tokens + 1 = tokens.length ∧ result.tokens = 43 ∧
      result.statements =
        tokens.countP (fun token => token.kind ∈ statementKeywords.map Kind.keyword) ∧
      result.statements = 8 ∧
      result.vars = ((followers [.let_, .input] tokens).map (·.text)).eraseDups ∧
      result.vars = ["n", "half"] ∧
      result.labels = (followers [.label] tokens).map (·.text) ∧ result.labels = ["top"] := by
  intro source tokens
  obtain ⟨result, compiled, figures⟩ := @compile_ok_of_any {} "demo" source
    (fun result => result.tokens = 43 ∧ result.statements = 8 ∧ result.vars = ["n", "half"] ∧
      result.labels = ["top"]) (by decide +kernel)
  obtain ⟨count, statements, vars, labels⟩ := of_decide_eq_true figures
  obtain ⟨-, tokens, begun, set, defined, -⟩ := compile_figures compiled
  exact ⟨result, compiled, tokens, count, begun, statements, set, vars, defined, labels⟩

end LineBasic
