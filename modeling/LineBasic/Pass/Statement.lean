import LineBasic.Names.Reserved
import LineBasic.Pass.Expression

/-!
# Statements

A statement begins with its keyword and ends with at least one newline. The two block statements hold
other statements. Reading them needs no nesting of its own: `openStatement` reads a statement up to
its end or, for a block, up to the start of its body, and `closeBlocks` goes on with the list of the
blocks that are open, innermost first. Each move begins the next statement of the innermost block or
closes the block, and a block statement is over when the list is empty. That statements nest all the
same is `closeBlocks_append`: to close two groups of blocks is to close the inner ones and then the
outer ones.

A variable counts as set only after the expression that sets it was read, so the first assignment of a
variable cannot read it.
-/

namespace LineBasic.Pass

set_option autoImplicit false

/-! ## Newlines -/

/-- Moves on over one newline, if there is one. -/
def newlineRound (_ : Unit) : Pass (Option Unit) := do
  let s ← get
  if s.current.kind = .newline then
    advance
    return some ()
  else
    return none

theorem steady_newlineRound (a : Unit) : Steady (newlineRound a) := by
  refine steady_get_bind fun s => ?_
  split
  · exact steady_bind steady_advance fun _ => steady_pure _
  · exact steady_pure _

theorem shrinking_newlineRound : Shrinking newlineRound := by
  intro _ s
  refine handsOnFrom_get_bind ?_
  split
  · rename_i isNewline
    have more : s.current.kind ≠ .eof := by simp [isNewline]
    exact handsOnFrom_of_progress
      (progressFrom_bind (progressFrom_advance more) fun _ => steady_pure _)
  · exact handsOnFrom_none s

def skipNewlines : Pass Unit := iterate newlineRound shrinking_newlineRound ()

theorem steady_skipNewlines : Steady skipNewlines := steady_iterate _ steady_newlineRound ()

/-- The end of a statement: a newline and all that follow it. -/
def newline : Pass Unit := do
  let _ ← expect .newline
  skipNewlines

theorem steady_newline : Steady newline :=
  steady_bind (steady_expect _) fun _ => steady_skipNewlines

/-! ## Names -/

/-- Refuses a name that the C program cannot use. -/
def refuseReserved (token : Token) (reserved : List String) : Pass Unit := do
  let s ← get
  if reserved.contains token.text then
    throw (s.report (.reservedName token.text) token.location)

theorem steady_refuseReserved (token : Token) (reserved : List String) :
    Steady (refuseReserved token reserved) := by
  refine steady_get_bind fun s => ?_
  split
  · exact steady_throw _
  · exact steady_pure _

/-- Enters a variable that is set for the first time, and declares it. -/
def declare (token : Token) : Pass Unit :=
  modify fun s =>
    if s.vars.has token.text then s
    else
      { s with
        vars := s.vars.note token.text token.location
        output := s.output.addHeaderLine s!"float {token.text};" }

theorem steady_declare (token : Token) : Steady (declare token) := by
  refine steady_modify fun s => ?_
  split <;> rfl

/-- A name after a keyword, none of the reserved ones. -/
def freeName (reserved : List String) : Pass Token := do
  let token ← expect .ident
  refuseReserved token reserved
  return token

theorem steady_freeName (reserved : List String) : Steady (freeName reserved) :=
  steady_bind (steady_expect _) fun _ => steady_bind (steady_refuseReserved _ _) fun _ =>
    steady_pure _

/-! ## Simple statements, after their keyword -/

/-- The rest of `PRINT`: a string, or an expression with the decimal places of the options. -/
def printRest : Pass Unit := do
  let s ← get
  if s.current.kind = .string then
    writeLine s!"printf(\"{s.current.text}\\n\");"
    advance
  else
    write s!"printf(\"%.{s.options.precision}f\\n\", (float)("
    expression
    writeLine "));"

theorem steady_printRest : Steady printRest := by
  refine steady_get_bind fun s => ?_
  split
  · exact steady_bind (steady_writeLine _) fun _ => steady_advance
  · exact steady_bind (steady_write _) fun _ => steady_bind steady_expression fun _ =>
      steady_writeLine _

/-- Enters a label at its definition. -/
def defineLabel (token : Token) : Pass Unit := do
  let s ← get
  match s.labels.get? token.text with
  | some first =>
      throw (s.report (.duplicateLabel token.text (some first)) token.location)
  | none => modify fun s => { s with labels := s.labels.note token.text token.location }

/-- The rest of `LABEL`. The empty statement lets a label stand at the end of a block. -/
def labelRest : Pass Unit := do
  let token ← freeName Reserved.forLabels
  defineLabel token
  writeLine s!"{token.text}:;"

/-- The rest of `GOTO`. Its label may be defined later. -/
def gotoRest : Pass Unit := do
  let token ← freeName Reserved.forLabels
  modify fun s => { s with jumps := s.jumps.note token.text token.location }
  writeLine s!"goto {token.text};"

/-- The rest of `LET`. -/
def letRest : Pass Unit := do
  let token ← freeName Reserved.forVariables
  write s!"{token.text} = "
  let _ ← expect (.operator .assign)
  expression
  writeLine ";"
  declare token

/-- The rest of `INPUT`. A word that is no number is passed over and stands for zero. -/
def inputRest : Pass Unit := do
  let token ← freeName Reserved.forVariables
  declare token
  writeLine (s!"if(0 == scanf(\"%f\", &{token.text})) " ++ "\x7b")
  writeLine s!"{token.text} = 0;"
  writeLine "scanf(\"%*s\");"
  writeLine "\x7d"

theorem steady_defineLabel (token : Token) : Steady (defineLabel token) := by
  refine steady_get_bind fun s => ?_
  split
  · exact steady_throw _
  · exact steady_modify fun _ => rfl

theorem steady_labelRest : Steady labelRest :=
  steady_bind (steady_freeName _) fun _ => steady_bind (steady_defineLabel _) fun _ =>
    steady_writeLine _

theorem steady_gotoRest : Steady gotoRest :=
  steady_bind (steady_freeName _) fun _ =>
    steady_bind (steady_modify fun _ => rfl) fun _ => steady_writeLine _

theorem steady_letRest : Steady letRest :=
  steady_bind (steady_freeName _) fun _ => steady_bind (steady_write _) fun _ =>
    steady_bind (steady_expect _) fun _ => steady_bind steady_expression fun _ =>
      steady_bind (steady_writeLine _) fun _ => steady_declare _

theorem steady_inputRest : Steady inputRest :=
  steady_bind (steady_freeName _) fun _ => steady_bind (steady_declare _) fun _ =>
    steady_bind (steady_writeLine _) fun _ => steady_bind (steady_writeLine _) fun _ =>
      steady_bind (steady_writeLine _) fun _ => steady_writeLine _

/-! ## Blocks -/

inductive Block where
  | choice
  | loop
  deriving DecidableEq

namespace Block

/-- The word that begins the block in C. -/
def word : Block → String
  | .choice => "if"
  | .loop => "while"

/-- The keyword between the condition and the body. -/
def opener : Block → Keyword
  | .choice => .then_
  | .loop => .repeat_

/-- The keyword after the body. -/
def closer : Block → Keyword
  | .choice => .endif
  | .loop => .endwhile

end Block

/-- The rest of a block statement up to its body. -/
def blockHead (block : Block) : Pass Unit := do
  write (block.word ++ "(")
  comparison
  let _ ← expect (.keyword block.opener)
  writeLine ")\x7b"
  newline

theorem steady_blockHead (block : Block) : Steady (blockHead block) :=
  steady_bind (steady_write _) fun _ => steady_bind steady_comparison fun _ =>
    steady_bind (steady_expect _) fun _ => steady_bind (steady_writeLine _) fun _ =>
      steady_newline

/-- What a statement is, by its keyword: a step after which its newline follows, or a block. -/
def statementRest? : Kind → Option (Pass Unit ⊕ Block)
  | .keyword .print => some (.inl printRest)
  | .keyword .if_ => some (.inr .choice)
  | .keyword .while_ => some (.inr .loop)
  | .keyword .label => some (.inl labelRest)
  | .keyword .goto => some (.inl gotoRest)
  | .keyword .let_ => some (.inl letRest)
  | .keyword .input => some (.inl inputRest)
  | _ => none

theorem steady_statementRest {kind : Kind} {rest : Pass Unit}
    (found : statementRest? kind = some (.inl rest)) : Steady rest := by
  unfold statementRest? at found
  split at found <;> cases found
  · exact steady_printRest
  · exact steady_labelRest
  · exact steady_gotoRest
  · exact steady_letRest
  · exact steady_inputRest

theorem statementRest?_eof : statementRest? .eof = none := rfl

/-- Counts a statement, and notes its line in the output if the options ask for it. -/
def beginStatement : Pass Unit :=
  modify fun s =>
    let s := { s with statements := s.statements + 1 }
    if s.options.lineComments then
      { s with output := s.output.addBodyLine s!"/* line {s.current.location.line} */" }
    else s

/-- Reads a statement after it was counted: whole, or up to the body of the block that it opens. -/
def dispatch : Pass (Option Block) := do
  let s ← get
  match statementRest? s.current.kind with
  | none =>
      throw (s.report (.invalidStatement s.current.text s.current.kind.name) s.current.location)
  | some (.inl rest) =>
      advance
      rest
      newline
      return none
  | some (.inr block) =>
      advance
      blockHead block
      return some block

/-- Reads a statement whole, or up to the body of the block that it opens. -/
def openStatement : Pass (Option Block) := do
  beginStatement
  dispatch

theorem progressFrom_dispatch (s : State) : ProgressFrom s dispatch := by
  have more {rest} (found : statementRest? s.current.kind = some rest) :
      s.current.kind ≠ .eof := fun isEnd => by simp [isEnd, statementRest?_eof] at found
  refine progressFrom_get_bind ?_
  split
  · exact progressFrom_throw _ _
  · rename_i rest found
    exact progressFrom_bind (progressFrom_advance (more found)) fun _ =>
      steady_bind (steady_statementRest found) fun _ =>
        steady_bind steady_newline fun _ => steady_pure _
  · rename_i block found
    exact progressFrom_bind (progressFrom_advance (more found)) fun _ =>
      steady_bind (steady_blockHead block) fun _ => steady_pure _

/-- A statement that can be read, or opened, takes at least its keyword. -/
theorem progressFrom_openStatement (s : State) : ProgressFrom s openStatement := by
  refine progressFrom_modify_bind ?_ (progressFrom_dispatch _)
  dsimp only
  split <;> rfl

/-- One move inside the open blocks, `block` being the innermost: ends it at its closing keyword, or
begins its next statement. It returns the blocks that are open then. -/
def blockMove (block : Block) (outer : List Block) : Pass (List Block) := do
  let s ← get
  if s.current.kind = .keyword block.closer then
    let _ ← expect (.keyword block.closer)
    writeLine "\x7d"
    newline
    return outer
  else if s.current.kind = .eof then
    throw (s.unexpected block.closer.spelling)
  else
    let opened ← openStatement
    return opened.toList ++ block :: outer

theorem progressFrom_blockMove (block : Block) (outer : List Block) (s : State) :
    ProgressFrom s (blockMove block outer) := by
  refine progressFrom_get_bind ?_
  split
  · exact progressFrom_bind (progressFrom_expect (by simp) s) fun _ =>
      steady_bind (steady_writeLine _) fun _ => steady_bind steady_newline fun _ =>
        steady_pure _
  · split
    · exact progressFrom_throw _ _
    · exact progressFrom_bind (progressFrom_openStatement s) fun _ => steady_pure _

theorem steady_blockMove (block : Block) (outer : List Block) : Steady (blockMove block outer) :=
  fun s _ _ done => Nat.le_of_lt (progressFrom_blockMove block outer s done)

/-- Blocks further out do not matter to a move. -/
theorem blockMove_append (block : Block) (inner outer : List Block) :
    blockMove block (inner ++ outer) = (do return (← blockMove block inner) ++ outer) := by
  unfold blockMove
  rw [bind_assoc]
  congr 1
  funext s
  by_cases closes : s.current.kind = .keyword block.closer
  · simp only [closes, if_true, bind_assoc, pure_bind]
  · by_cases ended : s.current.kind = .eof
    · simp only [ended, if_true, reduceCtorEq, if_false]
      rfl
    · simp only [closes, ended, if_false, bind_assoc, pure_bind, List.append_assoc,
        List.cons_append]

/-- A move, if a block is open. -/
def blockRound : List Block → Pass (Option (List Block))
  | [] => return none
  | block :: outer => do
      let blocks ← blockMove block outer
      return some blocks

theorem steady_blockRound (blocks : List Block) : Steady (blockRound blocks) := by
  cases blocks with
  | nil => exact steady_pure _
  | cons block outer => exact steady_bind (steady_blockMove block outer) fun _ => steady_pure _

theorem shrinking_blockRound : Shrinking blockRound := by
  intro blocks s
  cases blocks with
  | nil => exact handsOnFrom_none s
  | cons block outer =>
    exact handsOnFrom_of_progress
      (progressFrom_bind (progressFrom_blockMove block outer s) fun _ => steady_pure _)

/-- Reads on until every open block is closed. -/
def closeBlocks (blocks : List Block) : Pass Unit := iterate blockRound shrinking_blockRound blocks

theorem steady_closeBlocks (blocks : List Block) : Steady (closeBlocks blocks) :=
  steady_iterate _ steady_blockRound blocks

theorem closeBlocks_nil : closeBlocks [] = pure () := by
  unfold closeBlocks
  rw [iterate_eq_bind]
  rfl

theorem closeBlocks_cons (block : Block) (outer : List Block) :
    closeBlocks (block :: outer) = (do
      let blocks ← blockMove block outer
      closeBlocks blocks) := by
  unfold closeBlocks
  rw [iterate_eq_bind]
  simp only [blockRound, bind_assoc, pure_bind]

/-- Closing two groups of blocks is closing the inner ones and then the outer ones. -/
theorem closeBlocks_append (inner outer : List Block) :
    closeBlocks (inner ++ outer) = (do closeBlocks inner; closeBlocks outer) := by
  funext s
  generalize left : s.remaining = n
  induction n using Nat.strongRecOn generalizing inner s with
  | ind n ih =>
    cases inner with
    | nil => rw [List.nil_append, closeBlocks_nil, pure_bind]
    | cons block inner =>
      rw [List.cons_append, closeBlocks_cons, closeBlocks_cons, blockMove_append, bind_assoc,
        bind_assoc, bind_apply, bind_apply]
      cases moved : blockMove block inner s with
      | error fault t => rfl
      | ok blocks t =>
        have shorter : t.remaining < n := left ▸ progressFrom_blockMove block inner s moved
        simp only [pure_bind]
        exact ih _ shorter blocks t rfl

/-- Reads one statement with all that it holds, up to the next statement. -/
def statement : Pass Unit := do
  let opened ← openStatement
  closeBlocks opened.toList

theorem progressFrom_statement (s : State) : ProgressFrom s statement :=
  progressFrom_bind (progressFrom_openStatement s) fun opened => steady_closeBlocks opened.toList

end LineBasic.Pass
