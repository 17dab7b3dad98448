import LineBasic.Pass.Program

/-!
# A pass goes line by line

Programs, statements and blocks are read by loops inside loops, but each line is read in one of four ways: the
blocks that are open and the token that it starts with decide which (`turn`). So a program is read by one loop
over its lines, which carries the list of the open blocks (`program_by_lines`). Each round reads a line up
to its end and then expects a newline.

From this loop come the states in which statements are entered (`Enters`) and newlines expected
(`ExpectsNewline`).
-/

namespace LineBasic.Pass

set_option autoImplicit false

/-! ## Lines -/

/-- What is done where a line starts. -/
inductive Turn where
  /-- The program is over. -/
  | stop
  /-- The text is over, and the block is still open. -/
  | lack (block : Block)
  /-- The innermost block is ended. -/
  | close (block : Block) (outer : List Block)
  /-- A statement is entered. -/
  | enter
  deriving DecidableEq

def turn : List Block → Kind → Turn
  | [], kind => if kind = .eof then .stop else .enter
  | block :: outer, kind =>
      if kind = .keyword block.closer then .close block outer
      else if kind = .eof then .lack block
      else .enter

/-- The line that ends a block. -/
def closingLine (block : Block) : Pass Unit := do
  let _ ← expect (.keyword block.closer)
  writeLine "\x7d"

/-- The line that begins a block, after its keyword. -/
def openingLine (block : Block) : Pass Unit := do
  write (block.word ++ "(")
  comparison
  let _ ← expect (.keyword block.opener)
  writeLine ")\x7b"

/-- The line that a statement begins with, which is the whole statement unless it opens a block. -/
def statementLine : Pass (Option Block) := do
  beginStatement
  let s ← get
  match statementRest? s.current.kind with
  | none =>
      throw (s.report (.invalidStatement s.current.text s.current.kind.name) s.current.location)
  | some (.inl rest) =>
      advance
      rest
      return none
  | some (.inr block) =>
      advance
      openingLine block
      return some block

/-- A line up to its end. It hands on the blocks that are open then, or nothing if the program is over. -/
def readLine (blocks : List Block) : Pass (Option (List Block)) := do
  let s ← get
  match turn blocks s.current.kind with
  | .stop => return none
  | .lack block => throw (s.unexpected block.closer.spelling)
  | .close block outer =>
      closingLine block
      return some outer
  | .enter =>
      let opened ← statementLine
      return some (opened.toList ++ blocks)

def lineRound (blocks : List Block) : Pass (Option (List Block)) := do
  let handed ← readLine blocks
  match handed with
  | none => return none
  | some blocks =>
      newline
      return some blocks

theorem openStatement_by_lines :
    openStatement = (do let opened ← statementLine; newline; return opened) := by
  unfold openStatement dispatch statementLine blockHead openingLine
  simp only [bind_assoc]
  congr 1
  funext _
  congr 1
  funext s
  cases statementRest? s.current.kind with
  | none => rfl
  | some rest => cases rest <;> simp only [bind_assoc, pure_bind]

theorem lineRound_nil :
    lineRound [] = (do
      let s ← get
      if s.current.kind = .eof then return none
      else
        let opened ← openStatement
        return some opened.toList) := by
  unfold lineRound readLine
  rw [openStatement_by_lines]
  simp only [bind_assoc]
  congr 1
  funext s
  by_cases ended : s.current.kind = .eof
  · simp only [turn, ended, if_true, pure_bind]
  · simp only [turn, ended, if_false, bind_assoc, pure_bind, List.append_nil]

theorem lineRound_cons (block : Block) (outer : List Block) :
    lineRound (block :: outer) = (do return some (← blockMove block outer)) := by
  unfold lineRound readLine blockMove closingLine
  rw [openStatement_by_lines]
  simp only [bind_assoc]
  congr 1
  funext s
  by_cases closes : s.current.kind = .keyword block.closer
  · simp only [turn, closes, if_true, bind_assoc, pure_bind]
  · by_cases ended : s.current.kind = .eof
    · simp only [turn, ended, if_true, reduceCtorEq, if_false]
      rfl
    · simp only [turn, closes, ended, if_false, bind_assoc, pure_bind]

theorem shrinking_lineRound : Shrinking lineRound := by
  intro blocks s
  cases blocks with
  | nil =>
    rw [lineRound_nil]
    refine handsOnFrom_get_bind ?_
    split
    · exact handsOnFrom_none s
    · exact handsOnFrom_of_progress
        (progressFrom_bind (progressFrom_openStatement s) fun _ => steady_pure _)
  | cons block outer =>
    rw [lineRound_cons]
    exact handsOnFrom_of_progress
      (progressFrom_bind (progressFrom_blockMove block outer s) fun _ => steady_pure _)

/-! ## One loop -/

/-- Reads the lines from one on at which these blocks are open. -/
def readLines (blocks : List Block) : Pass Unit := iterate lineRound shrinking_lineRound blocks

def readStatements : Pass Unit := iterate statementRound shrinking_statementRound ()

theorem readLines_nil :
    readLines [] = (do
      let s ← get
      if s.current.kind = .eof then return ()
      else
        let opened ← openStatement
        readLines opened.toList) := by
  unfold readLines
  rw [iterate_eq_bind, lineRound_nil, bind_assoc]
  congr 1
  funext s
  split <;> simp only [bind_assoc, pure_bind]

theorem readLines_cons (block : Block) (outer : List Block) :
    readLines (block :: outer) = (do
      let blocks ← blockMove block outer
      readLines blocks) := by
  unfold readLines
  rw [iterate_eq_bind, lineRound_cons]
  simp only [bind_assoc, pure_bind]

theorem readStatements_eq :
    readStatements = (do
      let s ← get
      if s.current.kind = .eof then return ()
      else
        statement
        readStatements) := by
  conv => lhs; rw [readStatements, iterate_eq_bind, statementRound, bind_assoc]
  congr 1
  funext s
  split
  · rw [pure_bind]
  · simp only [bind_assoc, pure_bind]
    rfl

theorem get_bind_apply {α : Type} (next : State → Pass α) (s : State) : (get >>= next) s = next s s := rfl

/-- The loop over the lines closes the blocks that are open and then reads the statements behind them. -/
theorem readLines_eq (blocks : List Block) : readLines blocks = (do closeBlocks blocks; readStatements) := by
  funext s
  -- The blocks change from line to line, but each line leaves less to read.
  generalize left : s.remaining = n
  induction n using Nat.strongRecOn generalizing blocks s with
  | ind n ih =>
    cases blocks with
    | nil =>
      rw [closeBlocks_nil, pure_bind, readLines_nil, readStatements_eq, get_bind_apply, get_bind_apply]
      by_cases ended : s.current.kind = .eof
      · rw [if_pos ended, if_pos ended]
      · rw [if_neg ended, if_neg ended, statement, bind_assoc, bind_apply, bind_apply]
        cases opening : openStatement s with
        | error fault t => rfl
        | ok opened t =>
          have shorter : t.remaining < n := left ▸ progressFrom_openStatement s opening
          exact ih _ shorter opened.toList t rfl
    | cons block outer =>
      rw [readLines_cons, closeBlocks_cons, bind_assoc, bind_apply, bind_apply]
      cases moved : blockMove block outer s with
      | error fault t => rfl
      | ok blocks t =>
        have shorter : t.remaining < n := left ▸ progressFrom_blockMove block outer s moved
        exact ih _ shorter blocks t rfl

/-- What comes before the lines. -/
def beforeLines : Pass Unit := do
  writeHeaderLine "#include <stdio.h>"
  writeHeaderLine "int main(void)\x7b"
  skipNewlines

/-- What comes behind them. -/
def afterLines : Pass Unit := do
  writeLine "return 0;"
  writeLine "\x7d"
  checkLabels

theorem program_by_lines :
    program = (do beforeLines; readLines []; afterLines) := by
  rw [readLines_eq, closeBlocks_nil, pure_bind]
  unfold program beforeLines afterLines readStatements
  simp only [bind_assoc]

/-! ## Rounds -/

section

variable {σ : Type}

/-- The rounds of an iteration: what each is given, and the state that it starts in. -/
inductive Rounds (round : σ → Pass (Option σ)) (a : σ) (s : State) : σ → State → Prop where
  | first : Rounds round a s a s
  | next {b c : σ} {t u : State} (earlier : Rounds round a s b t) (handed : round b t = .ok (some c) u) :
      Rounds round a s c u

end

/-- A pass over a program comes to a line, with these blocks open. -/
def ComesTo (s : State) (blocks : List Block) (t : State) : Prop :=
  ∃ r, beforeLines s = .ok () r ∧ Rounds lineRound [] r blocks t

/-- A pass over a program enters a statement in a state. -/
def Enters (s t : State) : Prop := ∃ blocks, ComesTo s blocks t ∧ turn blocks t.current.kind = .enter

/-- A pass over a program expects a newline in a state. -/
def ExpectsNewline (s t : State) : Prop :=
  ∃ blocks opened r, ComesTo s blocks r ∧ readLine blocks r = .ok (some opened) t

end LineBasic.Pass
