import LineBasic.Command.Run
import LineBasic.Proofs.Files.Tree
import LineBasic.Proofs.Text.Setting

/-!
# What a run of the command can come to

The command runs over a tree of files and leaves an exit code and a tree. `Ends` lists all that a run can
come to, one case for each way out of it, and says for each case when it comes about; `ends_iff` proves that a
run comes to what the cases say and to nothing else. All other facts about the command follow from the cases.

The checks of the command line leave the tree as it is. They let arguments pass exactly if `Fits` holds of
them (`run_invocation`).
-/

namespace LineBasic.Command

set_option autoImplicit false

/-- A run of the command over a tree of files: its report, and the tree afterwards. -/
def runOn (lookup : String → Option String) (args : List String) (tree : Tree) : Report × Tree :=
  (runCommand lookup args : StateM Tree Report) tree

/-! ## Steps of a run -/

theorem run_bind {α β : Type} {action : StateM Tree α} {next : α → StateM Tree β} {value : α}
    {tree middle : Tree} (first : action tree = (value, middle)) :
    (action >>= next) tree = next value middle := by
  show (let (a, s) := action tree; next a s) = _
  rw [first]

theorem run_find (tree : Tree) (text : String) :
    (MonadDisk.find text : StateM Tree _) tree =
      (((tree.find text).map Entry.kind).mapError (·.failure text), tree) := rfl

theorem run_read {tree : Tree} {path : Path} {bytes : List UInt8} (held : tree.read path = .ok bytes) :
    (MonadDisk.read path : StateM Tree _) tree = (.ok bytes, tree) := by
  show (((tree.read path).mapError _), tree) = _
  rw [held]
  rfl

theorem run_write_ok {tree after : Tree} {path : Path} {bytes : List UInt8}
    (wrote : tree.write path bytes = .ok after) :
    (MonadDisk.write path bytes : StateM Tree _) tree = (.ok (), after) := by
  refine run_bind rfl |>.trans ?_
  rw [wrote]
  rfl

theorem run_write_error {tree : Tree} {path : Path} {bytes : List UInt8} {trouble : Trouble}
    (failed : tree.write path bytes = .error trouble) :
    (MonadDisk.write path bytes : StateM Tree _) tree = (.error (trouble.failure path.text), tree) := by
  refine run_bind rfl |>.trans ?_
  rw [failed]
  rfl

/-! ## The checks of a command line -/

/-- A command line asks for neither the version nor help. -/
def Arguments.AsksForWork (arguments : Arguments) : Prop :=
  arguments.has .version = false ∧ arguments.has .help = false

/-- The value of an option, if it is given, can be used. -/
def ValueGood (tree : Tree) (arguments : Arguments) : Flag → Prop
  | .output => ∀ text, arguments.value? .output = some text → tree.find text ≠ .ok .directory
  | .precision => ∀ text, arguments.value? .precision = some text →
      ∃ value, Text.WritesInteger text value ∧ 0 ≤ value ∧ value ≤ 10
  | _ => True

/-- Arguments that are let pass: their values can be used, and their one operand leads to a file. -/
structure Fits (tree : Tree) (arguments : Arguments) (operand : String) (bytes : List UInt8) : Prop where
  output : ValueGood tree arguments .output
  precision : ValueGood tree arguments .precision
  operands : arguments.operands = [operand]
  found : tree.find operand = .ok (.file bytes)

/-- A command line that leads to work on the bytes of a file. -/
structure Accepts (tree : Tree) (args : List String) (arguments : Arguments) (operand : String)
    (bytes : List UInt8) : Prop extends Fits tree arguments operand bytes where
  split : Arguments.split args = .ok arguments
  asks : arguments.AsksForWork

section Checks

variable {tree : Tree} {arguments : Arguments}

theorem Arguments.has_iff (arguments : Arguments) (flag : Flag) :
    arguments.has flag = true ↔ ∃ occurrence ∈ arguments.occurrences, occurrence.flag = flag := by
  rw [has, flags, List.contains_iff_mem, List.mem_eraseDups, List.mem_map]

theorem request?_eq_none_iff : request? arguments = none ↔ arguments.AsksForWork := by
  have apart (flag : Flag) : arguments.has flag = false ↔
      ∀ occurrence ∈ arguments.occurrences, occurrence.flag ≠ flag := by
    rw [← Bool.not_eq_true, Arguments.has_iff]
    simp
  rw [Arguments.AsksForWork, apart, apart, request?, List.findSome?_eq_none_iff, ← forall₂_and]
  refine forall₂_congr fun occurrence _ => ?_
  cases occurrence.flag <;> simp

theorem Arguments.mem_flags_of_value? {flag : Flag} {text : String}
    (given : arguments.value? flag = some text) : flag ∈ arguments.flags := by
  obtain ⟨occurrence, found, -⟩ := Option.map_eq_some_iff.1 given
  have member := List.mem_reverse.1 (List.mem_of_find?_eq_some found)
  have same : occurrence.flag = flag := by simpa using List.find?_some found
  rw [flags, List.mem_eraseDups]
  exact List.mem_map.2 ⟨occurrence, member, same⟩

theorem run_valueFault? (flag : Flag) :
    ∃ fault?, (valueFault? arguments flag : StateM Tree _) tree = (fault?, tree) ∧
      (fault? = none ↔ ValueGood tree arguments flag) := by
  cases flag with
  | output =>
    cases given : arguments.value? .output with
    | none => exact ⟨none, by simp [valueFault?, given]; rfl, by simp [ValueGood, given]⟩
    | some text =>
      have asked := run_find tree text
      simp only [valueFault?, given]
      rw [run_bind asked]
      cases found : tree.find text with
      | error trouble => exact ⟨none, rfl, by simp [ValueGood, given, found]⟩
      | ok entry =>
        cases entry with
        | directory => exact ⟨some (.outputIsDirectory text), rfl, by simp [ValueGood, given, found]⟩
        | file bytes => exact ⟨none, rfl, by simp [ValueGood, given, found]⟩
  | precision =>
    cases given : arguments.value? .precision with
    | none => exact ⟨none, by simp [valueFault?, given]; rfl, by simp [ValueGood, given]⟩
    | some text =>
      simp only [valueFault?, given]
      cases reads : Text.integer? text with
      | none =>
        refine ⟨some (.precisionNotInteger text), ?_,
          by simp [ValueGood, given, ← Text.integer?_eq_some_iff, reads]⟩
        simp only [readPrecision, reads]
        rfl
      | some value =>
        by_cases allowed : Options.allowsPrecision value = true
        · refine ⟨none, ?_, ?_⟩
          · simp only [readPrecision, reads, allowed, if_true]
            rfl
          · simpa [ValueGood, given, ← Text.integer?_eq_some_iff, reads, Options.allowsPrecision_iff]
              using allowed
        · refine ⟨some (.precisionOutOfRange value), ?_, ?_⟩
          · simp only [readPrecision, reads, allowed, Bool.false_eq_true, if_false]
            rfl
          · simpa [ValueGood, given, ← Text.integer?_eq_some_iff, reads, Options.allowsPrecision_iff]
              using allowed
  | _ => exact ⟨none, rfl, by simp [ValueGood]⟩

theorem run_firstValueFault? (flags : List Flag) :
    ∃ fault?, (firstValueFault? arguments flags : StateM Tree _) tree = (fault?, tree) ∧
      (fault? = none ↔ ∀ flag ∈ flags, ValueGood tree arguments flag) := by
  induction flags with
  | nil => exact ⟨none, rfl, by simp⟩
  | cons flag flags ih =>
    obtain ⟨fault?, first, good⟩ := @run_valueFault? tree arguments flag
    rw [firstValueFault?, run_bind first]
    cases fault? with
    | some fault =>
      have bad : ¬ ValueGood tree arguments flag := fun fine => by cases good.2 fine
      exact ⟨some fault, rfl, by simp [bad]⟩
    | none =>
      obtain ⟨later?, rest, all⟩ := ih
      refine ⟨later?, rest, all.trans ?_⟩
      simp [good.1 rfl]

theorem run_operandFault? (operands : List String) :
    ∃ fault?, (operandFault? operands : StateM Tree _) tree = (fault?, tree) ∧
      (fault? = none ↔
        ∃ operand bytes, operands = [operand] ∧ tree.find operand = .ok (.file bytes)) := by
  cases operands with
  | nil => exact ⟨some .missingInput, rfl, by simp⟩
  | cons text extra =>
    rw [operandFault?, run_bind (run_find tree text)]
    cases found : tree.find text with
    | error trouble => exact ⟨some (.inputNotFound text), rfl, by simp [found]⟩
    | ok entry =>
      cases entry with
      | directory => exact ⟨some (.inputIsDirectory text), rfl, by simp [found]⟩
      | file bytes =>
        cases extra with
        | nil => exact ⟨none, rfl, by simp [found]⟩
        | cons other more => exact ⟨some (.extraOperands (other :: more)), rfl, by simp⟩

/-- The checks change nothing, and let exactly the arguments pass that fit. -/
theorem run_invocation (tree : Tree) (arguments : Arguments) :
    ∃ answer, (invocation arguments : StateM Tree _) tree = (answer, tree) ∧
      ((∃ operand bytes, Fits tree arguments operand bytes) ∧ answer = .ok (.ofArguments arguments) ∨
        (¬ ∃ operand bytes, Fits tree arguments operand bytes) ∧ ∃ fault, answer = .error fault) := by
  obtain ⟨value?, values, good⟩ := @run_firstValueFault? tree arguments arguments.flags
  obtain ⟨operand?, operands, one⟩ := @run_operandFault? tree arguments.operands
  rw [invocation, run_bind values]
  cases value? with
  | some fault =>
    refine ⟨.error fault, rfl, .inr ⟨?_, fault, rfl⟩⟩
    rintro ⟨operand, bytes, fits⟩
    have all : ∀ flag ∈ arguments.flags, ValueGood tree arguments flag := by
      intro flag _
      cases flag with
      | output => exact fits.output
      | precision => exact fits.precision
      | _ => trivial
    cases good.2 all
  | none =>
    dsimp only
    rw [run_bind operands]
    cases operand? with
    | some fault =>
      refine ⟨.error fault, rfl, .inr ⟨?_, fault, rfl⟩⟩
      rintro ⟨operand, bytes, fits⟩
      cases one.2 ⟨operand, bytes, fits.operands, fits.found⟩
    | none =>
      obtain ⟨operand, bytes, alone, found⟩ := one.1 rfl
      refine ⟨_, rfl, .inl ⟨⟨operand, bytes, ?_, ?_, alone, found⟩, rfl⟩⟩
      · intro text given
        exact good.1 rfl _ (Arguments.mem_flags_of_value? given) text given
      · intro text given
        exact good.1 rfl _ (Arguments.mem_flags_of_value? given) text given

end Checks

/-! ## What a run comes to -/

/-- A path that is missing or a directory is the user's fault; every other trouble with one is taken for a
fault of the program. -/
theorem exitCode_failure_cases (trouble : Trouble) (path : String) :
    (trouble.failure path).exitCode = .invalidArguments ∧ (trouble = .missing ∨ trouble = .isDirectory) ∨
      (trouble.failure path).exitCode = .internalError ∧
        (trouble = .notDirectory ∨ trouble = .nameTooLong ∨ trouble = .nullInName) := by
  cases trouble with
  | missing => exact .inl ⟨rfl, .inl rfl⟩
  | isDirectory => exact .inl ⟨rfl, .inr rfl⟩
  | notDirectory => exact .inr ⟨rfl, .inl rfl⟩
  | nameTooLong => exact .inr ⟨rfl, .inr (.inl rfl)⟩
  | nullInName => exact .inr ⟨rfl, .inr (.inr rfl)⟩

/-- Where the C program goes: to the file that is named, or next to the source. -/
def outputPath (arguments : Arguments) (operand : String) : Path :=
  match arguments.value? .output with
  | some text => Path.ofString text
  | none => (Path.ofString operand).withSuffix ".c"

/-- The options under which a source is compiled. -/
def settings (lookup : String → Option String) (arguments : Arguments) : Options :=
  (Invocation.ofArguments arguments).options (.ofEnvironment lookup)

/-- What a run over a tree can come to: an exit code, and the tree afterwards. -/
inductive Ends (lookup : String → Option String) (args : List String) (tree : Tree) :
    ExitCode → Tree → Prop
  | misused {fault : UsageFault} (split : Arguments.split args = .error fault) :
      Ends lookup args tree .invalidArguments tree
  | told {arguments : Arguments} (split : Arguments.split args = .ok arguments)
      (asks : ¬ arguments.AsksForWork) : Ends lookup args tree .success tree
  | refused {arguments : Arguments} (split : Arguments.split args = .ok arguments)
      (asks : arguments.AsksForWork) (unfit : ¬ ∃ operand bytes, Fits tree arguments operand bytes) :
      Ends lookup args tree .invalidArguments tree
  | undecoded {arguments : Arguments} {operand : String} {bytes : List UInt8} {failure : Failure}
      (accepts : Accepts tree args arguments operand bytes)
      (decodes : decodeSource bytes = .error failure) : Ends lookup args tree .invalidArguments tree
  | unscanned {arguments : Arguments} {operand : String} {bytes : List UInt8} {source : String}
      {fault : Diagnostic} (accepts : Accepts tree args arguments operand bytes)
      (decodes : decodeSource bytes = .ok source) (tokens : arguments.has .tokens = true)
      (scans : (Scanner.start (Path.ofString operand).text source).drain.fault = some fault) :
      Ends lookup args tree .buildError tree
  | listed {arguments : Arguments} {operand : String} {bytes : List UInt8} {source : String}
      (accepts : Accepts tree args arguments operand bytes)
      (decodes : decodeSource bytes = .ok source) (tokens : arguments.has .tokens = true)
      (scans : (Scanner.start (Path.ofString operand).text source).drain.fault = none) :
      Ends lookup args tree .success tree
  | uncompiled {arguments : Arguments} {operand : String} {bytes : List UInt8} {source : String}
      {fault : Diagnostic} (accepts : Accepts tree args arguments operand bytes)
      (decodes : decodeSource bytes = .ok source) (tokens : arguments.has .tokens = false)
      (compiles : compile (settings lookup arguments) (Path.ofString operand).text source =
        .error fault) : Ends lookup args tree .buildError tree
  | unwritten {arguments : Arguments} {operand : String} {bytes : List UInt8} {source : String}
      {compiled : Compiled} {trouble : Trouble} (accepts : Accepts tree args arguments operand bytes)
      (decodes : decodeSource bytes = .ok source) (tokens : arguments.has .tokens = false)
      (compiles : compile (settings lookup arguments) (Path.ofString operand).text source =
        .ok compiled)
      (writes : tree.write (outputPath arguments operand) compiled.output.bytes = .error trouble) :
      Ends lookup args tree (trouble.failure (outputPath arguments operand).text).exitCode tree
  | written {arguments : Arguments} {operand : String} {bytes : List UInt8} {source : String}
      {compiled : Compiled} {after : Tree} (accepts : Accepts tree args arguments operand bytes)
      (decodes : decodeSource bytes = .ok source) (tokens : arguments.has .tokens = false)
      (compiles : compile (settings lookup arguments) (Path.ofString operand).text source =
        .ok compiled)
      (writes : tree.write (outputPath arguments operand) compiled.output.bytes = .ok after) :
      Ends lookup args tree .success after

theorem undecodable_of_decodeSource {bytes : List UInt8} {failure : Failure}
    (decodes : decodeSource bytes = .error failure) : ∃ fault, failure = .undecodable fault := by
  unfold decodeSource at decodes
  split at decodes
  · cases decodes
  · cases decodes
    exact ⟨_, rfl⟩

section Runs

variable {lookup : String → Option String} {args : List String} {tree : Tree} {arguments : Arguments}
  {operand : String} {bytes : List UInt8} {source : String}

theorem Accepts.input (accepts : Accepts tree args arguments operand bytes) :
    (Invocation.ofArguments arguments).input = Path.ofString operand := by
  show Path.ofString (arguments.operands.head?.getD "") = _
  rw [accepts.operands]
  rfl

theorem Accepts.target (accepts : Accepts tree args arguments operand bytes) :
    (Invocation.ofArguments arguments).target = outputPath arguments operand := by
  rw [Invocation.target, accepts.input, outputPath, Invocation.ofArguments]
  cases arguments.value? .output <;> rfl

/-- What is done for arguments that ask for work. -/
def perform (lookup : String → Option String) (arguments : Arguments) : StateM Tree Report := do
  match ← invocation arguments with
  | .error fault => return .ofUsage fault
  | .ok invocation => execute (.ofEnvironment lookup) invocation

theorem runOn_of_split (split : Arguments.split args = .ok arguments) (asks : arguments.AsksForWork) :
    runOn lookup args tree = perform lookup arguments tree := by
  simp only [runOn, runCommand, split, request?_eq_none_iff.2 asks]
  rfl

/-- A command line that is accepted comes to what the work on its file comes to. -/
theorem runOn_of_accepts (accepts : Accepts tree args arguments operand bytes) :
    runOn lookup args tree =
      (execute (.ofEnvironment lookup) (.ofArguments arguments) : StateM Tree Report) tree := by
  rw [runOn_of_split accepts.split accepts.asks]
  obtain ⟨answer, checked, ⟨-, rfl⟩ | ⟨unfit, -⟩⟩ := run_invocation tree arguments
  · exact run_bind checked
  · exact absurd ⟨operand, bytes, accepts.toFits⟩ unfit

theorem run_readSource (accepts : Accepts tree args arguments operand bytes) :
    (readSource (Invocation.ofArguments arguments).input : StateM Tree _) tree =
      (decodeSource bytes, tree) := by
  rw [accepts.input]
  exact run_bind (run_read (Tree.read_ofString accepts.found))

/-- Work on a source that was read. -/
theorem runOn_of_decodes (accepts : Accepts tree args arguments operand bytes)
    (decodes : decodeSource bytes = .ok source) :
    runOn lookup args tree =
      (if arguments.has .tokens then
        return listTokens (arguments.has .verbose) (Path.ofString operand).text source
      else
        compileTo (arguments.has .verbose) (settings lookup arguments) (Path.ofString operand)
          (outputPath arguments operand) source : StateM Tree Report) tree := by
  have reads := run_readSource accepts
  rw [decodes] at reads
  rw [runOn_of_accepts accepts, execute, run_bind reads]
  simp only [accepts.target, accepts.input]
  rfl

/-- A run comes to what the cases say. -/
theorem Ends.run {code : ExitCode} {after : Tree} (ends : Ends lookup args tree code after) :
    ((runOn lookup args tree).1.exitCode, (runOn lookup args tree).2) = (code, after) := by
  cases ends with
  | misused split =>
    simp only [runOn, runCommand, split]
    rfl
  | told split asks =>
    obtain ⟨text, asked⟩ := Option.ne_none_iff_exists'.1 (mt request?_eq_none_iff.1 asks)
    simp only [runOn, runCommand, split, asked]
    rfl
  | refused split asks unfit =>
    obtain ⟨answer, checked, ⟨fits, -⟩ | ⟨-, fault, rfl⟩⟩ := run_invocation tree _
    · exact absurd fits unfit
    · rw [runOn_of_split split asks, perform, run_bind checked]
      rfl
  | undecoded accepts decodes =>
    have reads := run_readSource accepts
    rw [decodes] at reads
    rw [runOn_of_accepts accepts, execute, run_bind reads]
    obtain ⟨fault, rfl⟩ := undecodable_of_decodeSource decodes
    rfl
  | unscanned accepts decodes tokens scans =>
    rw [runOn_of_decodes accepts decodes, if_pos tokens, listTokens, scans]
    rfl
  | listed accepts decodes tokens scans =>
    rw [runOn_of_decodes accepts decodes, if_pos tokens, listTokens, scans]
    rfl
  | uncompiled accepts decodes tokens compiles =>
    rw [compile] at compiles
    rw [runOn_of_decodes accepts decodes, if_neg (by simp [tokens]), compileTo, compiles]
    rfl
  | unwritten accepts decodes tokens compiles writes =>
    rw [compile] at compiles
    rw [runOn_of_decodes accepts decodes, if_neg (by simp [tokens]), compileTo, compiles]
    dsimp only
    rw [run_bind (run_write_error writes)]
    rfl
  | written accepts decodes tokens compiles writes =>
    rw [compile] at compiles
    rw [runOn_of_decodes accepts decodes, if_neg (by simp [tokens]), compileTo, compiles]
    dsimp only
    rw [run_bind (run_write_ok writes)]
    rfl

/-- The cases leave no run out. -/
theorem exists_ends (lookup : String → Option String) (args : List String) (tree : Tree) :
    ∃ code after, Ends lookup args tree code after := by
  cases split : Arguments.split args with
  | error fault => exact ⟨_, _, .misused split⟩
  | ok arguments =>
    by_cases asks : arguments.AsksForWork
    swap
    · exact ⟨_, _, .told split asks⟩
    by_cases fits : ∃ operand bytes, Fits tree arguments operand bytes
    swap
    · exact ⟨_, _, .refused split asks fits⟩
    obtain ⟨operand, bytes, fits⟩ := fits
    have accepts : Accepts tree args arguments operand bytes := ⟨fits, split, asks⟩
    cases decodes : decodeSource bytes with
    | error failure => exact ⟨_, _, .undecoded accepts decodes⟩
    | ok source =>
      cases tokens : arguments.has .tokens with
      | true =>
        cases scans : (Scanner.start (Path.ofString operand).text source).drain.fault with
        | some fault => exact ⟨_, _, .unscanned accepts decodes tokens scans⟩
        | none => exact ⟨_, _, .listed accepts decodes tokens scans⟩
      | false =>
        cases compiles :
            compile (settings lookup arguments) (Path.ofString operand).text source with
        | error fault => exact ⟨_, _, .uncompiled accepts decodes tokens compiles⟩
        | ok compiled =>
          cases writes : tree.write (outputPath arguments operand) compiled.output.bytes with
          | error trouble => exact ⟨_, _, .unwritten accepts decodes tokens compiles writes⟩
          | ok after => exact ⟨_, _, .written accepts decodes tokens compiles writes⟩

/-- The cases say of every run what it comes to. -/
theorem ends_iff {code : ExitCode} {after : Tree} :
    Ends lookup args tree code after ↔
      (runOn lookup args tree).1.exitCode = code ∧ (runOn lookup args tree).2 = after := by
  constructor
  · intro ends
    exact Prod.mk.inj ends.run
  · rintro ⟨rfl, rfl⟩
    obtain ⟨code, after, ends⟩ := exists_ends lookup args tree
    obtain ⟨same, left⟩ := Prod.mk.inj ends.run
    rw [same, left]
    exact ends

theorem ends_runOn (lookup : String → Option String) (args : List String) (tree : Tree) :
    Ends lookup args tree (runOn lookup args tree).1.exitCode (runOn lookup args tree).2 :=
  ends_iff.2 ⟨rfl, rfl⟩

end Runs

end LineBasic.Command
