import LineBasic.Proofs.Command.Outcome

/-!
# What a run does to files

A run writes one file at most, and only at its very end. So a run that fails leaves the tree as it was, a run
that lists tokens does too, and a run that compiles changes the output file and nothing else
(`file_effects`).

What a run works with is said here without the code that finds it. `WorksOn` says for which source the bytes of
the input stand. `Chosen` gives the order in which the command line, the environment and the standard count, and
what the texts of their settings say. `OutputAt` gives the path of the output file. Each of the three is proved
to fit what the run uses.
-/

namespace LineBasic.Command

set_option autoImplicit false

/-! ## Options -/

/-- The precision of a run: the given one, else that of the environment if it is a number within the bounds,
else two. -/
inductive ChosenPrecision (lookup : String → Option String) (arguments : Arguments) : Int → Prop
  | given {text : String} {value : Int} (given : arguments.value? .precision = some text)
      (reads : Text.WritesInteger text value) : ChosenPrecision lookup arguments value
  | environment {text : String} {value : Int} (silent : arguments.value? .precision = none)
      (set : lookup "TEENY_PRINT_PRECISION" = some text) (reads : Text.WritesInteger text value)
      (least : 0 ≤ value) (most : value ≤ 10) : ChosenPrecision lookup arguments value
  | standard (silent : arguments.value? .precision = none)
      (unset : ∀ text value, lookup "TEENY_PRINT_PRECISION" = some text →
        Text.WritesInteger text value → ¬ (0 ≤ value ∧ value ≤ 10)) :
      ChosenPrecision lookup arguments 2

/-- The options of a run. A switch of the environment counts as much as the one of the command line. -/
structure Chosen (lookup : String → Option String) (arguments : Arguments) (options : Options) : Prop where
  precision : ChosenPrecision lookup arguments options.precision
  lineComments : options.lineComments = true ↔
    arguments.has .lineComments = true ∨
      ∃ text, lookup "TEENY_LINE_COMMENTS" = some text ∧ Options.IsTruthy text

section Options

variable {lookup : String → Option String} {tree : Tree} {arguments : Arguments} {options : Options}

theorem precision_ofEnvironment (lookup : String → Option String) :
    (Options.ofEnvironment lookup).precision =
      ((lookup "TEENY_PRINT_PRECISION").bind Options.precision?).getD 2 := rfl

theorem precision_settings (lookup : String → Option String) (arguments : Arguments) :
    (settings lookup arguments).precision =
      ((arguments.value? .precision).bind Text.integer?).getD
        (Options.ofEnvironment lookup).precision := rfl

theorem lineComments_settings (lookup : String → Option String) (arguments : Arguments) :
    (settings lookup arguments).lineComments =
      (arguments.has .lineComments ||
        ((lookup "TEENY_LINE_COMMENTS").map Options.isOn).getD false) := rfl

theorem ChosenPrecision.eq {value : Int} (chosen : ChosenPrecision lookup arguments value) :
    value = (settings lookup arguments).precision := by
  cases chosen with
  | given given reads =>
    rw [precision_settings, given, Option.bind_some, Text.integer?_eq_some_iff.2 reads, Option.getD_some]
  | environment silent set reads least most =>
    have bounded := Options.precision?_eq_some_iff.2 ⟨reads, least, most⟩
    rw [precision_settings, silent, precision_ofEnvironment, set, Option.bind_some, bounded]
    rfl
  | standard silent unset =>
    have none : (lookup "TEENY_PRINT_PRECISION").bind Options.precision? = none := by
      rw [Option.bind_eq_none_iff]
      intro text set
      rw [Option.eq_none_iff_forall_ne_some]
      intro value bounded
      obtain ⟨reads, within⟩ := Options.precision?_eq_some_iff.1 bounded
      exact unset text value set reads within
    rw [precision_settings, silent, precision_ofEnvironment, none]
    rfl

theorem exists_chosenPrecision (lookup : String → Option String)
    (good : ValueGood tree arguments .precision) : ∃ value, ChosenPrecision lookup arguments value := by
  cases given : arguments.value? .precision with
  | some text =>
    obtain ⟨value, reads, -⟩ := good text given
    exact ⟨value, .given given reads⟩
  | none =>
    by_cases set : ∃ text value, lookup "TEENY_PRINT_PRECISION" = some text ∧
        Text.WritesInteger text value ∧ 0 ≤ value ∧ value ≤ 10
    · obtain ⟨text, value, set, reads, least, most⟩ := set
      exact ⟨value, .environment given set reads least most⟩
    · refine ⟨2, .standard given fun text value found reads within => set ?_⟩
      exact ⟨text, value, found, reads, within⟩

/-- The options that are chosen are those under which a source is compiled. -/
theorem chosen_iff (good : ValueGood tree arguments .precision) :
    Chosen lookup arguments options ↔ options = settings lookup arguments := by
  have switch : (settings lookup arguments).lineComments = true ↔
      arguments.has .lineComments = true ∨
        ∃ text, lookup "TEENY_LINE_COMMENTS" = some text ∧ Options.IsTruthy text := by
    rw [lineComments_settings, Bool.or_eq_true]
    cases lookup "TEENY_LINE_COMMENTS" <;> simp [Options.isOn_iff]
  constructor
  · intro chosen
    obtain ⟨precision, lineComments⟩ := options
    have first : precision = _ := chosen.precision.eq
    have second : lineComments = (settings lookup arguments).lineComments :=
      Bool.eq_iff_iff.2 (chosen.lineComments.trans switch.symm)
    rw [first, second]
  · rintro rfl
    obtain ⟨value, chosen⟩ := exists_chosenPrecision lookup good
    refine ⟨?_, switch⟩
    rw [← chosen.eq]
    exact chosen

/-- However it is chosen, a precision is within the bounds. -/
theorem ChosenPrecision.bounds {value : Int} (good : ValueGood tree arguments .precision)
    (chosen : ChosenPrecision lookup arguments value) : 0 ≤ value ∧ value ≤ 10 := by
  cases chosen with
  | given given reads =>
    obtain ⟨other, again, least, most⟩ := good _ given
    have same := (Text.integer?_eq_some_iff.2 reads).symm.trans (Text.integer?_eq_some_iff.2 again)
    obtain rfl := Option.some.inj same
    exact ⟨least, most⟩
  | environment _ _ _ least most => exact ⟨least, most⟩
  | standard => decide

end Options

/-! ## Files -/

/-- A command line leads to work on the source for which the bytes of a file stand. -/
def WorksOn (tree : Tree) (args : List String) (arguments : Arguments) (operand source : String) : Prop :=
  ∃ bytes, Accepts tree args arguments operand bytes ∧ StandsFor bytes source

/-- The path of the output file: the one that is named, or that of the C file next to the input. -/
inductive OutputAt (arguments : Arguments) (operand : String) : Path → Prop
  | named {text : String} (given : arguments.value? .output = some text) :
      OutputAt arguments operand (Path.ofString text)
  | beside {path : Path} (unnamed : arguments.value? .output = none)
      (next : (Path.ofString operand).NextTo path) : OutputAt arguments operand path

/-- A command line that asks for a C program. -/
structure AsksToCompile (args : List String) (arguments : Arguments) : Prop where
  split : Arguments.split args = .ok arguments
  asks : arguments.AsksForWork
  ordinary : arguments.has .tokens = false

/-- A file can be written: the path leads to a file or to a free place in a directory. -/
def Writable (tree : Tree) (path : Path) : Prop :=
  ∃ position, tree.locate path.text = .ok position ∧ tree.entry? position ≠ some .directory

section Effects

variable {lookup : String → Option String} {args : List String} {tree after : Tree} {code : ExitCode}
  {arguments : Arguments} {operand source : String} {options : Options} {compiled : Compiled}

/-- Of a file there is a path for the output, and it is the one where the C program goes. -/
theorem Accepts.outputAt_iff {bytes : List UInt8} (accepts : Accepts tree args arguments operand bytes)
    {path : Path} : OutputAt arguments operand path ↔ path = outputPath arguments operand := by
  obtain ⟨position, led, held⟩ := Tree.find_ok_iff.1 accepts.found
  obtain ⟨front, name, -, parts, -⟩ :=
    Tree.exists_parent (Path.isNormal_ofString operand) (Tree.locate_ofString led) held
  rw [outputPath]
  constructor
  · rintro (given | ⟨unnamed, next⟩)
    · rw [given]
    · rw [unnamed]
      exact (Path.nextTo_iff parts).1 next
  · rintro rfl
    cases given : arguments.value? .output with
    | some text => exact .named given
    | none => exact .beside given ((Path.nextTo_iff parts).2 rfl)

theorem Ends.here (ends : Ends lookup args tree code after) : after.here = tree.here := by
  cases ends with
  | written _ _ _ _ writes =>
    obtain ⟨position, -, -, rfl⟩ := Tree.write_ok_iff.1 writes
    rfl
  | _ => rfl

/-- Only the file at the output path changes. -/
theorem Ends.locate_of_changed (ends : Ends lookup args tree code after) {position : Position}
    (changed : after.entry? position ≠ tree.entry? position) :
    ∃ arguments operand path, Arguments.split args = .ok arguments ∧ arguments.operands = [operand] ∧
      OutputAt arguments operand path ∧ tree.locate path.text = .ok position := by
  cases ends with
  | written accepts _ _ _ writes =>
    exact ⟨_, _, _, accepts.split, accepts.operands, accepts.outputAt_iff.2 rfl,
      Tree.entry?_write writes changed⟩
  | _ => exact absurd rfl changed

/-- Nothing is written by a run that was not asked to compile, or failed. -/
theorem Ends.tree_of_idle (ends : Ends lookup args tree code after)
    (idle : ∀ arguments, AsksToCompile args arguments → code ≠ .success) : after = tree := by
  cases ends with
  | written accepts _ ordinary _ _ =>
    exact absurd rfl (idle _ ⟨accepts.split, accepts.asks, ordinary⟩)
  | _ => rfl

/-- A run that compiles and succeeds has compiled the source under the chosen options and written the
result. -/
theorem Ends.written_of_success (ends : Ends lookup args tree .success after)
    (asked : AsksToCompile args arguments) :
    ∃ operand source compiled, WorksOn tree args arguments operand source ∧
      compile (settings lookup arguments) (Path.ofString operand).text source = .ok compiled ∧
      tree.write (outputPath arguments operand) compiled.output.bytes = .ok after := by
  obtain ⟨split, asks, ordinary⟩ := asked
  generalize ended : ExitCode.success = code at ends
  cases ends with
  | misused | refused | undecoded | unscanned | uncompiled => cases ended
  | told split' asks' =>
    rw [split'] at split
    cases split
    exact absurd asks asks'
  | listed accepts _ tokens _ =>
    rw [accepts.split] at split
    cases split
    rw [tokens] at ordinary
    cases ordinary
  | unwritten => rcases exitCode_failure_cases _ _ with ⟨code, -⟩ | ⟨code, -⟩ <;> cases ended.trans code
  | written accepts decodes _ compiles writes =>
    have same := accepts.split
    rw [split] at same
    cases same
    exact ⟨_, _, _, ⟨_, accepts, decodeSource_eq_ok_iff.1 decodes⟩, compiles, writes⟩

/-- What keeps a source from being translated, or from being listed. -/
def Faulty (lookup : String → Option String) (arguments : Arguments) (operand source : String) : Prop :=
  if arguments.has .tokens = true then
    ∃ fault, (Scanner.start (Path.ofString operand).text source).drain.fault = some fault
  else
    ∃ options fault, Chosen lookup arguments options ∧
      compile options (Path.ofString operand).text source = .error fault

/-- The source is to blame exactly if it was read and is at fault. -/
theorem ends_buildError_iff :
    (∃ after, Ends lookup args tree .buildError after) ↔
      ∃ arguments operand source, WorksOn tree args arguments operand source ∧
        Faulty lookup arguments operand source := by
  constructor
  · rintro ⟨after, ends⟩
    generalize ended : ExitCode.buildError = code at ends
    cases ends with
    | misused | told | refused | undecoded | listed | written => cases ended
    | unscanned accepts decodes tokens scans =>
      refine ⟨_, _, _, ⟨_, accepts, decodeSource_eq_ok_iff.1 decodes⟩, ?_⟩
      rw [Faulty, if_pos tokens]
      exact ⟨_, scans⟩
    | uncompiled accepts decodes tokens compiles =>
      refine ⟨_, _, _, ⟨_, accepts, decodeSource_eq_ok_iff.1 decodes⟩, ?_⟩
      rw [Faulty, if_neg (by simp [tokens])]
      exact ⟨_, _, (chosen_iff accepts.precision).2 rfl, compiles⟩
    | unwritten => rcases exitCode_failure_cases _ _ with ⟨code, -⟩ | ⟨code, -⟩ <;> cases ended.trans code
  · rintro ⟨arguments, operand, source, ⟨bytes, accepts, stands⟩, faulty⟩
    have decodes := decodeSource_eq_ok_iff.2 stands
    by_cases tokens : arguments.has .tokens = true
    · rw [Faulty, if_pos tokens] at faulty
      obtain ⟨fault, scans⟩ := faulty
      exact ⟨tree, .unscanned accepts decodes tokens scans⟩
    · rw [Faulty, if_neg tokens] at faulty
      obtain ⟨options, fault, chosen, compiles⟩ := faulty
      rw [(chosen_iff accepts.precision).1 chosen] at compiles
      exact ⟨tree, .uncompiled accepts decodes (Bool.eq_false_iff.2 tokens) compiles⟩

end Effects

/-- A run changes the output file at most, and nothing if it fails or lists tokens. A run that compiles
succeeds exactly if the source is translated under the chosen options and the output file can be written,
and then that file holds the translation. The source is blamed exactly if it could be read and is at
fault; an input that is not the bytes of a text is a wrong argument. -/
theorem file_effects (lookup : String → Option String) (args : List String) (tree : Tree) :
    let code := (runOn lookup args tree).1.exitCode
    let after := (runOn lookup args tree).2
    after.here = tree.here ∧
    (∀ position, after.entry? position ≠ tree.entry? position →
      ∃ arguments operand path, Arguments.split args = .ok arguments ∧ arguments.operands = [operand] ∧
        OutputAt arguments operand path ∧ tree.locate path.text = .ok position) ∧
    (code ≠ .success → after = tree) ∧
    (∀ arguments, Arguments.split args = .ok arguments → arguments.has .tokens = true → after = tree) ∧
    (∀ arguments, AsksToCompile args arguments →
      (code = .success ↔
        ∃ operand source options path compiled, WorksOn tree args arguments operand source ∧
          Chosen lookup arguments options ∧ 0 ≤ options.precision ∧ options.precision ≤ 10 ∧
          compile options (Path.ofString operand).text source = .ok compiled ∧
          OutputAt arguments operand path ∧ Writable tree path ∧
          after.read path = .ok (Text.Utf8.encode compiled.output.text))) ∧
    (code = .buildError ↔
      ∃ arguments operand source, WorksOn tree args arguments operand source ∧
        Faulty lookup arguments operand source) ∧
    (∀ arguments operand bytes, Accepts tree args arguments operand bytes →
      (∀ text, bytes ≠ Text.Utf8.encode text) → code = .invalidArguments) := by
  intro code after
  have ends : Ends lookup args tree code after := ends_runOn lookup args tree
  refine ⟨ends.here, fun position => ends.locate_of_changed, ?_, ?_, ?_, ?_, ?_⟩
  · intro failed
    exact ends.tree_of_idle fun _ _ => failed
  · intro arguments split tokens
    refine ends.tree_of_idle fun others asked => ?_
    rw [Except.ok.inj (split.symm.trans asked.split), asked.ordinary] at tokens
    cases tokens
  · intro arguments asked
    constructor
    · intro success
      rw [success] at ends
      obtain ⟨operand, source, compiled, ⟨bytes, accepts, stands⟩, compiles, writes⟩ :=
        ends.written_of_success asked
      have chosen := (chosen_iff accepts.precision).2 (Eq.refl (settings lookup arguments))
      obtain ⟨least, most⟩ := chosen.precision.bounds accepts.precision
      obtain ⟨position, led, free, -⟩ := Tree.write_ok_iff.1 writes
      exact ⟨operand, source, _, _, compiled, ⟨bytes, accepts, stands⟩, chosen, least, most, compiles,
        accepts.outputAt_iff.2 rfl, ⟨position, led, free⟩, Tree.read_write writes⟩
    · rintro ⟨operand, source, options, path, compiled, ⟨bytes, accepts, stands⟩, chosen, -, -, compiles,
        goes, ⟨position, led, free⟩, -⟩
      obtain rfl := accepts.outputAt_iff.1 goes
      rw [(chosen_iff accepts.precision).1 chosen] at compiles
      have writes := Tree.write_ok_iff.2
        ⟨position, led, free, Eq.refl (tree.put position (.file compiled.output.bytes))⟩
      exact (ends_iff.1
        (.written accepts (decodeSource_eq_ok_iff.2 stands) asked.ordinary compiles writes)).1
  · rw [← ends_buildError_iff]
    constructor
    · intro blamed
      rw [blamed] at ends
      exact ⟨after, ends⟩
    · rintro ⟨left, blamed⟩
      exact (ends_iff.1 blamed).1
  · intro arguments operand bytes accepts foreign
    obtain ⟨failure, decodes⟩ := decodeSource_eq_error_iff.2 foreign
    exact (ends_iff.1 (.undecoded accepts decodes)).1

end LineBasic.Command
