import LineBasic.Command.Arguments
import LineBasic.Files.Compile

/-!
# The command

The command compiles one source file and writes the C program next to it or where it is told to, or
lists the tokens of the file. `runCommand` is the whole command over any disk: it ends in a report of
what goes to the two output streams and of the exit code, and writes at most one file.

After splitting, checks come in this order: a request for the version or for help, the values of the
options in the order in which they were first given, the input file, and last the operands beyond it.
-/

namespace LineBasic.Command

set_option autoImplicit false

/-- What a run leaves behind besides a file. -/
structure Report where
  exitCode : ExitCode
  out : String
  err : String
  deriving DecidableEq

/-- A command line that was found good. -/
structure Invocation where
  input : Path
  /-- Where the C program goes, if it was told. -/
  output : Option Path
  precision : Option Int
  lineComments : Bool
  tokens : Bool
  verbose : Bool
  deriving DecidableEq

def Report.ofUsage (fault : UsageFault) : Report := ⟨.invalidArguments, "", fault.errorText⟩

/-! ## Texts -/

def versionText : String := "ttc, version 1.0.0\n"

def helpText : String :=
  "Usage: ttc [OPTIONS] INPUT_FILE\n" ++
  "\n" ++
  "  Compile Teeny Tiny source code to C.\n" ++
  "\n" ++
  "  INPUT_FILE is the Teeny Tiny source file (.teeny) to compile.\n" ++
  "\n" ++
  "  Examples:\n" ++
  "      ttc hello.teeny                 # Outputs hello.c\n" ++
  "      ttc hello.teeny -o out.c        # Specify output file\n" ++
  "      ttc -p 4 hello.teeny            # Print numbers with 4 decimals\n" ++
  "      ttc --tokens hello.teeny        # Dump tokens\n" ++
  "\n" ++
  "  Language:\n" ++
  "      PRINT \"text\" | PRINT expr       INPUT var\n" ++
  "      LET var = expr                  LABEL name / GOTO name\n" ++
  "      IF a < b THEN ... ENDIF         WHILE a < b REPEAT ... ENDWHILE\n" ++
  "\n" ++
  "Options:\n" ++
  "  -o, --output FILE              Output C file (default: input.c)\n" ++
  "  -p, --precision INTEGER RANGE  Decimal places for numeric PRINT (default: 2,\n" ++
  "                                 or $TEENY_PRINT_PRECISION)  [0<=x<=10]\n" ++
  "  --line-comments                Annotate the generated C with /* line N */\n" ++
  "                                 source references\n" ++
  "  --tokens                       Print the token stream and exit (for debugging)\n" ++
  "  -v, --verbose                  Verbose output\n" ++
  "  --version                      Show the version and exit.\n" ++
  "  --help                         Show this message and exit.\n"

/-- The work that a failure interrupts. -/
def work : Option String := some "Compilation"

def asLines (texts : List String) : String := String.join (texts.map (· ++ "\n"))

/-- The account of a verbose run, on the error stream. It is a record, not a message, and keeps the
control sequences of names. -/
def debugText (verbose : Bool) (account : List String) : String :=
  if verbose then asLines (account.map ("DEBUG: " ++ ·)) else ""

def namesText (names : List String) : String :=
  if names.isEmpty then "(none)" else ", ".intercalate names

/-- What a verbose run says of a compiled source that was written to a file. -/
def figures (compiled : Compiled) (output : Path) : List String :=
  [s!"Wrote {compiled.output.bytes.length} bytes to {output.text}",
    s!"Tokenized: {compiled.tokens} tokens",
    s!"Translated: {compiled.statements} statements",
    s!"Variables: {namesText compiled.vars}",
    s!"Labels: {namesText compiled.labels}"]

/-! ## Checking the command line -/

/-- The first request for the version or for help. -/
def request? (arguments : Arguments) : Option String :=
  arguments.occurrences.findSome? fun occurrence =>
    match occurrence.flag with
    | .version => some versionText
    | .help => some helpText
    | _ => none

/-- The precision that a text asks for. -/
def readPrecision (text : String) : Except UsageFault Int :=
  match Text.integer? text with
  | none => .error (.precisionNotInteger text)
  | some value =>
      if Options.allowsPrecision value then .ok value else .error (.precisionOutOfRange value)

variable {m : Type → Type} [Monad m] [MonadDisk m]

/-- What is wrong with the value of an option. -/
def valueFault? (arguments : Arguments) (flag : Flag) : m (Option UsageFault) := do
  match flag, arguments.value? flag with
  | .output, some text =>
      match ← MonadDisk.find text with
      | .ok .directory => return some (.outputIsDirectory text)
      | _ => return none
  | .precision, some text =>
      match readPrecision text with
      | .error fault => return some fault
      | .ok _ => return none
  | _, _ => return none

/-- The first fault among the values of some options. -/
def firstValueFault? (arguments : Arguments) : List Flag → m (Option UsageFault)
  | [] => return none
  | flag :: flags => do
      match ← valueFault? arguments flag with
      | some fault => return some fault
      | none => firstValueFault? arguments flags

/-- What is wrong with the operands: the input file has to be there, and nothing else. -/
def operandFault? (operands : List String) : m (Option UsageFault) := do
  match operands with
  | [] => return some .missingInput
  | text :: extra =>
      match ← MonadDisk.find text with
      | .error _ => return some (.inputNotFound text)
      | .ok .directory => return some (.inputIsDirectory text)
      | .ok .file => return if extra.isEmpty then none else some (.extraOperands extra)

/-- What split arguments ask for, their values taken to be good. -/
def Invocation.ofArguments (arguments : Arguments) : Invocation where
  input := Path.ofString (arguments.operands.head?.getD "")
  output := (arguments.value? .output).map Path.ofString
  precision := (arguments.value? .precision).bind Text.integer?
  lineComments := arguments.has .lineComments
  tokens := arguments.has .tokens
  verbose := arguments.has .verbose

/-- Checks split arguments. -/
def invocation (arguments : Arguments) : m (Except UsageFault Invocation) := do
  match ← firstValueFault? arguments arguments.flags with
  | some fault => return .error fault
  | none =>
      match ← operandFault? arguments.operands with
      | some fault => return .error fault
      | none => return .ok (.ofArguments arguments)

/-! ## Doing the work -/

namespace Invocation

/-- Where the C program goes. -/
def target (invocation : Invocation) : Path :=
  invocation.output.getD (invocation.input.withSuffix ".c")

/-- The options of the run: the command line comes before the environment. -/
def options (invocation : Invocation) (environment : Options) : Options where
  precision := invocation.precision.getD environment.precision
  lineComments := invocation.lineComments || environment.lineComments

end Invocation

/-- The report of a failure, after what was printed before it. -/
def Report.ofFailure (verbose : Bool) (out err : String) (failure : Failure) : Report :=
  ⟨failure.exitCode, out, err ++ failure.errorText work verbose⟩

/-- The tokens of a source, one on a line. Their texts are quoted, so no control sequence is among
them. -/
def listTokens (verbose : Bool) (file source : String) : Report :=
  let listing := (Scanner.start file source).drain
  let out := asLines (listing.tokens.map Token.listing)
  match listing.fault with
  | some fault => .ofFailure verbose out "" (.diagnosed fault)
  | none =>
      ⟨.success, out,
        debugText verbose [s!"Lexed {listing.scanner.count} tokens from {file}"]⟩

/-- Compiles a source and writes the C program. -/
def compileTo (verbose : Bool) (options : Options) (input target : Path) (source : String) :
    m Report := do
  let compilation := run options input.text source
  let account := debugText verbose
    (s!"Compiling {input.text} -> {target.text}" :: compilation.account input.text source)
  match compilation.outcome input.text with
  | .error fault => return .ofFailure verbose "" account (.diagnosed fault)
  | .ok compiled =>
      match ← MonadDisk.write target compiled.output.bytes with
      | .error failure => return .ofFailure verbose "" account failure
      | .ok _ =>
          let said := (if verbose then figures compiled target else [])
            ++ [s!"Compiled {input.text} -> {target.text}"]
          return ⟨.success, Text.removeSequences (asLines said), account⟩

/-- Does what a good command line asks for. -/
def execute (environment : Options) (invocation : Invocation) : m Report := do
  match ← readSource invocation.input with
  | .error failure => return .ofFailure invocation.verbose "" "" failure
  | .ok source =>
      if invocation.tokens then
        return listTokens invocation.verbose invocation.input.text source
      else
        compileTo invocation.verbose (invocation.options environment) invocation.input
          invocation.target source

/-- The command. -/
def runCommand (lookup : String → Option String) (args : List String) : m Report := do
  match Arguments.split args with
  | .error fault => return .ofUsage fault
  | .ok arguments =>
      match request? arguments with
      | some text => return ⟨.success, text, ""⟩
      | none =>
          match ← invocation arguments with
          | .error fault => return .ofUsage fault
          | .ok invocation => execute (.ofEnvironment lookup) invocation

end LineBasic.Command
