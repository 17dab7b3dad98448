import LineBasic.Text.ControlSequence
import LineBasic.Text.Quoted
import LineBasic.Text.Resemblance

/-!
# Arguments of the command

Arguments are split into options with their values and operands, which may stand in any order. A short
option is a letter after a dash; several may share a dash, and the value of one is the rest of its
argument or the next argument. A long option is a word after two dashes; its value follows an equals
sign or is the next argument. After `--` all arguments are operands, and a dash alone is one too. For
a long option that is not known the closest known ones are suggested.

Splitting looks at nothing but the arguments. Its faults come before every other, in the order of the
command line.
-/

namespace LineBasic.Command

set_option autoImplicit false

inductive Flag where
  | output
  | precision
  | lineComments
  | tokens
  | verbose
  | version
  | help
  deriving DecidableEq

namespace Flag

def takesValue : Flag → Bool
  | .output | .precision => true
  | .lineComments | .tokens | .verbose | .version | .help => false

def all : List Flag :=
  [.output, .precision, .lineComments, .tokens, .verbose, .version, .help]

def long : Flag → String
  | .output => "--output"
  | .precision => "--precision"
  | .lineComments => "--line-comments"
  | .tokens => "--tokens"
  | .verbose => "--verbose"
  | .version => "--version"
  | .help => "--help"

def ofLong? (name : String) : Option Flag := all.find? (·.long = name)

def ofShort? : Char → Option Flag
  | 'o' => some .output
  | 'p' => some .precision
  | 'v' => some .verbose
  | _ => none

end Flag

/-- What is wrong with a command line. -/
inductive UsageFault where
  /-- An option that is not known, and the options it may stand for. -/
  | noSuchOption (name : String) (similar : List String)
  | missingValue (name : String)
  | unwantedValue (name : String)
  | outputIsDirectory (text : String)
  | precisionNotInteger (text : String)
  | precisionOutOfRange (value : Int)
  | missingInput
  | inputNotFound (text : String)
  | inputIsDirectory (text : String)
  | extraOperands (operands : List String)
  deriving DecidableEq

namespace UsageFault

/-- The question after an unknown option. -/
def suggestion : List String → String
  | [] => ""
  | [name] => s!" Did you mean {Text.quoted name}?"
  | names => " (Did you mean one of: " ++ ", ".intercalate (names.map Text.quoted) ++ "?)"

def message : UsageFault → String
  | .noSuchOption name similar => s!"No such option {Text.quoted name}.{suggestion similar}"
  | .missingValue name => s!"Option {Text.quoted name} requires an argument."
  | .unwantedValue name => s!"Option {Text.quoted name} does not take a value."
  | .outputIsDirectory text =>
      s!"Invalid value for '-o' / '--output': File {Text.quoted text} is a directory."
  | .precisionNotInteger text =>
      s!"Invalid value for '-p' / '--precision': {Text.quoted text} is not a valid integer range."
  | .precisionOutOfRange value =>
      s!"Invalid value for '-p' / '--precision': {value} is not in the range 0<=x<=10."
  | .missingInput => "Missing argument 'INPUT_FILE'."
  | .inputNotFound text =>
      s!"Invalid value for 'INPUT_FILE': File {Text.quoted text} does not exist."
  | .inputIsDirectory text =>
      s!"Invalid value for 'INPUT_FILE': File {Text.quoted text} is a directory."
  | .extraOperands [operand] => s!"Got unexpected extra argument ({operand})"
  | .extraOperands operands => "Got unexpected extra arguments (" ++ " ".intercalate operands ++ ")"

/-- A fault in the value of an option, found while splitting, is told without the usage. -/
def showsUsage : UsageFault → Bool
  | .missingValue _ | .unwantedValue _ => false
  | _ => true

def usage : String := "Usage: ttc [OPTIONS] INPUT_FILE\nTry 'ttc --help' for help.\n\n"

def errorText (fault : UsageFault) : String :=
  (if fault.showsUsage then usage else "")
    ++ Text.removeSequences ("Error: " ++ fault.message ++ "\n")

end UsageFault

/-! ## Splitting -/

/-- An option as it occurred, with its value if it takes one. -/
structure Occurrence where
  flag : Flag
  value : String
  deriving DecidableEq

/-- What one argument says: options, and perhaps one more that still needs its value. -/
structure Reading where
  occurrences : List Occurrence
  pending : Option (Flag × String)

def Reading.add (reading : Reading) (flag : Flag) : Reading :=
  { reading with occurrences := ⟨flag, ""⟩ :: reading.occurrences }

/-- The letters after one dash. -/
def readLetters : List Char → Except UsageFault Reading
  | [] => .ok ⟨[], none⟩
  | letter :: letters =>
      let name := String.ofList ['-', letter]
      match Flag.ofShort? letter with
      | none => .error (.noSuchOption name [])
      | some flag =>
          if flag.takesValue then
            if letters.isEmpty then .ok ⟨[], some (flag, name)⟩
            else .ok ⟨[⟨flag, String.ofList letters⟩], none⟩
          else (readLetters letters).map (·.add flag)

/-- The name of a long option and the value after its equals sign. -/
def nameAndValue (arg : List Char) : String × Option String :=
  match arg.dropWhile (· ≠ '=') with
  | [] => (String.ofList arg, none)
  | _ :: value => (String.ofList (arg.takeWhile (· ≠ '=')), some (String.ofList value))

/-- What an argument that begins with a dash says. -/
def readOption (arg : List Char) : Except UsageFault Reading :=
  let (name, value?) := nameAndValue arg
  match Flag.ofLong? name, value? with
  | some flag, none => .ok (if flag.takesValue then ⟨[], some (flag, name)⟩ else ⟨[⟨flag, ""⟩], none⟩)
  | some flag, some value =>
      if flag.takesValue then .ok ⟨[⟨flag, value⟩], none⟩ else .error (.unwantedValue name)
  | none, _ =>
      match arg with
      | '-' :: '-' :: _ =>
          .error (.noSuchOption name (Text.closest name (Flag.all.map Flag.long)))
      | _ => readLetters arg.tail

/-- A command line, split. -/
structure Arguments where
  occurrences : List Occurrence
  operands : List String
  deriving DecidableEq

namespace Arguments

def isOption (arg : String) : Bool :=
  match arg.toList with
  | '-' :: _ :: _ => true
  | _ => false

def after (found : List Occurrence) (arguments : Arguments) : Arguments :=
  { arguments with occurrences := found ++ arguments.occurrences }

def split : List String → Except UsageFault Arguments
  | [] => .ok ⟨[], []⟩
  | arg :: rest =>
      if arg = "--" then .ok ⟨[], rest⟩
      else if isOption arg then
        match readOption arg.toList with
        | .error fault => .error fault
        | .ok ⟨found, none⟩ => (split rest).map (after found)
        | .ok ⟨found, some (flag, name)⟩ =>
            match rest with
            | [] => .error (.missingValue name)
            | value :: rest => (split rest).map (after (found ++ [⟨flag, value⟩]))
      else (split rest).map fun arguments => { arguments with operands := arg :: arguments.operands }

/-- The options given, each once, in the order of their first occurrence. -/
def flags (arguments : Arguments) : List Flag := (arguments.occurrences.map (·.flag)).eraseDups

def has (arguments : Arguments) (flag : Flag) : Bool := arguments.flags.contains flag

/-- The value of an option; of several the last one counts. -/
def value? (arguments : Arguments) (flag : Flag) : Option String :=
  (arguments.occurrences.reverse.find? (·.flag = flag)).map (·.value)

end Arguments

end LineBasic.Command
