import LineBasic.Proofs.Command.Effects
import LineBasic.Proofs.Translation.Program

/-!
# Whom the exit code blames

The exit code says whose fault a failure was. An input that is no file is the user's, and so is an output that
is named and is a directory, or a path for the C program that is missing a directory or leads to one. But an
output path that leads through a file, or has a name that is too long, passes the checks of the command line and
fails only when the C program is written: such a run ends as if the program itself had failed, and no other one
does (`internalError_iff_obstructed`).

A null character ends an argument before the command sees it, so arguments are taken here to have none. No path
that is made of them has one then (`null_not_mem_outputPath`).
-/

namespace LineBasic

set_option autoImplicit false

/-- What keeps a path from leading anywhere, other than a missing directory: it is too long, leads through a
file, or has a part that is too long. -/
inductive Tree.Obstructed (tree : Tree) (path : Path) : Prop
  | long (bytes : 4095 < path.text.utf8ByteSize)
  | throughFile {front back : List String} {piece : String} {position : Position} {bytes : List UInt8}
      (parts : path.parts = front ++ piece :: back)
      (led : tree.follow (tree.base path.root) front = .ok position)
      (held : tree.entry? position = some (.file bytes))
  | longPart {front back : List String} {piece : String} {position : Position}
      (parts : path.parts = front ++ piece :: back)
      (led : tree.follow (tree.base path.root) front = .ok position)
      (held : tree.entry? position = some .directory) (bytes : 255 < piece.utf8ByteSize)

section Obstructed

variable {tree : Tree} {path : Path}

theorem Tree.locate_of_long (normal : path.IsNormal) (plain : '\x00' ∉ path.text.toList)
    (long : 4095 < path.text.utf8ByteSize) : tree.locate path.text = .error .nameTooLong := by
  have clear : ¬ path.text.contains '\x00' = true := by simpa [String.contains_char_eq] using plain
  rw [locate, if_neg normal.text_ne_empty, if_neg clear, maxPathBytes, if_pos long]

/-- A path is obstructed exactly if following it meets a trouble other than a missing directory. -/
theorem Tree.obstructed_iff (normal : path.IsNormal) (plain : '\x00' ∉ path.text.toList) :
    tree.Obstructed path ↔
      ∃ trouble, tree.locate path.text = .error trouble ∧
        (trouble = .notDirectory ∨ trouble = .nameTooLong ∨ trouble = .nullInName) := by
  by_cases long : 4095 < path.text.utf8ByteSize
  · exact iff_of_true (.long long) ⟨_, locate_of_long normal plain long, .inr (.inl rfl)⟩
  rw [locate_text normal ⟨normal.text_ne_empty, plain, Nat.not_lt.1 long⟩]
  constructor
  · intro obstructed
    cases obstructed with
    | long bytes => exact absurd bytes long
    | throughFile parts led held =>
      refine ⟨.notDirectory, follow_error_iff.2 ⟨_, _, _, _, parts, led, ?_⟩, .inl rfl⟩
      exact step_error_iff.2 (.inr (.inl ⟨⟨_, held⟩, rfl⟩))
    | @longPart front back piece _ parts led held bytes =>
      have moves := normal.moves piece (by simp [parts])
      have other : piece ≠ ".." := by
        rintro rfl
        exact absurd bytes (by decide)
      refine ⟨.nameTooLong, follow_error_iff.2 ⟨_, _, _, _, parts, led, ?_⟩, .inr (.inl rfl)⟩
      exact step_error_iff.2 (.inr (.inr ⟨held, moves, other, bytes, rfl⟩))
  · rintro ⟨trouble, failed, kinds⟩
    obtain ⟨front, piece, back, position, parts, led, stops⟩ := follow_error_iff.1 failed
    rcases step_error_iff.1 stops with ⟨-, rfl⟩ | ⟨⟨bytes, held⟩, -⟩ | ⟨held, -, -, bytes, -⟩
    · simp at kinds
    · exact .throughFile parts led held
    · exact .longPart parts led held bytes

end Obstructed

namespace Command

/-! ## The characters of arguments -/

section Letters

variable {args : List String} {arguments : Arguments} {c : Char}

theorem exists_ok_of_map {ε α β : Type} {f : α → β} {answer : Except ε α} {b : β}
    (ok : answer.map f = .ok b) : ∃ a, answer = .ok a ∧ b = f a := by
  cases answer with
  | error fault => cases ok
  | ok a =>
    cases ok
    exact ⟨a, rfl, rfl⟩

theorem not_mem_of_readLetters {letters : List Char} {reading : Reading} (absent : c ∉ letters)
    (read : readLetters letters = .ok reading) :
    ∀ occurrence ∈ reading.occurrences, c ∉ occurrence.value.toList := by
  induction letters generalizing reading with
  | nil =>
    cases read
    simp
  | cons letter letters ih =>
    have later : c ∉ letters := mt (List.mem_cons_of_mem _) absent
    rw [readLetters] at read
    split at read
    · cases read
    split at read
    · split at read
      · cases read
        simp
      · cases read
        simpa using later
    · obtain ⟨others, rest, rfl⟩ := exists_ok_of_map read
      exact List.forall_mem_cons.2 ⟨by simp, ih later rest⟩

theorem not_mem_of_nameAndValue {arg : List Char} (absent : c ∉ arg) :
    ∀ value ∈ (nameAndValue arg).2, c ∉ value.toList := by
  unfold nameAndValue
  split
  · simp
  · rename_i mark rest behind
    have suffix : mark :: rest <:+ arg := behind ▸ List.dropWhile_suffix _
    rintro _ ⟨⟩ member
    rw [String.toList_ofList] at member
    exact absent (suffix.subset (List.mem_cons_of_mem _ member))

theorem not_mem_of_readOption {arg : List Char} {reading : Reading} (absent : c ∉ arg)
    (read : readOption arg = .ok reading) :
    ∀ occurrence ∈ reading.occurrences, c ∉ occurrence.value.toList := by
  have values := not_mem_of_nameAndValue absent
  unfold readOption at read
  generalize nameAndValue arg = parts at read values
  obtain ⟨name, value?⟩ := parts
  dsimp only at read values
  split at read
  · cases read
    split <;> simp
  · split at read
    · cases read
      exact List.forall_mem_singleton.2 (values _ rfl)
    · cases read
  · split at read
    · cases read
    · exact not_mem_of_readLetters (mt List.mem_of_mem_tail absent) read

/-- A character that is in no argument is in no value of an option. -/
theorem not_mem_of_split (absent : ∀ arg ∈ args, c ∉ arg.toList)
    (split : Arguments.split args = .ok arguments) :
    ∀ occurrence ∈ arguments.occurrences, c ∉ occurrence.value.toList := by
  fun_induction Arguments.split args generalizing arguments with
  | case1 | case2 =>
    cases split
    simp
  | case3 | case5 => cases split
  | case4 arg rest _ _ found read ih =>
    obtain ⟨first, later⟩ := List.forall_mem_cons.1 absent
    obtain ⟨others, rest, rfl⟩ := exists_ok_of_map split
    exact List.forall_mem_append.2 ⟨not_mem_of_readOption first read, ih later rest⟩
  | case6 arg _ _ found flag name read value rest ih =>
    obtain ⟨first, absent⟩ := List.forall_mem_cons.1 absent
    obtain ⟨second, later⟩ := List.forall_mem_cons.1 absent
    obtain ⟨others, rest, rfl⟩ := exists_ok_of_map split
    have early := not_mem_of_readOption first read
    refine List.forall_mem_append.2 ⟨List.forall_mem_append.2 ⟨early, ?_⟩, ih later rest⟩
    exact List.forall_mem_singleton.2 second
  | case7 arg rest _ _ ih =>
    obtain ⟨-, later⟩ := List.forall_mem_cons.1 absent
    obtain ⟨others, rest, rfl⟩ := exists_ok_of_map split
    have kept := ih later rest
    exact kept

theorem not_mem_of_value? (absent : ∀ arg ∈ args, c ∉ arg.toList)
    (split : Arguments.split args = .ok arguments) {flag : Flag} {text : String}
    (given : arguments.value? flag = some text) : c ∉ text.toList := by
  obtain ⟨occurrence, found, rfl⟩ := Option.map_eq_some_iff.1 given
  exact not_mem_of_split absent split occurrence
    (List.mem_reverse.1 (List.mem_of_find?_eq_some found))

/-- The path of the output has no null character if the arguments have none. -/
theorem null_not_mem_outputPath {tree : Tree} {operand : String} {bytes : List UInt8}
    (plain : ∀ arg ∈ args, '\x00' ∉ arg.toList) (accepts : Accepts tree args arguments operand bytes) :
    '\x00' ∉ (outputPath arguments operand).text.toList := by
  have made (text : String) (plain : '\x00' ∉ text.toList) :
      '\x00' ∉ (Path.ofString text).text.toList := by
    by_cases empty : text = ""
    · subst empty
      decide
    · exact fun member => plain ((Path.text_sublist empty).subset member)
  unfold outputPath
  cases given : arguments.value? .output with
  | some text => exact made text (not_mem_of_value? plain accepts.split given)
  | none =>
    obtain ⟨position, led, -⟩ := Tree.find_ok_iff.1 accepts.found
    have source := made operand (Tree.usable_of_locate led).plain
    intro member
    rcases Path.mem_text_withSuffix member with inside | other | other
    · exact source inside
    · cases other
    · cases other

end Letters

/-! ## Blame -/

section Blame

variable {lookup : String → Option String} {args : List String} {tree after : Tree} {code : ExitCode}
  {arguments : Arguments} {operand source : String} {compiled : Compiled}

theorem isNormal_outputPath (arguments : Arguments) (operand : String) :
    (outputPath arguments operand).IsNormal := by
  unfold outputPath
  split
  · exact Path.isNormal_ofString _
  · exact (Path.isNormal_ofString operand).withSuffix

/-- A source was translated under the chosen options, and the C program is to be written. -/
structure Translates (lookup : String → Option String) (args : List String) (tree : Tree)
    (arguments : Arguments) (operand : String) : Prop where
  asked : AsksToCompile args arguments
  compiles : ∃ source options compiled, WorksOn tree args arguments operand source ∧
    Chosen lookup arguments options ∧
    compile options (Path.ofString operand).text source = .ok compiled

/-- A source that is translated stands in a file that was accepted. -/
theorem Translates.accepts (translates : Translates lookup args tree arguments operand) :
    ∃ bytes, Accepts tree args arguments operand bytes := by
  obtain ⟨-, source, options, compiled, ⟨bytes, accepts, -⟩, -⟩ := translates
  exact ⟨bytes, accepts⟩

/-- Trouble with the output path decides the exit code of a run that translated its source. -/
theorem Translates.exitCode (translates : Translates lookup args tree arguments operand)
    {trouble : Trouble} (failed : ∀ bytes,
      tree.write (outputPath arguments operand) bytes = .error trouble) :
    (runOn lookup args tree).1.exitCode =
      (trouble.failure (outputPath arguments operand).text).exitCode := by
  obtain ⟨asked, source, options, compiled, ⟨bytes, accepts, stands⟩, chosen, compiles⟩ := translates
  rw [(chosen_iff accepts.precision).1 chosen] at compiles
  exact (ends_iff.1
    (.unwritten accepts (decodeSource_eq_ok_iff.2 stands) asked.ordinary compiles (failed _))).1

/-- Only trouble with the output path is taken for a fault of the program. -/
theorem Ends.translates_of_internalError (ends : Ends lookup args tree .internalError after) :
    ∃ arguments operand trouble, Translates lookup args tree arguments operand ∧
      tree.locate (outputPath arguments operand).text = .error trouble ∧
      (trouble = .notDirectory ∨ trouble = .nameTooLong ∨ trouble = .nullInName) := by
  generalize ended : ExitCode.internalError = code at ends
  cases ends with
  | misused | told | refused | undecoded | unscanned | listed | uncompiled | written => cases ended
  | @unwritten arguments operand bytes source compiled trouble accepts decodes ordinary compiles writes =>
    have translates : Translates lookup args tree arguments operand :=
      ⟨⟨accepts.split, accepts.asks, ordinary⟩, source, _, compiled,
        ⟨bytes, accepts, decodeSource_eq_ok_iff.1 decodes⟩, (chosen_iff accepts.precision).2 rfl, compiles⟩
    refine ⟨arguments, operand, trouble, translates, ?_⟩
    rcases exitCode_failure_cases trouble (outputPath arguments operand).text with
      ⟨other, -⟩ | ⟨-, kinds⟩
    · cases ended.trans other
    · rcases Tree.write_error_iff.1 writes with failed | ⟨rfl, -⟩
      · exact ⟨failed, kinds⟩
      · simp at kinds

/-- Arguments that do not fit are wrong arguments, if they ask for work. -/
theorem exitCode_of_unfit (split : Arguments.split args = .ok arguments) (asks : arguments.AsksForWork)
    (unfit : ∀ operand bytes, ¬ Fits tree arguments operand bytes) :
    (runOn lookup args tree).1.exitCode = .invalidArguments := by
  refine (ends_iff.1 (.refused split asks ?_)).1
  rintro ⟨operand, bytes, fits⟩
  exact unfit operand bytes fits

end Blame

/-- A run is blamed on the program exactly if a source was translated and the output path is obstructed. In a run
that asks for work, an input that is no file is the user's fault, and so is a named output that is a directory.
Where a source was translated, so is an output path that is missing a directory or leads to one. -/
theorem internalError_iff_obstructed (lookup : String → Option String) {args : List String} (tree : Tree)
    (plain : ∀ arg ∈ args, '\x00' ∉ arg.toList) :
    let code := (runOn lookup args tree).1.exitCode
    (code = .internalError ↔
      ∃ arguments operand path, Translates lookup args tree arguments operand ∧
        OutputAt arguments operand path ∧ tree.Obstructed path) ∧
    (∀ arguments operand, Arguments.split args = .ok arguments → arguments.AsksForWork →
      arguments.operands.head? = some operand → (∀ bytes, tree.find operand ≠ .ok (.file bytes)) →
      code = .invalidArguments) ∧
    (∀ arguments text, Arguments.split args = .ok arguments → arguments.AsksForWork →
      arguments.value? .output = some text → tree.find text = .ok .directory → code = .invalidArguments) ∧
    (∀ arguments operand path, Translates lookup args tree arguments operand →
      OutputAt arguments operand path →
      (tree.locate path.text = .error .missing ∨
        ∃ position, tree.locate path.text = .ok position ∧ tree.entry? position = some .directory) →
      code = .invalidArguments) := by
  intro code
  refine ⟨⟨fun blamed => ?_, ?_⟩, ?_, ?_, ?_⟩
  · have ends := ends_runOn lookup args tree
    rw [show (runOn lookup args tree).1.exitCode = .internalError from blamed] at ends
    obtain ⟨arguments, operand, trouble, translates, failed, kinds⟩ := ends.translates_of_internalError
    obtain ⟨bytes, accepts⟩ := translates.accepts
    refine ⟨arguments, operand, _, translates, accepts.outputAt_iff.2 rfl, ?_⟩
    have clear := null_not_mem_outputPath plain accepts
    exact (Tree.obstructed_iff (isNormal_outputPath _ _) clear).2 ⟨trouble, failed, kinds⟩
  · rintro ⟨arguments, operand, path, translates, goes, obstructed⟩
    obtain ⟨bytes, accepts⟩ := translates.accepts
    obtain rfl := accepts.outputAt_iff.1 goes
    have clear := null_not_mem_outputPath plain accepts
    obtain ⟨trouble, failed, kinds⟩ :=
      (Tree.obstructed_iff (isNormal_outputPath _ _) clear).1 obstructed
    show (runOn lookup args tree).1.exitCode = _
    rw [translates.exitCode fun bytes => Tree.write_error_iff.2 (.inl failed)]
    rcases kinds with rfl | rfl | rfl <;> rfl
  · intro arguments operand split asks first nothing
    refine exitCode_of_unfit split asks fun one bytes fits => ?_
    rw [fits.operands] at first
    cases first
    exact nothing bytes fits.found
  · intro arguments text split asks given directory
    exact exitCode_of_unfit split asks fun operand bytes fits => fits.output text given directory
  · intro arguments operand path translates goes reason
    obtain ⟨bytes, accepts⟩ := translates.accepts
    obtain rfl := accepts.outputAt_iff.1 goes
    rcases reason with missing | ⟨position, led, held⟩
    · exact translates.exitCode fun bytes => Tree.write_error_iff.2 (.inl missing)
    · exact translates.exitCode fun bytes =>
        Tree.write_error_iff.2 (.inr ⟨rfl, position, led, held⟩)

/-- A working directory that holds a source and a file `b`. -/
def fileInTheWay : Tree :=
  ⟨["home"], [(["home", "a.teeny"], .file (Text.Utf8.encode "PRINT 1\n")),
    (["home", "b"], .file (Text.Utf8.encode "x"))]⟩

theorem locate_fileInTheWay : fileInTheWay.locate "b/x.c" = .error .notDirectory := by
  rw [Tree.locate_of_usable ⟨by decide, by decide, by decide⟩]
  rfl

theorem translates_fileInTheWay :
    Translates (fun _ => none) ["a.teeny", "-o", "b/x.c"] fileInTheWay
      ⟨[⟨.output, "b/x.c"⟩], ["a.teeny"]⟩ "a.teeny" := by
  have led : fileInTheWay.locate "a.teeny" = .ok ["home", "a.teeny"] := by
    rw [Tree.locate_of_usable ⟨by decide, by decide, by decide⟩]
    rfl
  have accepts : Accepts fileInTheWay ["a.teeny", "-o", "b/x.c"] ⟨[⟨.output, "b/x.c"⟩], ["a.teeny"]⟩
      "a.teeny" (Text.Utf8.encode "PRINT 1\n") :=
    { output := by
        intro text given
        obtain rfl : "b/x.c" = text := Option.some.inj given
        simp [Tree.find, locate_fileInTheWay]
      precision := fun _ given => by cases given
      operands := rfl
      found := Tree.find_ok_iff.2 ⟨_, led, rfl⟩
      split := by decide +kernel
      asks := ⟨rfl, rfl⟩ }
  have stands : StandsFor (Text.Utf8.encode "PRINT 1\n") "PRINT 1\n" :=
    decodeSource_eq_ok_iff.1 (decodeSource_encode _)
  obtain ⟨compiled, compiles, -⟩ := @compile_ok_of_any
    (settings (fun _ => none) ⟨[⟨.output, "b/x.c"⟩], ["a.teeny"]⟩) (Path.ofString "a.teeny").text
    "PRINT 1\n" (fun _ => true) (by decide +kernel)
  exact ⟨⟨accepts.split, accepts.asks, rfl⟩, _, _, compiled, ⟨_, accepts, stands⟩,
    (chosen_iff accepts.precision).2 rfl, compiles⟩

theorem internalError_iff_obstructed_fileInTheWay :
    (∀ arg ∈ ["a.teeny", "-o", "b/x.c"], '\x00' ∉ arg.toList) ∧
      (runOn (fun _ => none) ["a.teeny", "-o", "b/x.c"] fileInTheWay).1.exitCode = .internalError := by
  have plain : ∀ arg ∈ ["a.teeny", "-o", "b/x.c"], '\x00' ∉ arg.toList := by decide
  have parts : (Path.ofString "b/x.c").parts = ["b"] ++ "x.c" :: [] := by decide +kernel
  have led : fileInTheWay.follow (fileInTheWay.base (Path.ofString "b/x.c").root) ["b"] =
      .ok ["home", "b"] := rfl
  have held : fileInTheWay.entry? ["home", "b"] = some (.file (Text.Utf8.encode "x")) := rfl
  have obstructed : fileInTheWay.Obstructed (Path.ofString "b/x.c") := .throughFile parts led held
  exact ⟨plain, (internalError_iff_obstructed (fun _ => none) fileInTheWay plain).1.2
    ⟨_, _, _, translates_fileInTheWay, .named rfl, obstructed⟩⟩

/-- A file in place of the output directory is blamed on the program. -/
theorem file_as_directory_internalError :
    (runOn (fun _ => none) ["a.teeny", "-o", "b/x.c"] fileInTheWay).1.exitCode = .internalError :=
  translates_fileInTheWay.exitCode fun _ => Tree.write_error_iff.2 (.inl locate_fileInTheWay)

end Command

end LineBasic
