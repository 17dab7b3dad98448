import LineBasic.Proofs.Command.Effects
import LineBasic.Proofs.Translation.Foreign

/-!
# What becomes of the input file

Where no output is named, the C program goes next to the source, under the name of the source with the
suffix of a C file. That is the source itself exactly if it has this suffix already, and then a run that
succeeds overwrites it with its translation (`input_kept_iff`). Its bytes are lost for certain, as no
translation is a source.
-/

namespace LineBasic.Command

set_option autoImplicit false

/-- The name of the file has the suffix of a C file, after something. -/
def HasSuffixC (operand : String) : Prop :=
  ∃ front base, (Path.ofString operand).parts = front ++ [base ++ ".c"] ∧ base ≠ ""

section Input

variable {lookup : String → Option String} {args : List String} {tree after : Tree} {code : ExitCode}
  {arguments : Arguments} {operand source : String} {position : Position} {bytes : List UInt8}
  {compiled : Compiled}

theorem hasSuffixC_iff {front : List String} {name : String}
    (parts : (Path.ofString operand).parts = front ++ [name]) :
    HasSuffixC operand ↔ Path.nameInC name = name := by
  rw [Path.nameInC_eq_self_iff]
  constructor
  · rintro ⟨others, base, same, some⟩
    rw [parts] at same
    obtain ⟨-, last⟩ := List.append_inj' same rfl
    exact ⟨base, some, List.singleton_inj.1 last⟩
  · rintro ⟨base, some, rfl⟩
    exact ⟨front, base, parts, some⟩

theorem outputPath_of_unnamed (unnamed : arguments.has .output = false) (operand : String) :
    outputPath arguments operand = (Path.ofString operand).withSuffix ".c" := by
  cases given : arguments.value? .output with
  | none => rw [outputPath, given]
  | some text =>
    have member := Arguments.mem_flags_of_value? given
    rw [Arguments.has, List.contains_iff_mem.2 member] at unnamed
    cases unnamed

/-- Writing the translation next to a source replaces the source if it has the suffix of a C file, and keeps it
if not. -/
theorem entry?_of_written (led : tree.locate operand = .ok position)
    (held : tree.entry? position = some (.file bytes))
    (writes : tree.write ((Path.ofString operand).withSuffix ".c") compiled.output.bytes = .ok after) :
    (HasSuffixC operand → after.entry? position = some (.file compiled.output.bytes)) ∧
      (¬ HasSuffixC operand → after.entry? position = some (.file bytes)) := by
  have normal := Path.isNormal_ofString operand
  obtain ⟨front, name, parent, parts, ahead, -, rfl⟩ :=
    Tree.exists_parent normal (Tree.locate_ofString led) held
  obtain ⟨place, target, free, rfl⟩ := Tree.write_ok_iff.1 writes
  obtain rfl := Tree.locate_withSuffix normal parts ahead target
  rw [hasSuffixC_iff parts]
  constructor
  · intro same
    rw [same] at free ⊢
    exact Tree.entry?_put_self free _
  · intro other
    rw [Tree.entry?_put_of_ne (by simpa using Ne.symm other)]
    exact held

/-- No translation has the bytes of its source. -/
theorem bytes_ne_of_compile (stands : StandsFor bytes source) {options : Options} {file : String}
    (compiles : compile options file source = .ok compiled) : compiled.output.bytes ≠ bytes := by
  rintro rfl
  exact compile_translation compiles (decodeSource_eq_ok_iff.2 stands) compiled compiles

end Input

/-- Without a named output, a run keeps its input as it is, except that it replaces a file that has the
suffix of a C file by its translation if it compiles it with success. -/
theorem input_kept_iff (lookup : String → Option String) {args : List String} {arguments : Arguments}
    {operand : String} {tree : Tree} {position : Position} {bytes : List UInt8}
    (split : Arguments.split args = .ok arguments) (unnamed : arguments.has .output = false)
    (first : arguments.operands.head? = some operand) (led : tree.locate operand = .ok position)
    (held : tree.entry? position = some (.file bytes)) :
    let code := (runOn lookup args tree).1.exitCode
    let after := (runOn lookup args tree).2
    (after.entry? position = some (.file bytes) ↔
      ¬ (code = .success ∧ AsksToCompile args arguments ∧ HasSuffixC operand)) ∧
    (code = .success → AsksToCompile args arguments → HasSuffixC operand →
      ∃ source options compiled, StandsFor bytes source ∧ Chosen lookup arguments options ∧
        compile options (Path.ofString operand).text source = .ok compiled ∧
        after.entry? position = some (.file (Text.Utf8.encode compiled.output.text))) := by
  intro code after
  have ends : Ends lookup args tree code after := ends_runOn lookup args tree
  by_cases wrote : code = .success ∧ AsksToCompile args arguments
  · obtain ⟨success, asked⟩ := wrote
    rw [success] at ends
    obtain ⟨one, source, compiled, ⟨found, accepts, stands⟩, compiles, writes⟩ :=
      ends.written_of_success asked
    rw [accepts.operands] at first
    obtain rfl := Option.some.inj first
    have same := accepts.found
    rw [Tree.find_ok_iff.2 ⟨position, led, held⟩] at same
    cases same
    rw [outputPath_of_unnamed unnamed] at writes
    obtain ⟨replaced, kept⟩ := entry?_of_written led held writes
    refine ⟨⟨?_, fun other => kept fun suffix => other ⟨success, asked, suffix⟩⟩, fun _ _ suffix => ?_⟩
    · rintro still ⟨-, -, suffix⟩
      rw [replaced suffix] at still
      cases still
      exact bytes_ne_of_compile stands compiles rfl
    · exact ⟨source, _, compiled, stands, (chosen_iff accepts.precision).2 rfl, compiles, replaced suffix⟩
  · have kept : after = tree := by
      refine ends.tree_of_idle fun others asked success => wrote ⟨success, ?_⟩
      rwa [Except.ok.inj (split.symm.trans asked.split)]
    rw [kept]
    refine ⟨iff_of_true held ?_, fun success asked => absurd ⟨success, asked⟩ wrote⟩
    exact fun ⟨success, asked, _⟩ => wrote ⟨success, asked⟩

/-- A working directory that holds one file. -/
def oneFile (name text : String) : Tree := ⟨["home"], [(["home", name], .file (Text.Utf8.encode text))]⟩

theorem input_kept_iff_hello :
    let tree := oneFile "hello.teeny" "PRINT \"hello\"\n"
    let place := ["home", "hello.teeny"]
    tree.locate "hello.teeny" = .ok place ∧
      Tree.entry? (runOn (fun _ => none) ["hello.teeny"] tree).2 place = tree.entry? place := by
  intro tree place
  have led : tree.locate "hello.teeny" = .ok place := by
    rw [Tree.locate_of_usable ⟨by decide, by decide, by decide⟩]
    rfl
  have parts : (Path.ofString "hello.teeny").parts = [] ++ ["hello.teeny"] := by decide +kernel
  have other : ¬ HasSuffixC "hello.teeny" := by
    rw [hasSuffixC_iff parts]
    decide +kernel
  have split : Arguments.split ["hello.teeny"] = .ok ⟨[], ["hello.teeny"]⟩ := by decide +kernel
  refine ⟨led, (input_kept_iff (fun _ => none) split rfl rfl led rfl).1.2 ?_⟩
  exact fun ⟨_, _, named⟩ => other named

/-- A source with the suffix of a C file is replaced by its translation. -/
theorem source_named_c_overwritten :
    let tree := oneFile "hello.c" "PRINT \"hello\"\n"
    let place := ["home", "hello.c"]
    (runOn (fun _ => none) ["hello.c"] tree).1.exitCode = .success ∧
      Tree.entry? (runOn (fun _ => none) ["hello.c"] tree).2 place ≠ tree.entry? place := by
  intro tree place
  have led : tree.locate "hello.c" = .ok place := by
    rw [Tree.locate_of_usable ⟨by decide, by decide, by decide⟩]
    rfl
  have accepts : Accepts tree ["hello.c"] ⟨[], ["hello.c"]⟩ "hello.c"
      (Text.Utf8.encode "PRINT \"hello\"\n") :=
    { output := fun _ given => by cases given
      precision := fun _ given => by cases given
      operands := rfl
      found := Tree.find_ok_iff.2 ⟨place, led, rfl⟩
      split := by decide +kernel
      asks := ⟨rfl, rfl⟩ }
  have decodes : decodeSource (Text.Utf8.encode "PRINT \"hello\"\n") = .ok "PRINT \"hello\"\n" :=
    decodeSource_encode _
  obtain ⟨compiled, compiles, -⟩ := @compile_ok_of_any (settings (fun _ => none) ⟨[], ["hello.c"]⟩)
    (Path.ofString "hello.c").text "PRINT \"hello\"\n" (fun _ => true) (by decide +kernel)
  have writes : tree.write ((Path.ofString "hello.c").withSuffix ".c") compiled.output.bytes =
      .ok (tree.put place (.file compiled.output.bytes)) :=
    Tree.write_ok_iff.2 ⟨place, led, by decide, rfl⟩
  have named : HasSuffixC "hello.c" := ⟨[], "hello", by decide +kernel, by decide⟩
  obtain ⟨success, after⟩ := ends_iff.1 (.written accepts decodes rfl compiles writes)
  refine ⟨success, ?_⟩
  rw [after, (entry?_of_written led rfl writes).1 named]
  intro same
  exact bytes_ne_of_compile (decodeSource_eq_ok_iff.1 decodes) compiles
    (Entry.file.inj (Option.some.inj same))

end LineBasic.Command
