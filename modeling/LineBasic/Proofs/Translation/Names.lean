import LineBasic.Proofs.C.Mentions
import LineBasic.Proofs.Concat.Program
import LineBasic.Proofs.Translation.Strings

/-!
# The names in a translation

A program is written with the names of its source. What C finds in it, outside of literals and comments, are
words of C and its library, the variables and the labels (`identifiers_of_compile`). A variable is neither a
keyword nor a name of the library, and a label is no keyword. But a label may be a macro of the library, and
macros are replaced wherever they stand: the program is free of them exactly if its labels are
(`names_in_output`).
-/

namespace LineBasic

set_option autoImplicit false

namespace C

/-- The macros that every program includes. The preprocessor replaces them, also where a label stands. -/
def macros : List String := ["EOF", "NULL", "BUFSIZ", "stdin", "stdout", "stderr"]

/-- The words that programs use by themselves. -/
def ownWords : List String :=
  ["include", "stdio", "h", "int", "main", "void", "printf", "float", "goto", "if", "scanf", "while",
    "return"]

theorem not_mem_macros_of_own {word : String} (own : word ∈ ownWords) : word ∉ macros := by
  revert word
  decide

end C

theorem not_mem_macros_of_free {name : String} (free : name ∉ Reserved.forVariables) :
    name ∉ C.macros := by
  have listed : C.macros ⊆ Reserved.forVariables := by decide
  exact fun member => free (listed member)

/-! ## Variables that are set -/

theorem mem_inRole_finished {role : Role} {before after : List Token} {token : Token}
    (member : token ∈ inRole role (finished before)) : token ∈ inRole role (before ++ after) := by
  obtain ⟨rest, split⟩ := List.rdropWhile_prefix (fun token : Token => token.kind ≠ .newline) before
  rw [← split, List.append_assoc, inRole_append]
  exact List.mem_append_left _ member

/-- Every variable that is read is set. -/
theorem WellNamed.reads_subset {tokens : List Token} (well : WellNamed tokens) :
    Syntax.named (inRole .plain tokens) ⊆ (inRole .target tokens).map (·.text) := by
  have each := (forall_inRole_iff .plain (fun token => token.kind = .ident →
    token.text ∈ (inRole .target tokens).map (·.text)) tokens).2 <| by
      intro before token after split plain ident
      obtain ⟨target, member, same⟩ := well.reads before token after split plain ident
      exact List.mem_map.2 ⟨target, split ▸ mem_inRole_finished member, same⟩
  intro name member
  obtain ⟨token, listed, rfl⟩ := List.mem_map.1 member
  obtain ⟨plain, ident⟩ := List.mem_filter.1 listed
  exact each token plain (of_decide_eq_true ident)

/-- Every label that is jumped to is defined. -/
theorem WellNamed.jumps_subset {tokens : List Token} (well : WellNamed tokens) :
    (inRole .jump tokens).map (·.text) ⊆ (inRole .label tokens).map (·.text) := by
  refine List.forall_mem_map.2 fun jump member => ?_
  obtain ⟨label, listed, same⟩ := well.jumpsDefined jump member
  exact List.mem_map.2 ⟨label, listed, same⟩

namespace Syntax

/-! ## Mentions by their senses -/

/-- A mention is one of the program's own words or stands for one of these variables or labels. -/
def Mention.Among (vars labels : List String) (mention : Mention) : Prop :=
  match mention.sense with
  | .own => mention.text ∈ C.ownWords
  | .var => mention.text ∈ vars
  | .label => mention.text ∈ labels

section Among

variable {vars labels : List String}

theorem among_own {word : String} (listed : word ∈ C.ownWords) : (Mention.own word).Among vars labels :=
  listed

theorem among_variables {names : List String} (known : names ⊆ vars) :
    ∀ mention ∈ names.map Mention.var, mention.Among vars labels :=
  List.forall_mem_map.2 fun _ member => known member

theorem Simple.among {statement : Simple} {line : Int}
    (targets : (Code.simple line statement .done).targets ⊆ vars) (reads : statement.reads ⊆ vars)
    (defines : (Code.simple line statement .done).labels ⊆ labels) (jumps : statement.jumps ⊆ labels) :
    ∀ mention ∈ statement.lines.flatMap Line.mentions, mention.Among vars labels := by
  cases statement with
  | printText text => exact List.forall_mem_singleton.2 (among_own (by decide))
  | print value =>
    rw [lines, List.flatMap_singleton, Line.mentions]
    refine List.forall_mem_cons.2 ⟨among_own (by decide), ?_⟩
    exact List.forall_mem_cons.2 ⟨among_own (by decide), among_variables reads⟩
  | label name => exact List.forall_mem_singleton.2 (defines List.mem_cons_self)
  | goto name =>
    refine List.forall_mem_cons.2 ⟨among_own (by decide), ?_⟩
    exact List.forall_mem_singleton.2 (jumps List.mem_cons_self)
  | assign name value =>
    rw [lines, List.flatMap_singleton, Line.mentions]
    exact List.forall_mem_cons.2 ⟨targets List.mem_cons_self, among_variables reads⟩
  | input name =>
    have target : (Mention.var name).Among vars labels := targets List.mem_cons_self
    have mentions : (input name).lines.flatMap Line.mentions =
        [.own "if", .own "scanf", .var name, .var name, .own "scanf"] := rfl
    rw [mentions]
    simp only [List.forall_mem_cons]
    exact ⟨among_own (by decide), among_own (by decide), target, target, among_own (by decide),
      List.forall_mem_nil _⟩

/-- The lines of a program mention what its statements set, read, define and jump to. -/
theorem Code.among_lines {code : Code} (targets : code.targets ⊆ vars) (reads : code.reads ⊆ vars)
    (defines : code.labels ⊆ labels) (jumps : code.jumps ⊆ labels) :
    ∀ mention ∈ code.lines.flatMap Line.mentions, mention.Among vars labels := by
  induction code with
  | done => nofun
  | simple line statement next ih =>
    rw [targets_simple, List.append_subset] at targets
    rw [labels_simple, List.append_subset] at defines
    rw [Code.reads, List.append_subset] at reads
    rw [Code.jumps, List.append_subset] at jumps
    rw [lines, List.flatMap_append]
    exact List.forall_mem_append.2 ⟨Simple.among targets.1 reads.1 defines.1 jumps.1,
      ih targets.2 reads.2 defines.2 jumps.2⟩
  | block line kind condition body next ihBody ihNext =>
    rw [Code.targets, List.append_subset] at targets
    rw [Code.labels, List.append_subset] at defines
    rw [Code.reads, List.append_subset, List.append_subset] at reads
    rw [Code.jumps, List.append_subset] at jumps
    rw [lines, List.flatMap_append, List.flatMap_cons, List.flatMap_cons, Line.mentions]
    refine List.forall_mem_append.2 ⟨List.forall_mem_append.2 ⟨?_, ?_⟩, ?_⟩
    · exact List.forall_mem_cons.2 ⟨among_own (by cases kind <;> decide), among_variables reads.1.1⟩
    · exact ihBody targets.1 reads.1.2 defines.1 jumps.1
    · exact ihNext targets.2 reads.2 defines.2 jumps.2

end Among

theorem Code.label_mem_lines {code : Code} {name : String} (member : name ∈ code.labels) :
    .label name ∈ code.lines := by
  induction code with
  | done => cases member
  | simple line statement next ih =>
    cases statement with
    | label other =>
      rcases List.mem_cons.1 member with rfl | later
      · exact List.mem_cons_self
      · exact List.mem_cons_of_mem _ (ih later)
    | _ => exact List.mem_append_right _ (ih member)
  | block line kind condition body next ihBody ihNext =>
    rcases List.mem_append.1 member with inner | later
    · exact List.mem_append_left _ (List.mem_cons_of_mem _ (ihBody inner))
    · exact List.mem_append_right _ (List.mem_cons_of_mem _ (ihNext later))

/-! ## Whole programs -/

/-- The identifiers that a program mentions, from its first line to its last. -/
def Code.mentions (code : Code) : List Mention :=
  ["include", "stdio", "h", "int", "main", "void"].map .own ++ code.programLines.flatMap Line.mentions

theorem flatMap_mentions (rows : List Row) :
    rows.flatMap Row.mentions = (rows.filterMap Row.line?).flatMap Line.mentions := by
  induction rows with
  | nil => rfl
  | cons row rows ih =>
    rw [List.flatMap_cons, ih]
    cases row <;> rfl

/-- A program mentions its own words, its variables and its labels. -/
theorem Code.among_mentions {code : Code} {labels : List String} (reads : code.reads ⊆ code.targets)
    (defines : code.labels ⊆ labels) (jumps : code.jumps ⊆ labels) :
    ∀ mention ∈ code.mentions, mention.Among code.targets labels := by
  rw [mentions, programLines, List.flatMap_append, List.flatMap_append, List.flatMap_map]
  refine List.forall_mem_append.2 ⟨?_, List.forall_mem_append.2 ⟨?_, List.forall_mem_append.2 ⟨?_, ?_⟩⟩⟩
  · refine List.forall_mem_map.2 fun word member => among_own ?_
    revert word
    decide
  · refine List.forall_mem_flatMap.2 fun name listed => List.forall_mem_cons.2 ⟨among_own (by decide), ?_⟩
    exact List.forall_mem_singleton.2 (List.mem_eraseDups.1 listed)
  · exact among_lines (List.Subset.refl _) reads defines jumps
  · exact List.forall_mem_singleton.2 (among_own (by decide))

theorem Code.var_mem_mentions {code : Code} {name : String} (member : name ∈ code.targets) :
    .var name ∈ code.mentions := by
  refine List.mem_append_right _ (List.mem_flatMap.2 ⟨.declare name, ?_, by simp [Line.mentions]⟩)
  exact List.mem_append_left _ (List.mem_map_of_mem (List.mem_eraseDups.2 member))

theorem Code.label_mem_mentions {code : Code} {name : String} (member : name ∈ code.labels) :
    .label name ∈ code.mentions := by
  refine List.mem_append_right _ (List.mem_flatMap.2 ⟨.label name, ?_, List.mem_singleton_self _⟩)
  exact List.mem_append_right _ (List.mem_append_left _ (label_mem_lines member))

/-- A program whose variables are free is free of macros if its labels are. -/
theorem Code.macros_iff {code : Code}
    (among : ∀ mention ∈ code.mentions, mention.Among code.targets code.labels)
    (free : ∀ name ∈ code.targets, name ∉ Reserved.forVariables) :
    (∀ word ∈ spelled code.mentions, String.ofList word ∉ C.macros) ↔
      ∀ name ∈ code.labels, name ∉ C.macros := by
  constructor
  · intro clean name member
    have written : name.toList ∈ spelled code.mentions := List.mem_map_of_mem (label_mem_mentions member)
    rw [← name.ofList_toList]
    exact clean _ written
  · intro clean word member
    obtain ⟨mention, listed, rfl⟩ := List.mem_map.1 member
    rw [String.ofList_toList]
    have stands := among mention listed
    obtain ⟨sense, text⟩ := mention
    cases sense with
    | own => exact C.not_mem_macros_of_own stands
    | var => exact not_mem_macros_of_free (free text stands)
    | label => exact clean text stands

end Syntax

open Syntax

variable {options : Options} {file source : String} {result : Compiled}

/-- C finds in a translation what its tree mentions, line by line. -/
theorem identifiers_of_compile (compiled : compile options file source = .ok result) :
    ∃ code : Code, code.ReadsProgram (Scanner.start file source).drain.tokens ∧
      C.identifiers result.output.text.toList = spelled code.mentions := by
  obtain ⟨code, reads, text, well⟩ := exists_unlines_of_compile compiled
  refine ⟨code, reads, ?_⟩
  have heads : headLines.flatMap C.identifiers =
      ["include", "stdio", "h", "int", "main", "void"].map String.toList := by decide
  have rows : ((code.programRows options.lineComments).map (Row.text options.precision)).flatMap
      C.identifiers = spelled ((code.programRows options.lineComments).flatMap Row.mentions) := by
    rw [List.flatMap_map, spelled, List.map_flatMap]
    exact List.flatMap_congr fun row member => Row.identifiers_text options.precision (well row member)
  rw [text, C.identifiers_unlines ?_, List.flatMap_append, heads, rows, flatMap_mentions,
    code.programRows_lines, spelled, spelled, Code.mentions, List.map_append, List.map_map]
  · rfl
  · refine List.forall_mem_append.2 ⟨by decide, List.forall_mem_map.2 fun row member => ?_⟩
    exact row.scan_text options.precision (well row member)

/-- The variables and the labels of a compiled program are those of its tree, which has no others. -/
theorem tables_of_compile (compiled : compile options file source = .ok result) {code : Code}
    (reads : code.ReadsProgram (Scanner.start file source).drain.tokens) :
    result.vars = code.targets.eraseDups ∧ result.labels = code.labels ∧
      code.reads ⊆ code.targets ∧ code.jumps ⊆ code.labels := by
  obtain ⟨code', reads', -, -, vars⟩ := exists_tree_of_compile compiled
  obtain rfl := reads'.eq reads
  have well := wellNamed_of_compile compiled
  have names := reads.names
  refine ⟨vars, (labels_of_compile compiled).trans names.labels, ?_, ?_⟩
  · rw [← names.reads, ← names.targets]
    exact well.reads_subset
  · rw [← names.jumps, ← names.labels]
    exact well.jumps_subset

theorem free_of_compile (compiled : compile options file source = .ok result) {code : Code}
    (reads : code.ReadsProgram (Scanner.start file source).drain.tokens) :
    (∀ name ∈ code.targets, name ∉ Reserved.forVariables) ∧
      ∀ name ∈ code.labels, name ∉ Reserved.keywords := by
  have well := wellNamed_of_compile compiled
  rw [← reads.names.targets, ← reads.names.labels]
  exact ⟨List.forall_mem_map.2 well.targetsFree, List.forall_mem_map.2 well.labelsFree⟩

/-- The names that are written are the variables and the labels of the program. C can use them as they are
written, but for labels that are macros. -/
theorem names_in_output (compiled : compile options file source = .ok result) :
    ∃ code : Code, code.ReadsProgram (Scanner.start file source).drain.tokens ∧
      C.identifiers result.output.text.toList = spelled code.mentions ∧
      (∀ word, .own word ∈ code.mentions → word ∈ C.ownWords) ∧
      (∀ name, .var name ∈ code.mentions ↔ name ∈ result.vars) ∧
      (∀ name, .label name ∈ code.mentions ↔ name ∈ result.labels) ∧
      (∀ name ∈ result.vars,
        name ∉ Reserved.keywords ∧ name ∉ C.macros ∧ name ≠ "printf" ∧ name ≠ "scanf") ∧
      (∀ name ∈ result.labels, name ∉ Reserved.keywords) ∧
      ((∀ word ∈ C.identifiers result.output.text.toList, String.ofList word ∉ C.macros) ↔
        ∀ name ∈ result.labels, name ∉ C.macros) := by
  obtain ⟨code, reads, found⟩ := identifiers_of_compile compiled
  obtain ⟨vars, labels, known, defined⟩ := tables_of_compile compiled reads
  obtain ⟨free, freeLabels⟩ := free_of_compile compiled reads
  have among := Code.among_mentions known (List.Subset.refl _) defined
  rw [found, vars, labels]
  refine ⟨code, reads, rfl, fun word => among (.own word), fun name => ?_, fun name => ?_, ?_,
    freeLabels, Code.macros_iff among free⟩
  · rw [List.mem_eraseDups]
    exact ⟨among (.var name), Code.var_mem_mentions⟩
  · exact ⟨among (.label name), Code.label_mem_mentions⟩
  · intro name member
    have apart := free name (List.mem_eraseDups.1 member)
    obtain ⟨keyword, library⟩ := not_or.1 (mt List.mem_append.2 apart)
    refine ⟨keyword, not_mem_macros_of_free apart, ?_, ?_⟩
    · rintro rfl
      exact library (by decide)
    · rintro rfl
      exact library (by decide)

/-- A label may be named as a function is, and a macro in a string is none. -/
theorem names_in_output_printf :
    let source := "LET a = 1\nLABEL printf\nPRINT \"EOF\"\nPRINT a + 1\nGOTO printf"
    ∃ result, compile ⟨2, true⟩ "demo" source = .ok result ∧ result.labels = ["printf"] ∧
      ∀ word ∈ C.identifiers result.output.text.toList, String.ofList word ∉ C.macros := by
  intro source
  obtain ⟨result, compiled, labels⟩ := @compile_ok_of_any ⟨2, true⟩ "demo" source
    (fun result => decide (result.labels = ["printf"])) (by decide +kernel)
  obtain ⟨-, -, -, -, -, -, -, -, clean⟩ := names_in_output compiled
  have labels := of_decide_eq_true labels
  exact ⟨result, compiled, labels, clean.2 (by rw [labels]; decide)⟩

/-- A label that is a macro is written as it is. -/
theorem label_named_macro_written :
    ∃ result, compile ⟨2, false⟩ "demo" "LABEL EOF" = .ok result ∧
      "EOF".toList ∈ C.identifiers result.output.text.toList ∧ "EOF" ∈ C.macros := by
  obtain ⟨result, compiled, written⟩ := @compile_ok_of_any ⟨2, false⟩ "demo" "LABEL EOF"
    (fun result => decide ("EOF".toList ∈ C.identifiers result.output.text.toList)) (by decide +kernel)
  exact ⟨result, compiled, of_decide_eq_true written, by decide⟩

end LineBasic
