import LineBasic.Proofs.Names.Role
import LineBasic.Proofs.Pass.Reached
import LineBasic.Proofs.Source.Lines
import LineBasic.Proofs.Syntax.Emission
import LineBasic.Proofs.Token.Lossless
import LineBasic.Proofs.Token.Order

/-!
# What every step of a pass keeps

A pass may be told to take any steps in any order, and goes on from the state that a failed step left. In
every state that comes about, the header declares the entered variables, each once and in their order,
and nothing else; no table holds a name twice or a name that is reserved (`State.Sound`). And whatever a
step does, it takes nothing back: output and tables only get longer, the counts and the scanner only move
on (`Grows`). Both follow from what single changes do, since they are `Lasting`.
-/

namespace LineBasic

set_option autoImplicit false

/-! ## Tables -/

namespace NameTable

/-- No name stands twice in the table, and none is reserved. -/
structure Sound (reserved : List String) (table : NameTable) : Prop where
  once : table.names.Nodup
  free : ∀ name ∈ table.names, name ∉ reserved

variable {reserved : List String} {table : NameTable} {name : String}

theorem sound_empty (reserved : List String) : empty.Sound reserved := ⟨.nil, nofun⟩

theorem Sound.note (sound : table.Sound reserved) (free : name ∉ reserved) (place : Location) :
    (table.note name place).Sound reserved := by
  have names := names_note table name place
  by_cases known : name ∈ table.names
  · rw [if_pos known] at names
    exact ⟨names ▸ sound.once, names ▸ sound.free⟩
  · rw [if_neg known] at names
    refine ⟨?_, fun other member => ?_⟩
    · rw [names]
      exact List.nodup_append.2 ⟨sound.once, by simp, by grind⟩
    · rw [names] at member
      rcases List.mem_append.1 member with old | new
      · exact sound.free other old
      · rwa [List.mem_singleton.1 new]

/-- Entering a name keeps all entries, and their places. -/
theorem note_extends (table : NameTable) (name : String) (place : Location) :
    table.entries <+: (table.note name place).entries := by
  unfold note
  split
  · exact List.prefix_rfl
  · exact List.prefix_append _ _

end NameTable

namespace Pass

/-! ## The header -/

/-- A text without the lines that a program begins with. -/
def withoutPrologue (text : String) : String :=
  "\n".intercalate (((Text.lines text.toList).map String.ofList).filter (· ∉ prologueLines))

/-- A header of whole lines, which declare the variables in their order, the prologue aside. -/
def HeaderOf (names : List String) (text : String) : Prop :=
  ∃ parts : List String, text.toList = Text.unlines (parts.map String.toList) ∧
    (∀ part ∈ parts, '\n' ∉ part.toList) ∧
    parts.filter (· ∉ prologueLines) = names.map fun name => s!"float {name};"

section HeaderLines

variable {names : List String} {text : String}

theorem headerOf_empty : HeaderOf [] "" := ⟨[], rfl, nofun, rfl⟩

theorem intercalate_declarations (names : List String) :
    "\n".intercalate ((names.map fun name => s!"float {name};") ++ [""]) =
      Syntax.declarations names := by
  induction names with
  | nil => rfl
  | cons name names ih =>
    rw [List.map_cons, List.cons_append, String.intercalate_cons_of_ne_nil (by simp), ih]
    rfl

theorem HeaderOf.withoutPrologue_eq (header : HeaderOf names text) :
    withoutPrologue text = Syntax.declarations names := by
  obtain ⟨parts, whole, inside, declared⟩ := header
  have cut : (Text.lines text.toList).map String.ofList = parts ++ [""] := by
    rw [whole, Text.lines_unlines (by simpa using inside)]
    simp [Function.comp_def]
  have last : [""].filter (· ∉ prologueLines) = [""] := by decide
  rw [withoutPrologue, cut, List.filter_append, declared, last, intercalate_declarations]

theorem HeaderOf.prologue (header : HeaderOf names text) {line : String} (listed : line ∈ prologueLines) :
    HeaderOf names (text ++ (line ++ "\n")) := by
  obtain ⟨parts, whole, inside, declared⟩ := header
  have plain : ∀ line ∈ prologueLines, '\n' ∉ line.toList := by decide
  refine ⟨parts ++ [line], ?_, ?_, ?_⟩
  · simp [whole, Text.unlines_concat]
  · exact List.forall_mem_append.2 ⟨inside, List.forall_mem_singleton.2 (plain line listed)⟩
  · rw [List.filter_append, declared]
    simp [listed]

/-- No declaration looks like a line of the prologue. -/
theorem declaration_not_prologue (name : String) : s!"float {name};" ∉ prologueLines := by
  have others : ∀ line ∈ prologueLines, line.toList.head? ≠ some 'f' := by decide
  intro listed
  refine others _ listed ?_
  show ("float " ++ name ++ ";").toList.head? = some 'f'
  simp

theorem HeaderOf.declare (header : HeaderOf names text) {name : String} (inside : '\n' ∉ name.toList) :
    HeaderOf (names ++ [name]) (text ++ (s!"float {name};" ++ "\n")) := by
  obtain ⟨parts, whole, others, declared⟩ := header
  refine ⟨parts ++ [s!"float {name};"], ?_, ?_, ?_⟩
  · simp [whole, Text.unlines_concat]
  · refine List.forall_mem_append.2 ⟨others, List.forall_mem_singleton.2 ?_⟩
    show '\n' ∉ ("float " ++ name ++ ";").toList
    simp [inside]
  · rw [List.filter_append, declared, List.map_append]
    simp [declaration_not_prologue name]

end HeaderLines

/-! ## States -/

/-- What holds of the output and the tables of a pass at all times. -/
structure State.Sound (s : State) : Prop where
  /-- The prologue aside, the header declares the variables in the order they were met in. -/
  header : withoutPrologue s.output.header.text = Syntax.declarations s.vars.names
  vars : s.vars.Sound Reserved.forVariables
  labels : s.labels.Sound Reserved.forLabels
  jumps : s.jumps.Sound Reserved.forLabels

/-- What a pass never takes back from one state to a later one. -/
structure Grows (s t : State) : Prop where
  header : s.output.header.text.toList <+: t.output.header.text.toList
  body : s.output.body.text.toList <+: t.output.body.text.toList
  vars : s.vars.entries <+: t.vars.entries
  labels : s.labels.entries <+: t.labels.entries
  jumps : s.jumps.entries <+: t.jumps.entries
  statements : s.statements ≤ t.statements
  scanner : s.scanner.MovesOn t.scanner

theorem grows_refl (s : State) : Grows s s where
  header := List.prefix_rfl
  body := List.prefix_rfl
  vars := List.prefix_rfl
  labels := List.prefix_rfl
  jumps := List.prefix_rfl
  statements := Nat.le_refl _
  scanner := ⟨Nat.le_refl _, Nat.le_refl _⟩

theorem Grows.trans {r s t : State} (first : Grows r s) (second : Grows s t) : Grows r t where
  header := first.header.trans second.header
  body := first.body.trans second.body
  vars := first.vars.trans second.vars
  labels := first.labels.trans second.labels
  jumps := first.jumps.trans second.jumps
  statements := first.statements.trans second.statements
  scanner := ⟨first.scanner.1.trans second.scanner.1, first.scanner.2.trans second.scanner.2⟩

theorem grows_advance (s : State) : Grows s (after advance s) := by
  unfold after advance
  cases step : Scanner.next s.scanner with
  | ok token sc => exact { grows_refl s with scanner := Scanner.movesOn_of_ok step }
  | error fault sc => exact { grows_refl s with scanner := Scanner.movesOn_of_error step }

theorem extends_append (text added : String) : text.toList <+: (text ++ added).toList := by
  rw [String.toList_append]
  exact List.prefix_append _ _

theorem grows_addHeaderLine (s : State) (text : String) :
    Grows s { s with output := s.output.addHeaderLine text } :=
  { grows_refl s with header := extends_append _ _ }

theorem lasting_grows : Lasting Grows where
  refl := grows_refl
  trans := Grows.trans
  moves := grows_advance
  writes s _ := { grows_refl s with body := extends_append _ _ }
  counts s := { grows_refl s with statements := Nat.le_succ _ }
  declares earlier _ _ _ := (earlier.trans (grows_addHeaderLine _ _)).trans
    { grows_refl _ with vars := NameTable.note_extends _ _ _ }
  labels _ _ := { grows_refl _ with labels := NameTable.note_extends _ _ _ }
  jumps _ := { grows_refl _ with jumps := NameTable.note_extends _ _ _ }

/-- What is kept from change to change: the two tokens at hand are spelled, so a name that is declared
later has no newline in it and its declaration is one line. -/
structure State.Kept (s : State) : Prop extends s.HoldsSpelled where
  header : HeaderOf s.vars.names s.output.header.text
  vars : s.vars.Sound Reserved.forVariables
  labels : s.labels.Sound Reserved.forLabels
  jumps : s.jumps.Sound Reserved.forLabels

theorem State.Kept.sound {s : State} (kept : s.Kept) : s.Sound :=
  ⟨kept.header.withoutPrologue_eq, kept.vars, kept.labels, kept.jumps⟩

theorem kept_start {options : Options} {file source : String} {s : State}
    (started : start options file source = .ok s) : s.Kept := by
  have spelled := holdsSpelled_start started
  obtain ⟨sc, -, -, same⟩ := start_ok started
  rw [same] at spelled ⊢
  exact ⟨spelled, headerOf_empty, NameTable.sound_empty _, NameTable.sound_empty _,
    NameTable.sound_empty _⟩

theorem State.Kept.advance {s : State} (kept : s.Kept) : (after advance s).Kept := by
  have spelled := holdsSpelled_advance kept.toHoldsSpelled
  unfold after Pass.advance at *
  cases step : Scanner.next s.scanner with
  | ok token sc =>
    rw [step] at spelled
    exact ⟨spelled, kept.header, kept.vars, kept.labels, kept.jumps⟩
  | error fault sc =>
    rw [step] at spelled
    exact ⟨spelled, kept.header, kept.vars, kept.labels, kept.jumps⟩

theorem State.HoldsSpelled.newline_not_mem {s : State} (spelled : s.HoldsSpelled)
    (named : s.current.kind = .ident) : '\n' ∉ s.current.text.toList := by
  have current : LineBasic.Spelled s.current.kind s.current.text.toList := spelled.current
  rw [named] at current
  exact current.newline_not_mem (by simp)

/-- A variable is entered together with the line that declares it. -/
theorem State.Kept.declare {s : State} (kept : s.Kept) {name : String} (place : Location)
    (inside : '\n' ∉ name.toList) (free : name ∉ Reserved.forVariables)
    (fresh : s.vars.has name = false) :
    State.Kept { s with
      vars := s.vars.note name place
      output := s.output.addHeaderLine s!"float {name};" } := by
  have header : HeaderOf (s.vars.note name place).names
      (s.output.header.text ++ (s!"float {name};" ++ "\n")) := by
    rw [NameTable.names_note_of_fresh fresh]
    exact kept.header.declare inside
  exact { kept with header, vars := kept.vars.note free place }

theorem lasting_kept : Lasting fun s t => s.Kept → t.Kept where
  refl _ := id
  trans first second := second ∘ first
  moves _ := .advance
  writes _ _ kept := { kept with }
  counts _ kept := { kept with }
  declares := by
    intro r s earlier named free fresh kept
    exact (earlier kept).declare _ (kept.toHoldsSpelled.newline_not_mem named) free fresh
  labels free _ kept := { kept with labels := kept.labels.note free _ }
  jumps free kept := { kept with jumps := kept.jumps.note free _ }

theorem State.Kept.step {s : State} (kept : s.Kept) (step : Step) : (after step.run s).Kept :=
  lasting_kept.within_step
    (fun _ _ listed kept => { kept with header := kept.header.prologue listed }) step s kept

theorem State.Kept.run {s : State} (kept : s.Kept) (steps : List Step) :
    (steps.foldl (fun s step => after step.run s) s).Kept := by
  induction steps generalizing s with
  | nil => exact kept
  | cons step steps ih => exact ih (kept.step step)

/-- Whatever steps a pass has taken and however they ended, its state is sound; and whatever step comes
next, also one that fails, takes nothing back. -/
theorem sound_and_grows_along_steps {options : Options} {file source : String} {first : State}
    (started : start options file source = .ok first) (steps : List Step) :
    let s := steps.foldl (fun s step => after step.run s) first
    s.Sound ∧ ∀ step : Step, Grows s (after step.run s) := by
  intro s
  have kept : s.Kept := (kept_start started).run steps
  exact ⟨kept.sound, fun step =>
    lasting_grows.within_step (fun s text _ => grows_addHeaderLine s text) step s⟩

/-- Four of these six steps fail, the second assignment half-way. The last one puts the prologue behind
the declaration that is already there. -/
theorem sound_and_grows_along_failing_steps :
    let source := "LET a = 1\nGOTO b\nLET c 2\nLABEL b"
    let steps := [Step.statement, .expect .string, .statement, .statement, .checkLabels, .program]
    ∃ first, start {} "run.bas" source = .ok first ∧
      let s := steps.foldl (fun s step => after step.run s) first
      (s.output.header.text = "float a;\n#include <stdio.h>\nint main(void)\x7b\n" ∧
        s.vars.names = ["a"] ∧ s.jumps.names = ["b"]) ∧
      s.Sound ∧ ∀ step : Step, Grows s (after step.run s) := by
  intro source steps
  have evaluated : (start {} "run.bas" source).toOption.any (fun first =>
      let s := steps.foldl (fun s step => after step.run s) first
      s.output.header.text = "float a;\n#include <stdio.h>\nint main(void)\x7b\n" ∧
        s.vars.names = ["a"] ∧ s.jumps.names = ["b"]) = true := by
    decide +kernel
  cases started : start {} "run.bas" source with
  | error fault =>
    rw [started] at evaluated
    cases evaluated
  | ok first =>
    rw [started] at evaluated
    exact ⟨first, rfl, of_decide_eq_true evaluated, sound_and_grows_along_steps started steps⟩

end Pass

end LineBasic
