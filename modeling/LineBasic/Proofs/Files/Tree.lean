import Mathlib.Data.String.Basic
import LineBasic.Files.Tree
import LineBasic.Proofs.Files.Path

/-!
# Following paths through a tree

A path is followed step by step (`follow_eq_foldlM`), and a step leads on from a directory only
(`step_cases`). So what is written at a position that is no directory changes no way through the tree:
a file that was written is read back by its path, and all other positions hold what they held
(`read_write`, `entry?_write`).

A text that leads somewhere leads to the same position in normal form (`locate_ofString`).
-/

namespace LineBasic.Tree

set_option autoImplicit false

variable {tree after : Tree} {position : Position}

/-! ## Entries -/

theorem entry?_of_above (above : position <+: tree.here) : tree.entry? position = some .directory :=
  if_pos (List.isPrefixOf_iff_prefix.2 above)

theorem entry?_of_apart (apart : ¬ position <+: tree.here) :
    tree.entry? position = tree.entries.lookup position :=
  if_neg (mt List.isPrefixOf_iff_prefix.1 apart)

theorem lookup_filter_ne {other : Position} (apart : other ≠ position)
    (entries : List (Position × Entry)) :
    (entries.filter fun old => !(old.1 == position)).lookup other = entries.lookup other := by
  induction entries with
  | nil => rfl
  | cons old entries ih =>
    obtain ⟨at', entry⟩ := old
    by_cases same : at' = position
    · subst same
      have differs : (other == at') = false := by simpa using apart
      simp [List.lookup_cons, differs, ih]
    · simp [same, List.lookup_cons, ih]

theorem entry?_put_of_ne {other : Position} (apart : other ≠ position) (entry : Entry) :
    entry? (tree.put position entry) other = tree.entry? other := by
  by_cases above : other <+: tree.here
  · rw [entry?_of_above above, entry?_of_above (show other <+: (tree.put position entry).here from above)]
  · rw [entry?_of_apart above,
      entry?_of_apart (show ¬ other <+: (tree.put position entry).here from above)]
    have differs : (other == position) = false := by simpa using apart
    show List.lookup other ((position, entry) :: _) = _
    rw [List.lookup_cons, differs, lookup_filter_ne apart]

/-- What is put in place of a directory above the working directory is not seen; all else is. -/
theorem entry?_put_self (free : tree.entry? position ≠ some .directory) (entry : Entry) :
    entry? (tree.put position entry) position = some entry := by
  have apart : ¬ position <+: (tree.put position entry).here := fun above =>
    free (entry?_of_above above)
  rw [entry?_of_apart apart]
  exact List.lookup_cons_self

/-! ## Steps -/

/-- One step along a path. -/
def step (tree : Tree) (position : Position) (piece : String) : Except Trouble Position :=
  match tree.entry? position with
  | none => .error .missing
  | some (.file _) => .error .notDirectory
  | some .directory =>
      if Path.isIdle piece then .ok position
      else if piece = ".." then .ok position.dropLast
      else if maxPieceBytes < piece.utf8ByteSize then .error .nameTooLong
      else .ok (position ++ [piece])

theorem follow_eq_foldlM (tree : Tree) (position : Position) (pieces : List String) :
    tree.follow position pieces = pieces.foldlM tree.step position := by
  induction pieces generalizing position with
  | nil => rfl
  | cons piece pieces ih =>
    rw [List.foldlM_cons, follow, step]
    cases tree.entry? position with
    | none => rfl
    | some entry =>
      cases entry with
      | file bytes => rfl
      | directory =>
        dsimp only
        simp only [ih]
        split
        · rfl
        · split
          · rfl
          · split
            · rfl
            · rfl

theorem step_cases {next : Position} {piece : String} (ok : tree.step position piece = .ok next) :
    tree.entry? position = some .directory ∧
      (Path.isIdle piece = true ∧ next = position ∨
        piece = ".." ∧ next = position.dropLast ∨
        Path.isIdle piece = false ∧ piece ≠ ".." ∧ next = position ++ [piece]) := by
  unfold step at ok
  split at ok
  · cases ok
  · cases ok
  · rename_i directory
    refine ⟨directory, ?_⟩
    split at ok
    · cases ok
      exact .inl ⟨‹_›, rfl⟩
    · split at ok
      · cases ok
        exact .inr (.inl ⟨‹_›, rfl⟩)
      · split at ok
        · cases ok
        · cases ok
          exact .inr (.inr ⟨by simpa using ‹¬ Path.isIdle piece = true›, ‹_›, rfl⟩)

/-- Why a step fails. -/
theorem step_error_iff {piece : String} {trouble : Trouble} :
    tree.step position piece = .error trouble ↔
      tree.entry? position = none ∧ trouble = .missing ∨
        (∃ bytes, tree.entry? position = some (.file bytes)) ∧ trouble = .notDirectory ∨
        tree.entry? position = some .directory ∧ Path.isIdle piece = false ∧ piece ≠ ".." ∧
          maxPieceBytes < piece.utf8ByteSize ∧ trouble = .nameTooLong := by
  have turn (other : Trouble) :
      (Except.error other : Except Trouble Position) = .error trouble ↔ trouble = other := by
    rw [Except.error.injEq]
    exact eq_comm
  unfold step
  cases tree.entry? position with
  | none => simp [turn]
  | some entry =>
    cases entry with
    | file bytes => simp [turn]
    | directory =>
      by_cases idle : Path.isIdle piece = true
      · simp [idle]
      by_cases up : piece = ".."
      · simp [up, show Path.isIdle ".." = false from by decide]
      by_cases long : maxPieceBytes < piece.utf8ByteSize
      · simp [idle, up, long, turn]
      · simp [idle, up, long]

theorem step_idle {piece : String} (directory : tree.entry? position = some .directory)
    (idle : Path.isIdle piece = true) : tree.step position piece = .ok position := by
  simp [step, directory, idle]

/-- Steps from directories are the same in trees with the same directories. -/
theorem step_congr (same : after.entry? position = tree.entry? position) (piece : String) :
    after.step position piece = tree.step position piece := by
  rw [step, step, same]

/-! ## Whole paths -/

section Follow

variable {next : Position} {pieces : List String}

theorem follow_append (tree : Tree) (position : Position) (front back : List String) :
    tree.follow position (front ++ back) =
      (tree.follow position front).bind fun middle => tree.follow middle back := by
  simp only [follow_eq_foldlM, List.foldlM_append]
  rfl

theorem follow_cons (tree : Tree) (position : Position) (piece : String) (pieces : List String) :
    tree.follow position (piece :: pieces) =
      (tree.step position piece).bind fun middle => tree.follow middle pieces := by
  simp only [follow_eq_foldlM, List.foldlM_cons]
  rfl

theorem follow_cons_ok {piece : String} (ok : tree.follow position (piece :: pieces) = .ok next) :
    ∃ middle, tree.step position piece = .ok middle ∧ tree.follow middle pieces = .ok next := by
  rw [follow_cons] at ok
  cases stepped : tree.step position piece with
  | error trouble =>
    rw [stepped] at ok
    cases ok
  | ok middle =>
    rw [stepped] at ok
    exact ⟨middle, rfl, ok⟩

theorem follow_concat_ok {front : List String} {piece : String}
    (ok : tree.follow position (front ++ [piece]) = .ok next) :
    ∃ middle, tree.follow position front = .ok middle ∧ tree.step middle piece = .ok next := by
  rw [follow_append] at ok
  cases led : tree.follow position front with
  | error trouble =>
    rw [led] at ok
    cases ok
  | ok middle =>
    rw [led] at ok
    obtain ⟨last, stepped, rest⟩ := follow_cons_ok ok
    cases rest
    exact ⟨middle, rfl, stepped⟩

/-- A path leads nowhere because of its first step that fails. -/
theorem follow_error_iff {trouble : Trouble} :
    tree.follow position pieces = .error trouble ↔
      ∃ front piece back middle, pieces = front ++ piece :: back ∧
        tree.follow position front = .ok middle ∧ tree.step middle piece = .error trouble := by
  constructor
  · intro failed
    induction pieces generalizing position with
    | nil => cases failed
    | cons piece pieces ih =>
      rw [follow_cons] at failed
      cases stepped : tree.step position piece with
      | error other =>
        rw [stepped] at failed
        cases failed
        exact ⟨[], piece, pieces, position, rfl, rfl, stepped⟩
      | ok next =>
        rw [stepped] at failed
        obtain ⟨front, last, back, middle, rfl, ahead, stops⟩ := ih failed
        refine ⟨piece :: front, last, back, middle, rfl, ?_, stops⟩
        rw [follow_cons, stepped]
        exact ahead
  · rintro ⟨front, piece, back, middle, rfl, ahead, stops⟩
    rw [follow_append, ahead]
    show tree.follow middle (piece :: back) = _
    rw [follow_cons, stops]
    rfl

/-- Idle pieces before a path say nothing in a directory. -/
theorem follow_idle_append (directory : tree.entry? position = some .directory) {idle : List String}
    (stays : ∀ piece ∈ idle, Path.isIdle piece = true) (pieces : List String) :
    tree.follow position (idle ++ pieces) = tree.follow position pieces := by
  induction idle with
  | nil => rfl
  | cons piece idle ih =>
    obtain ⟨first, later⟩ := List.forall_mem_cons.1 stays
    rw [List.cons_append, follow_cons, step_idle directory first]
    exact ih later

/-- What leads somewhere does so without its idle pieces. -/
theorem follow_filter (ok : tree.follow position pieces = .ok next) :
    tree.follow position (pieces.filter (!Path.isIdle ·)) = .ok next := by
  induction pieces generalizing position with
  | nil => exact ok
  | cons piece pieces ih =>
    obtain ⟨middle, stepped, rest⟩ := follow_cons_ok ok
    by_cases idle : Path.isIdle piece = true
    · rw [step_idle (step_cases stepped).1 idle] at stepped
      cases stepped
      rw [List.filter_cons_of_neg (by simp [idle])]
      exact ih rest
    · rw [List.filter_cons_of_pos (by simpa using idle), follow_cons, stepped]
      exact ih rest

/-- No way leads through a position that is no directory, so a file can be put there. -/
theorem follow_put {place : Position} (free : tree.entry? place ≠ some .directory) (entry : Entry)
    (ok : tree.follow position pieces = .ok next) :
    (tree.put place entry).follow position pieces = .ok next := by
  induction pieces generalizing position with
  | nil => exact ok
  | cons piece pieces ih =>
    obtain ⟨middle, stepped, rest⟩ := follow_cons_ok ok
    have apart : position ≠ place := by
      rintro rfl
      exact free (step_cases stepped).1
    rw [follow_cons, step_congr (entry?_put_of_ne apart entry), stepped]
    exact ih rest

/-! ## Positions that a path leads to -/

/-- Everything above the position is a directory. -/
def Rooted (tree : Tree) (position : Position) : Prop :=
  ∀ above, above <+: position → above ≠ position → tree.entry? above = some .directory

theorem Rooted.up (rooted : tree.Rooted position) (directory : tree.entry? position = some .directory) :
    tree.entry? position.dropLast = some .directory := by
  by_cases top : position.dropLast = position
  · rwa [top]
  · exact rooted _ (List.dropLast_prefix position) top

theorem Rooted.step {piece : String} (rooted : tree.Rooted position)
    (ok : tree.step position piece = .ok next) : tree.Rooted next := by
  obtain ⟨directory, ⟨-, rfl⟩ | ⟨-, rfl⟩ | ⟨-, -, rfl⟩⟩ := step_cases ok
  · exact rooted
  · intro above ahead other
    have top : above ≠ position := by
      rintro rfl
      exact other (ahead.eq_of_length_le (by simp))
    exact rooted above (ahead.trans (List.dropLast_prefix position)) top
  · intro above ahead other
    rcases List.prefix_concat_iff.1 ahead with same | ahead
    · exact absurd same other
    · by_cases top : above = position
      · rwa [top]
      · exact rooted above ahead top

theorem Rooted.follow (rooted : tree.Rooted position) (ok : tree.follow position pieces = .ok next) :
    tree.Rooted next := by
  induction pieces generalizing position with
  | nil =>
    cases ok
    exact rooted
  | cons piece pieces ih =>
    obtain ⟨middle, stepped, rest⟩ := follow_cons_ok ok
    exact ih (rooted.step stepped) rest

end Follow

/-! ## Paths in normal form -/

/-- The position from which a path with a root, or without one, is followed. -/
def base (tree : Tree) (root : String) : Position := if root = "" then tree.here else []

theorem base_above (tree : Tree) (root : String) : tree.base root <+: tree.here := by
  unfold base
  split
  · exact List.prefix_rfl
  · exact List.nil_prefix

theorem entry?_base (tree : Tree) (root : String) : tree.entry? (tree.base root) = some .directory :=
  entry?_of_above (tree.base_above root)

theorem rooted_base (tree : Tree) (root : String) : tree.Rooted (tree.base root) := by
  intro above ahead _
  exact entry?_of_above (ahead.trans (tree.base_above root))

/-- A text that the system can take for a path. -/
structure Usable (text : String) : Prop where
  some : text ≠ ""
  plain : '\x00' ∉ text.toList
  short : text.utf8ByteSize ≤ maxPathBytes

theorem locate_of_usable {text : String} (usable : Usable text) :
    tree.locate text = tree.follow (tree.base (Path.rootOf text.toList)) (Path.pieces text) := by
  have plain : ¬ text.contains '\x00' = true := by simpa [String.contains_char_eq] using usable.plain
  unfold locate
  rw [if_neg usable.some, if_neg plain, if_neg (Nat.not_lt.2 usable.short)]
  rfl

theorem usable_of_locate {text : String} (ok : tree.locate text = .ok position) : Usable text := by
  unfold locate at ok
  split at ok
  · cases ok
  · split at ok
    · cases ok
    · split at ok
      · cases ok
      · rename_i some plain short
        exact ⟨some, by simpa [String.contains_char_eq] using plain, Nat.not_lt.1 short⟩

theorem Usable.ofString {text : String} (usable : Usable text) : Usable (Path.ofString text).text := by
  have shorter := Path.text_sublist usable.some
  refine ⟨?_, fun member => usable.plain (shorter.subset member), ?_⟩
  · exact (Path.isNormal_ofString text).text_ne_empty
  · have bytes := String.utf8Len_le_of_sublist shorter
    rw [String.utf8Len_toList, String.utf8Len_toList] at bytes
    exact bytes.trans usable.short

theorem locate_text {path : Path} (normal : path.IsNormal) (usable : Usable path.text) :
    tree.locate path.text = tree.follow (tree.base path.root) path.parts := by
  obtain ⟨idle, stays, cut⟩ := normal.pieces_text
  rw [locate_of_usable usable, normal.rootOf_text, cut, follow_idle_append (tree.entry?_base _) stays]

/-- What a text leads to its normal form leads to. -/
theorem locate_ofString {text : String} (ok : tree.locate text = .ok position) :
    tree.locate (Path.ofString text).text = .ok position := by
  have usable := usable_of_locate ok
  rw [locate_of_usable usable] at ok
  rw [locate_text (Path.isNormal_ofString text) usable.ofString]
  exact follow_filter ok

/-! ## Finding, reading and writing -/

section Access

variable {text : String} {path : Path} {bytes : List UInt8}

theorem find_ok_iff {entry : Entry} :
    tree.find text = .ok entry ↔
      ∃ position, tree.locate text = .ok position ∧ tree.entry? position = some entry := by
  unfold find
  cases tree.locate text with
  | error trouble => simp
  | ok position => cases found : tree.entry? position <;> simp [found]

/-- A file that a text leads to is read by the path of the text. -/
theorem read_ofString (found : tree.find text = .ok (.file bytes)) :
    tree.read (Path.ofString text) = .ok bytes := by
  obtain ⟨position, led, held⟩ := find_ok_iff.1 found
  have again : tree.find (Path.ofString text).text = .ok (.file bytes) :=
    find_ok_iff.2 ⟨position, locate_ofString led, held⟩
  rw [read, again]

theorem write_ok_iff :
    tree.write path bytes = .ok after ↔
      ∃ position, tree.locate path.text = .ok position ∧ tree.entry? position ≠ some .directory ∧
        after = tree.put position (.file bytes) := by
  unfold write
  cases tree.locate path.text with
  | error trouble => simp
  | ok position =>
    cases found : tree.entry? position with
    | none => simp [found, eq_comm]
    | some entry => cases entry <;> simp [found, eq_comm]

/-- Why a file is not written. -/
theorem write_error_iff {trouble : Trouble} :
    tree.write path bytes = .error trouble ↔
      tree.locate path.text = .error trouble ∨
        trouble = .isDirectory ∧ ∃ position, tree.locate path.text = .ok position ∧
          tree.entry? position = some .directory := by
  unfold write
  cases tree.locate path.text with
  | error trouble => simp
  | ok position =>
    cases found : tree.entry? position with
    | none => simp [found]
    | some entry => cases entry <;> simp [found, eq_comm]

theorem locate_put {place : Position} (free : tree.entry? place ≠ some .directory) (entry : Entry)
    (led : tree.locate text = .ok position) : (tree.put place entry).locate text = .ok position := by
  have usable := usable_of_locate led
  rw [locate_of_usable usable] at led ⊢
  exact follow_put free entry led

/-- What was written is read. -/
theorem read_write (wrote : tree.write path bytes = .ok after) : after.read path = .ok bytes := by
  obtain ⟨position, led, free, rfl⟩ := write_ok_iff.1 wrote
  have found : (tree.put position (.file bytes)).find path.text = .ok (.file bytes) :=
    find_ok_iff.2 ⟨position, locate_put free _ led, entry?_put_self free _⟩
  rw [read, found]

/-- Writing changes the entry that the path leads to and no other. -/
theorem entry?_write (wrote : tree.write path bytes = .ok after)
    (changed : after.entry? position ≠ tree.entry? position) :
    tree.locate path.text = .ok position := by
  obtain ⟨place, led, -, rfl⟩ := write_ok_iff.1 wrote
  by_cases same : position = place
  · rwa [same]
  · exact absurd (entry?_put_of_ne same _) changed

/-- A path to a file leads to a directory and, by its last part, to the file in it. -/
theorem exists_parent (normal : path.IsNormal) (led : tree.locate path.text = .ok position)
    (file : tree.entry? position = some (.file bytes)) :
    ∃ front name parent, path.parts = front ++ [name] ∧
      tree.follow (tree.base path.root) front = .ok parent ∧
      tree.entry? parent = some .directory ∧ position = parent ++ [name] := by
  rw [locate_text normal (usable_of_locate led)] at led
  rcases List.eq_nil_or_concat path.parts with none | ⟨front, name, parts⟩
  · rw [none] at led
    cases led
    rw [entry?_base] at file
    cases file
  · rw [List.concat_eq_append] at parts
    rw [parts] at led
    obtain ⟨parent, ahead, stepped⟩ := follow_concat_ok led
    obtain ⟨directory, ⟨idle, -⟩ | ⟨-, rfl⟩ | ⟨-, -, rfl⟩⟩ := step_cases stepped
    · rw [normal.moves name (by simp [parts])] at idle
      cases idle
    · -- A step up leads to a directory.
      rw [((tree.rooted_base path.root).follow ahead).up directory] at file
      cases file
    · exact ⟨front, name, parent, parts, ahead, directory, rfl⟩

/-- The C file of a path lies next to the file that the path leads to. -/
theorem locate_withSuffix (normal : path.IsNormal) {front : List String} {name : String}
    {parent : Position} (parts : path.parts = front ++ [name])
    (ahead : tree.follow (tree.base path.root) front = .ok parent)
    (led : tree.locate (path.withSuffix ".c").text = .ok position) :
    position = parent ++ [Path.nameInC name] := by
  rw [locate_text normal.withSuffix (usable_of_locate led), Path.withSuffix_concat parts] at led
  obtain ⟨middle, again, stepped⟩ := follow_concat_ok led
  rw [ahead] at again
  cases again
  obtain ⟨-, ⟨idle, -⟩ | ⟨up, -⟩ | ⟨-, -, rfl⟩⟩ := step_cases stepped
  · rw [Path.isIdle_nameInC] at idle
    cases idle
  · exact absurd up (Path.nameInC_ne_up name)
  · rfl

end Access

end LineBasic.Tree
