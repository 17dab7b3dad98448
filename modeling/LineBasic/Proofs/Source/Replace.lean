import LineBasic.Proofs.Source.Lines

/-!
# Replacing and deleting in a text

`Text.replaceAll` puts one text for another wherever it stands, from the left to the right, and
`Text.deleteLines` takes lines out. A text made of parts can be replaced part by part, as long as what is
replaced does not reach across the seams (`Replaced`).
-/

namespace LineBasic

set_option autoImplicit false

namespace Text

/-! ## Replacing -/

/-- Replaces behind the next `skip` characters, which are dropped. -/
def replaceFrom (old new : List Char) : Nat → List Char → List Char
  | _, [] => []
  | skip + 1, _ :: rest => replaceFrom old new skip rest
  | 0, c :: rest =>
      if old.isPrefixOf (c :: rest) then new ++ replaceFrom old new (old.length - 1) rest
      else c :: replaceFrom old new 0 rest

/-- The text with `new` for each `old` in it. -/
def replaceAll (old new text : List Char) : List Char := replaceFrom old new 0 text

theorem replaceFrom_skip (old new front rest : List Char) :
    replaceFrom old new front.length (front ++ rest) = replaceAll old new rest := by
  induction front with
  | nil => rfl
  | cons c front ih => exact ih

theorem replaceAll_old {old : List Char} (some : old ≠ []) (new rest : List Char) :
    replaceAll old new (old ++ rest) = new ++ replaceAll old new rest := by
  obtain ⟨c, more, rfl⟩ := List.exists_cons_of_ne_nil some
  have found : (c :: more).isPrefixOf (c :: (more ++ rest)) = true :=
    List.isPrefixOf_iff_prefix.2 (List.prefix_append (c :: more) rest)
  rw [List.cons_append, replaceAll, replaceFrom, if_pos found]
  exact congrArg (new ++ ·) (replaceFrom_skip (c :: more) new more rest)

theorem replaceAll_cons {old : List Char} {c : Char} {rest : List Char}
    (apart : ¬ old <+: c :: rest) (new : List Char) :
    replaceAll old new (c :: rest) = c :: replaceAll old new rest := by
  rw [replaceAll, replaceFrom, if_neg fun found => apart (List.isPrefixOf_iff_prefix.1 found)]
  rfl

/-- A text becomes another one by replacing, whatever stands behind it. -/
def Replaced (old new text text' : List Char) : Prop :=
  ∀ rest, replaceAll old new (text ++ rest) = text' ++ replaceAll old new rest

variable {old new : List Char}

theorem Replaced.whole {text text' : List Char} (replaced : Replaced old new text text') :
    replaceAll old new text = text' := by
  have := replaced []
  rwa [List.append_nil, show replaceAll old new [] = [] from rfl, List.append_nil] at this

theorem Replaced.append {front front' back back' : List Char} (first : Replaced old new front front')
    (second : Replaced old new back back') : Replaced old new (front ++ back) (front' ++ back') := by
  intro rest
  rw [List.append_assoc, first, second, List.append_assoc]

theorem replaced_old (some : old ≠ []) : Replaced old new old new := replaceAll_old some new

/-- Nothing is replaced in a text that does not hold the first character. -/
theorem replaced_self {c : Char} {more text : List Char} (begins : old = c :: more)
    (outside : c ∉ text) : Replaced old new text text := by
  intro rest
  induction text with
  | nil => rfl
  | cons d text ih =>
    rw [List.mem_cons, not_or] at outside
    have apart : ¬ old <+: d :: (text ++ rest) := by
      rw [begins, List.cons_prefix_cons]
      exact fun found => outside.1 found.1
    rw [List.cons_append, replaceAll_cons apart, ih outside.2, List.cons_append]

/-- The first character alone is left as it is. -/
theorem replaced_mark {c d e : Char} {more : List Char} (begins : old = c :: d :: more)
    (other : e ≠ d) (outside : e ≠ c) : Replaced old new [c, e] [c, e] := by
  intro rest
  have apart : ¬ old <+: c :: e :: rest := by
    rw [begins, List.cons_prefix_cons, List.cons_prefix_cons]
    exact fun found => other found.2.1.symm
  have later : Replaced old new [e] [e] := replaced_self begins (by simpa using outside.symm)
  rw [List.cons_append, List.cons_append, List.nil_append, replaceAll_cons apart]
  exact congrArg (c :: ·) (later rest)

theorem replaced_unlines {ι : Type} {part part' : ι → List Char} {parts : List ι}
    (newline : Replaced old new ['\n'] ['\n'])
    (each : ∀ item ∈ parts, Replaced old new (part item) (part' item)) :
    Replaced old new (unlines (parts.map part)) (unlines (parts.map part')) := by
  induction parts with
  | nil => exact fun rest => rfl
  | cons item parts ih =>
    obtain ⟨first, later⟩ := List.forall_mem_cons.1 each
    have line := (first.append newline).append (ih later)
    simpa only [unlines, List.map_cons, List.flatMap_cons] using line

/-! ## Deleting lines -/

/-- The text without the lines of a class. -/
def deleteLines (drop : List Char → Bool) (text : List Char) : List Char :=
  ['\n'].intercalate ((lines text).filter fun line => !drop line)

theorem intercalate_concat_nil (parts : List (List Char)) :
    ['\n'].intercalate (parts ++ [[]]) = unlines parts := by
  induction parts with
  | nil => rfl
  | cons part parts ih =>
    obtain ⟨next, more, split⟩ := List.exists_cons_of_ne_nil (List.append_ne_nil_of_right_ne_nil parts
      (List.cons_ne_nil [] []))
    rw [split] at ih
    rw [List.cons_append, split, List.intercalate_cons_cons, ih]
    simp [unlines]

theorem deleteLines_unlines {drop : List Char → Bool} {parts : List (List Char)}
    (inside : ∀ part ∈ parts, '\n' ∉ part) (last : drop [] = false) :
    deleteLines drop (unlines parts) = unlines (parts.filter fun part => !drop part) := by
  rw [deleteLines, lines_unlines inside, List.filter_append, ← intercalate_concat_nil]
  simp [last]

end Text

end LineBasic
