import LineBasic.Text.Casing

/-!
# Lower case

The full lower-case form of a text. Nearly every letter has one lower-case letter, wherever it
stands. Two letters are special: the capital I with a dot becomes an i and a combining dot, and a
capital sigma becomes a final sigma at the end of a word, that is, when a cased letter stands before
it and none after it, ignorable characters skipped.
-/

namespace LineBasic.Text

set_option autoImplicit false

/-- The lower-case form of a character that has one of its own, wherever it stands. -/
def lowerChar (c : Char) : List Char :=
  if c = 'İ' then ['i', '\u0307']
  else
    match upperRuns.find? (·.has c) with
    | some run => [Char.ofNat (c.toNat + run.shift).toNat]
    | none => [c]

/-- The first character of a text that is not ignorable is cased. -/
def meetsCased (text : List Char) : Bool :=
  (text.find? fun c => !caseIgnorableRanges.has c).any casedRanges.has

/-- The lower-case form of the second text, after the characters `before`, last one first. -/
def lowerAfter (before : List Char) : List Char → List Char
  | [] => []
  | c :: rest =>
      let form :=
        if c = 'Σ' then
          [if meetsCased before && !meetsCased rest then 'ς' else 'σ']
        else lowerChar c
      form ++ lowerAfter (c :: before) rest

/-- The lower-case form of a text. -/
def lower (text : List Char) : List Char := lowerAfter [] text

end LineBasic.Text
