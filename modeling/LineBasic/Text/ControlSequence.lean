/-!
# Control sequences

A terminal takes some runs of characters as commands: the escape character, an opening bracket,
parameter characters, intermediate characters and one final character. A text that goes elsewhere than
to a terminal is written without them.

The three classes of characters have no character in common, so a sequence ends at one place only. A
text is passed over once: what is left may look like a sequence that was not there before, and stays.
-/

namespace LineBasic.Text

set_option autoImplicit false

def isParameter (c : Char) : Bool := '0' ≤ c && c ≤ '?'

def isIntermediate (c : Char) : Bool := ' ' ≤ c && c ≤ '/'

def isFinal (c : Char) : Bool := '@' ≤ c && c ≤ '~'

/-- What follows the control sequence at the beginning of a text, if there is one. -/
def afterSequence? : List Char → Option (List Char)
  | '\x1b' :: '[' :: rest =>
      match (rest.dropWhile isParameter).dropWhile isIntermediate with
      | last :: left => if isFinal last then some left else none
      | [] => none
  | _ => none

theorem length_afterSequence? {text left : List Char} (found : afterSequence? text = some left) :
    left.length < text.length := by
  unfold afterSequence? at found
  split at found
  · rename_i rest
    have inner := (List.dropWhile_sublist isIntermediate (l := rest.dropWhile isParameter)).length_le
    have outer := (List.dropWhile_sublist isParameter (l := rest)).length_le
    split at found
    · rename_i last tail shape
      split at found
      · cases found
        simp only [shape, List.length_cons] at inner
        simp only [List.length_cons]
        omega
      · cases found
    · cases found
  · cases found

/-- A control sequence begins with the escape character. -/
theorem afterSequence?_of_ne {c : Char} (plain : c ≠ '\x1b') (rest : List Char) :
    afterSequence? (c :: rest) = none := by
  unfold afterSequence?
  split
  · simp_all
  · rfl

/-- Removes the control sequences of a text. `done` holds what was kept before, last character first. -/
def removeSequencesFrom (done : List Char) : List Char → List Char
  | [] => done.reverse
  | c :: rest =>
      match found : afterSequence? (c :: rest) with
      | some left =>
          have : left.length < rest.length + 1 := length_afterSequence? found
          removeSequencesFrom done left
      | none => removeSequencesFrom (c :: done) rest
termination_by text => text.length

theorem removeSequencesFrom_of_plain (done text : List Char) (plain : ∀ c ∈ text, c ≠ '\x1b') :
    removeSequencesFrom done text = done.reverse ++ text := by
  induction text generalizing done with
  | nil => simp [removeSequencesFrom]
  | cons c rest ih =>
      have first := afterSequence?_of_ne (plain c List.mem_cons_self) rest
      rw [removeSequencesFrom]
      split
      · simp_all
      · rw [ih _ fun d inRest => plain d (List.mem_cons_of_mem _ inRest)]
        simp

/-- A text without its control sequences. -/
def removeSequences (text : String) : String :=
  String.ofList (removeSequencesFrom [] text.toList)

/-- A text without escape characters is kept as it is. -/
theorem removeSequences_of_plain (text : String) (plain : ∀ c ∈ text.toList, c ≠ '\x1b') :
    removeSequences text = text := by
  simp [removeSequences, removeSequencesFrom_of_plain _ _ plain]

end LineBasic.Text
