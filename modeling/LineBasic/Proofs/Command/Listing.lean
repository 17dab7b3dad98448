import LineBasic.Command.Run
import LineBasic.Proofs.Source.Lines
import LineBasic.Proofs.Text.Quoted
import LineBasic.Proofs.Token.Spelling

/-!
# Listings of tokens are read back

A listing has one line for each token and three fields on each line, with tabs between: the position, the
kind and the quoted text. No field holds a control character (`control_not_mem_fields`), so lines and
fields are found again by cutting at the newlines and the tabs, and each field says what it was made from.
`readListing?` reads a listing in this way, and gets the tokens back (`listing_recovered`); only the name of
the file is not in it.
-/

namespace LineBasic

set_option autoImplicit false

/-! ## Fields -/

/-- What is in none of the parts and is not put between them is not in the whole. -/
theorem not_mem_intercalate {c mark : Char} (other : c ≠ mark) {parts : List (List Char)}
    (inside : ∀ part ∈ parts, c ∉ part) : c ∉ [mark].intercalate parts := by
  induction parts with
  | nil => simp
  | cons part parts ih =>
    obtain ⟨first, later⟩ := List.forall_mem_cons.1 inside
    cases parts with
    | nil => rwa [List.intercalate_singleton]
    | cons next parts =>
      rw [List.intercalate_cons_cons, List.mem_append, List.mem_append, List.mem_singleton]
      rintro ((within | same) | behind)
      · exact first within
      · exact other same
      · exact ih later behind

theorem Kind.ofName?_name (kind : Kind) : ofName? kind.name = some kind := by
  rcases kind with _ | _ | _ | _ | _ | _ | word | op
  case keyword => cases word <;> rfl
  case operator => cases op <;> rfl
  all_goals rfl

theorem Kind.graphic_name (kind : Kind) : kind.name.toList.all (Text.Graphic ·) = true := by
  rcases kind with _ | _ | _ | _ | _ | _ | word | op
  case keyword => cases word <;> decide
  case operator => cases op <;> decide
  all_goals decide

namespace Token

/-- The position of a token, as `line:column`. -/
def position (token : Token) : String := s!"{token.location.line}:{token.location.column}"

/-- What a listing says of a token. -/
def fields (token : Token) : List (List Char) :=
  [token.position.toList, token.kind.name.toList, (Text.quoted token.text).toList]

theorem position_toList (token : Token) :
    token.position.toList = [':'].intercalate
      [(toString token.location.line).toList, (toString token.location.column).toList] := by
  rw [position, String.toList_append, String.toList_append]
  simp only [List.intercalate_cons_cons, List.intercalate_singleton, List.append_assoc]
  rfl

theorem listing_toList (token : Token) : token.listing.toList = ['\t'].intercalate token.fields := by
  rw [listing, fields, position]
  simp only [String.toList_append, List.intercalate_cons_cons, List.intercalate_singleton,
    List.append_assoc]
  rfl

/-- No field holds a control character. -/
theorem control_not_mem_fields {c : Char} (control : c.toNat < 0x20) (token : Token) :
    ∀ field ∈ token.fields, c ∉ field := by
  have number (value : Int) : c ∉ (toString value).toList := by
    intro member
    refine Text.ne_of_mem_int member (d := c) ?_ rfl
    rintro (digit | rfl)
    · have low : 48 ≤ c.toNat := (Char.isDigit_iff_toNat.1 digit).1
      omega
    · exact absurd control (by decide)
  have mark : c ≠ ':' := by
    rintro rfl
    exact absurd control (by decide)
  simp only [fields, List.forall_mem_cons, List.not_mem_nil, false_imp_iff, implies_true, and_true]
  refine ⟨?_, ?_, ?_⟩
  · rw [position_toList]
    apply not_mem_intercalate mark
    simpa using ⟨number token.location.line, number token.location.column⟩
  · intro member
    have graphic := List.all_eq_true.1 token.kind.graphic_name c member
    exact absurd (of_decide_eq_true graphic).1 (Nat.not_le.2 control)
  · rw [Text.quoted, String.toList_ofList]
    exact Text.Quoted.control_not_mem_encode control token.text.toList

/-- A line of a listing is cut into its fields at the tabs. -/
theorem split_listing (token : Token) : Text.split '\t' token.listing.toList = token.fields := by
  rw [listing_toList]
  exact Text.split_intercalate (control_not_mem_fields (by decide) token) (List.cons_ne_nil _ _)

/-- A control character of a listing is a tab. -/
theorem control_not_mem_listing {c : Char} (control : c.toNat < 0x20) (other : c ≠ '\t') (token : Token) :
    c ∉ token.listing.toList := by
  rw [listing_toList]
  exact not_mem_intercalate other (control_not_mem_fields control token)

end Token

/-! ## Reading a listing -/

/-- A token without the name of its file. -/
structure Listed where
  line : Int
  column : Int
  kind : Kind
  text : String
  deriving DecidableEq

def Token.listed (token : Token) : Listed :=
  ⟨token.location.line, token.location.column, token.kind, token.text⟩

/-- The numbers of a position. -/
def position? (text : List Char) : Option (Int × Int) :=
  match Text.split ':' text with
  | [line, column] => some (Nat.ofDigitChars 10 line 0, Nat.ofDigitChars 10 column 0)
  | _ => none

/-- Reads a line of a listing. -/
def listed? (row : List Char) : Option Listed :=
  match Text.split '\t' row with
  | [place, name, text] => do
      let (line, column) ← position? place
      let kind ← Kind.ofName? (String.ofList name)
      return ⟨line, column, kind, String.ofList (Text.Quoted.decode text)⟩
  | _ => none

/-- Reads a whole listing. -/
def readListing? (listing : String) : Option (List Listed) :=
  (Text.lines listing.toList).dropLast.mapM listed?

/-- A token stands at a line and a column that are not negative. -/
def Token.Natural (token : Token) : Prop := 0 ≤ token.location.line ∧ 0 ≤ token.location.column

theorem Scanner.next_natural {sc sc' : Scanner} {token : Token} (step : next sc = .ok token sc') :
    token.Natural := by
  obtain ⟨lexeme, -, rfl, -⟩ := next_ok step
  exact ⟨Int.natCast_nonneg _, Int.natCast_nonneg _⟩

theorem position?_position {token : Token} (natural : token.Natural) :
    position? token.position.toList = some (token.location.line, token.location.column) := by
  have inside (value : Int) : ':' ∉ (toString value).toList := fun member =>
    Text.ne_of_mem_int member (by decide) rfl
  have back {value : Int} (natural : 0 ≤ value) :
      (Nat.ofDigitChars 10 (toString value).toList 0 : Int) = value := by
    rw [Text.int_toList natural, Nat.ofDigitChars_ten_toDigits, Int.toNat_of_nonneg natural]
  rw [position?, Token.position_toList,
    Text.split_intercalate (by simpa using ⟨inside _, inside _⟩) (List.cons_ne_nil _ _)]
  dsimp only
  rw [back natural.1, back natural.2]

theorem listed?_listing {token : Token} (natural : token.Natural) :
    listed? token.listing.toList = some token.listed := by
  rw [listed?, Token.split_listing, Token.fields]
  dsimp only
  rw [position?_position natural, String.ofList_toList, Kind.ofName?_name, Text.quoted,
    String.toList_ofList, Text.Quoted.decode_encode, String.ofList_toList]
  rfl

namespace Command

theorem listTokens_out {file source : String} {stream : Stream}
    (scanned : (Scanner.start file source).stream = stream) (verbose : Bool) :
    (listTokens verbose file source).out = asLines (stream.tokens.map Token.listing) := by
  subst scanned
  unfold listTokens
  dsimp only
  split <;> rfl

theorem asLines_toList (texts : List String) :
    (asLines texts).toList = Text.unlines (texts.map String.toList) := by
  rw [asLines, String.toList_join, Text.unlines, List.flatMap_map, List.flatMap_map]
  simp

theorem lines_listing (tokens : List Token) :
    Text.lines (asLines (tokens.map Token.listing)).toList =
      tokens.map (fun token => token.listing.toList) ++ [[]] := by
  rw [asLines_toList, List.map_map]
  apply Text.lines_unlines
  intro row member
  obtain ⟨token, -, rfl⟩ := List.mem_map.1 member
  exact token.control_not_mem_listing (by decide) (by decide)

theorem readListing?_listing {tokens : List Token} (natural : ∀ token ∈ tokens, token.Natural) :
    readListing? (asLines (tokens.map Token.listing)) = some (tokens.map Token.listed) := by
  rw [readListing?, lines_listing, List.dropLast_concat]
  induction tokens with
  | nil => rfl
  | cons token tokens ih =>
    obtain ⟨first, later⟩ := List.forall_mem_cons.1 natural
    rw [List.map_cons, List.mapM_cons, listed?_listing first, ih later]
    rfl

theorem readListing?_listTokens {file source : String} {stream : Stream}
    (scanned : (Scanner.start file source).stream = stream) (verbose : Bool) :
    readListing? (listTokens verbose file source).out = some (stream.tokens.map Token.listed) := by
  rw [listTokens_out scanned]
  subst scanned
  exact readListing?_listing (Scanner.stream_forall Scanner.next_natural (Scanner.start file source))

/-- A listing holds no control sequence, so it is printed as it is, to a terminal or elsewhere. -/
theorem removeSequences_listing (tokens : List Token) :
    Text.removeSequences (asLines (tokens.map Token.listing)) = asLines (tokens.map Token.listing) := by
  apply Text.removeSequences_of_plain
  rw [asLines_toList, Text.unlines]
  rintro _ member rfl
  obtain ⟨row, listed, member⟩ := List.mem_flatMap.1 member
  rw [List.map_map, List.mem_map] at listed
  obtain ⟨token, -, rfl⟩ := listed
  rcases List.mem_append.1 member with inside | newline
  · exact token.control_not_mem_listing (by decide) (by decide) inside
  · exact absurd newline (by decide)

/-- The listing of a source without faults has one line for each token, with the fields of the token, and
nothing of the tokens is lost in it: whatever sources two equal listings come from, the tokens are the
same, at the same places. -/
theorem listing_recovered {file source : String} {tokens : List Token}
    (scanned : (Scanner.start file source).stream = ⟨tokens, none⟩) (verbose : Bool) :
    (listTokens verbose file source).exitCode = .success ∧
      Text.removeSequences (listTokens verbose file source).out = (listTokens verbose file source).out ∧
      Text.lines (listTokens verbose file source).out.toList =
        tokens.map (fun token => token.listing.toList) ++ [[]] ∧
      (∀ token ∈ tokens, Text.split '\t' token.listing.toList =
        [s!"{token.location.line}:{token.location.column}".toList, token.kind.name.toList,
          (Text.quoted token.text).toList]) ∧
      readListing? (listTokens verbose file source).out = some (tokens.map Token.listed) ∧
      ∀ (otherFile otherSource : String) (others : List Token) (otherVerbose : Bool),
        (Scanner.start otherFile otherSource).stream = ⟨others, none⟩ →
        (listTokens otherVerbose otherFile otherSource).out = (listTokens verbose file source).out →
        others.map Token.listed = tokens.map Token.listed := by
  have recovered := readListing?_listTokens scanned verbose
  refine ⟨?_, ?_, ?_, ?_, recovered, ?_⟩
  · have noFault : (Scanner.start file source).drain.fault = none := congrArg Stream.fault scanned
    unfold listTokens
    dsimp only
    rw [noFault]
  · rw [listTokens_out scanned]
    exact removeSequences_listing tokens
  · rw [listTokens_out scanned]
    exact lines_listing tokens
  · intro token _
    exact token.split_listing
  · intro otherFile otherSource others otherVerbose otherScanned same
    have both := readListing?_listTokens otherScanned otherVerbose
    rw [same, recovered] at both
    exact (Option.some_inj.1 both).symm

/-- A text with an apostrophe, which changes the quotes that it is put in. -/
theorem listing_recovered_apostrophe :
    readListing? (listTokens false "a.teeny" "PRINT \"it's\"").out =
      some [⟨1, 1, .keyword .print, "PRINT"⟩, ⟨1, 7, .string, "it's"⟩, ⟨1, 13, .newline, "\n"⟩,
        ⟨2, 1, .eof, ""⟩] := by
  have scanned : (Scanner.start "a.teeny" "PRINT \"it's\"").stream =
      ⟨[⟨.keyword .print, "PRINT", ⟨"a.teeny", 1, 1⟩⟩, ⟨.string, "it's", ⟨"a.teeny", 1, 7⟩⟩,
        ⟨.newline, "\n", ⟨"a.teeny", 1, 13⟩⟩, ⟨.eof, "", ⟨"a.teeny", 2, 1⟩⟩], none⟩ := by
    decide +kernel
  obtain ⟨-, -, -, -, recovered, -⟩ := listing_recovered scanned false
  exact recovered

end Command

end LineBasic
