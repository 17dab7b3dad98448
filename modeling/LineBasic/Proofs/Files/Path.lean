import LineBasic.Files.Path
import LineBasic.Proofs.Source.Lines

/-!
# Paths in normal form

`Path.ofString` gives a path in normal form. The text of such a path is cut into its parts again, after
pieces that stay where they are (`IsNormal.pieces_text`), and begins with its root. A path is not longer
than the text that it was made of (`text_sublist`): pieces are left out, and no character is put in.

A suffix begins at the last dot of a name, with something on both sides of the dot (`isStem_iff`). A new suffix
changes the last part of a path and nothing else (`nextTo_iff`), and the part is the same afterwards exactly if
it had the suffix (`nameInC_eq_self_iff`).
-/

namespace LineBasic

set_option autoImplicit false

namespace Text

theorem mark_not_mem_split (mark : Char) (text : List Char) : ∀ part ∈ split mark text, mark ∉ part := by
  induction text with
  | nil => simp [split]
  | cons c text ih =>
    rw [split]
    split
    · exact List.forall_mem_cons.2 ⟨List.not_mem_nil, ih⟩
    · rename_i other
      cases cut : split mark text with
      | nil => simpa using Ne.symm other
      | cons first more =>
        rw [cut] at ih
        obtain ⟨inside, later⟩ := List.forall_mem_cons.1 ih
        refine List.forall_mem_cons.2 ⟨fun member => ?_, later⟩
        rcases List.mem_cons.1 member with same | member
        · exact other same.symm
        · exact inside member

theorem intercalate_split (mark : Char) (text : List Char) : [mark].intercalate (split mark text) = text := by
  rw [split_eq_splitOn, List.intercalate_splitOn]

theorem split_cons_self (mark : Char) (text : List Char) :
    split mark (mark :: text) = [] :: split mark text := by
  simp [split]

/-- Parts that are left out leave a text without their characters and marks. -/
theorem intercalate_filter_sublist (mark : Char) (keeps : List Char → Bool) (parts : List (List Char)) :
    ([mark].intercalate (parts.filter keeps)).Sublist ([mark].intercalate parts) := by
  induction parts with
  | nil => simp
  | cons part parts ih =>
    by_cases last : parts = []
    · subst last
      by_cases kept : keeps part = true
      · simp [kept]
      · simp [kept]
    · rw [List.intercalate_cons_of_ne_nil last]
      by_cases kept : keeps part = true
      · rw [List.filter_cons_of_pos kept]
        by_cases alone : parts.filter keeps = []
        · rw [alone, List.intercalate_singleton, List.append_assoc]
          exact List.sublist_append_left _ _
        · rw [List.intercalate_cons_of_ne_nil alone]
          exact (List.Sublist.refl _).append ih
      · rw [List.filter_cons_of_neg kept]
        exact ih.trans (List.sublist_append_right _ _)

end Text

namespace Path

/-- A path as `ofString` makes it. -/
structure IsNormal (path : Path) : Prop where
  root : path.root = "" ∨ path.root = "/" ∨ path.root = "//"
  moves : ∀ part ∈ path.parts, isIdle part = false
  whole : ∀ part ∈ path.parts, '/' ∉ part.toList

theorem rootOf_cases (text : List Char) : rootOf text = "" ∨ rootOf text = "/" ∨ rootOf text = "//" := by
  unfold rootOf
  split <;> simp

theorem slash_not_mem_pieces (text : String) : ∀ piece ∈ pieces text, '/' ∉ piece.toList := by
  intro piece member
  obtain ⟨part, listed, rfl⟩ := List.mem_map.1 member
  simpa using Text.mark_not_mem_split '/' text.toList part listed

theorem isNormal_ofString (text : String) : (ofString text).IsNormal where
  root := rootOf_cases text.toList
  moves part member := by simpa using (List.mem_filter.1 member).2
  whole part member := slash_not_mem_pieces text part (List.mem_filter.1 member).1

/-! ## The text of a path -/

theorem text_nil {path : Path} (root : path.root = "") (parts : path.parts = []) : path.text = "." := by
  simp [text, root, parts]

theorem text_toList {path : Path} (some : path.root ≠ "" ∨ path.parts ≠ []) :
    path.text.toList = path.root.toList ++ ['/'].intercalate (path.parts.map String.toList) := by
  have other : ¬ (path.root == "" && path.parts.isEmpty) = true := by simpa [imp_iff_not_or] using some
  rw [text, if_neg other, String.toList_append, String.toList_intercalate]
  rfl

/-- A slash at the root cuts off an empty piece. -/
theorem split_root {root : String} (isRoot : root = "" ∨ root = "/" ∨ root = "//") (rest : List Char) :
    ∃ empty, (∀ piece ∈ empty, piece = []) ∧
      Text.split '/' (root.toList ++ rest) = empty ++ Text.split '/' rest := by
  rcases isRoot with rfl | rfl | rfl
  · exact ⟨[], nofun, rfl⟩
  · exact ⟨[[]], by simp, Text.split_cons_self '/' rest⟩
  · refine ⟨[[], []], by simp, ?_⟩
    show Text.split '/' ('/' :: '/' :: rest) = _
    rw [Text.split_cons_self, Text.split_cons_self]
    rfl

theorem isIdle_empty : isIdle (String.ofList []) = true := rfl

variable {path : Path}

/-- The text of a path is cut into its parts, after pieces that stay where they are. -/
theorem IsNormal.pieces_text (normal : path.IsNormal) :
    ∃ idle, (∀ piece ∈ idle, isIdle piece = true) ∧ pieces path.text = idle ++ path.parts := by
  by_cases here : path.root = "" ∧ path.parts = []
  · rw [text_nil here.1 here.2, here.2]
    exact ⟨["."], by simp [isIdle], by decide⟩
  · have some : path.root ≠ "" ∨ path.parts ≠ [] := by simpa [imp_iff_not_or] using here
    obtain ⟨empty, allEmpty, cut⟩ :=
      split_root normal.root (['/'].intercalate (path.parts.map String.toList))
    have idle : ∀ piece ∈ empty.map String.ofList, isIdle piece = true := by
      refine List.forall_mem_map.2 fun piece member => ?_
      rw [allEmpty piece member]
      exact isIdle_empty
    rw [pieces, text_toList some, cut]
    by_cases none : path.parts = []
    · refine ⟨empty.map String.ofList ++ [""], ?_, by simp [none, Text.split]⟩
      exact List.forall_mem_append.2 ⟨idle, by simp [isIdle]⟩
    · refine ⟨empty.map String.ofList, idle, ?_⟩
      have inside : ∀ part ∈ path.parts.map String.toList, '/' ∉ part :=
        List.forall_mem_map.2 normal.whole
      rw [Text.split_intercalate inside (by simpa using none), List.map_append, List.map_map]
      simp

/-- A part that moves begins with a character that is no slash. -/
theorem IsNormal.first_part (normal : path.IsNormal) {first : String} {more : List String}
    (parts : path.parts = first :: more) : ∃ c rest, first.toList = c :: rest ∧ c ≠ '/' := by
  have member : first ∈ path.parts := by simp [parts]
  have moves := normal.moves first member
  have whole := normal.whole first member
  cases letters : first.toList with
  | nil =>
    have empty : first = "" := String.toList_eq_nil_iff.1 letters
    rw [empty] at moves
    cases moves
  | cons c rest =>
    rw [letters] at whole
    exact ⟨c, rest, rfl, fun same => whole (by simp [same])⟩

theorem IsNormal.rootOf_text (normal : path.IsNormal) : rootOf path.text.toList = path.root := by
  by_cases here : path.root = "" ∧ path.parts = []
  · rw [text_nil here.1 here.2, here.1]
    rfl
  · have some : path.root ≠ "" ∨ path.parts ≠ [] := by simpa [imp_iff_not_or] using here
    rw [text_toList some]
    cases parts : path.parts with
    | nil =>
      rcases normal.root with root | root | root
      · exact absurd ⟨root, parts⟩ here
      · rw [root]
        rfl
      · rw [root]
        rfl
    | cons first more =>
      obtain ⟨c, rest, letters, other⟩ := normal.first_part parts
      rw [List.map_cons, letters, List.intercalate_cons_cons_left]
      generalize ['/'].intercalate (rest :: more.map String.toList) = tail
      rcases normal.root with root | root | root
      · rw [root]
        show rootOf (c :: tail) = ""
        simp [rootOf, other]
      · rw [root]
        show rootOf ('/' :: c :: tail) = "/"
        simp [rootOf, other]
      · rw [root]
        show rootOf ('/' :: '/' :: c :: tail) = "//"
        simp [rootOf, other]

theorem IsNormal.text_ne_empty (normal : path.IsNormal) : path.text ≠ "" := by
  intro empty
  have root : path.root = "" := by
    rw [← normal.rootOf_text, empty]
    rfl
  cases parts : path.parts with
  | nil =>
    rw [text_nil root parts] at empty
    exact absurd empty (by decide)
  | cons first more =>
    obtain ⟨idle, -, cut⟩ := normal.pieces_text
    have member : first ∈ pieces path.text := by simp [cut, parts]
    rw [empty] at member
    obtain rfl : first = "" := List.mem_singleton.1 member
    obtain ⟨c, rest, letters, -⟩ := normal.first_part parts
    cases letters

/-! ## The length of a path -/

theorem rootOf_slash (rest : List Char) : rootOf ('/' :: rest) ≠ "" := by
  unfold rootOf
  split
  · decide
  · decide
  · decide
  · rename_i other
    exact absurd rfl (other rest)

theorem exists_behind_root (text : List Char) : ∃ rest, text = (rootOf text).toList ++ rest := by
  unfold rootOf
  split
  · exact ⟨_, rfl⟩
  · exact ⟨_, rfl⟩
  · exact ⟨_, rfl⟩
  · exact ⟨text, rfl⟩

theorem parts_ofString (text : String) :
    (ofString text).parts.map String.toList =
      (Text.split '/' text.toList).filter fun piece => !isIdle (String.ofList piece) := by
  rw [ofString, pieces, List.filter_map, List.map_map]
  simp [Function.comp_def]

/-- A text that does not begin with a slash and has idle pieces alone begins with a dot. -/
theorem dot_of_idle {c : Char} {rest : List Char} (other : c ≠ '/')
    (idle : ∀ piece ∈ Text.split '/' (c :: rest), isIdle (String.ofList piece) = true) : c = '.' := by
  have first : ∃ more, c :: more ∈ Text.split '/' (c :: rest) := by
    rw [Text.split, if_neg other]
    cases Text.split '/' rest with
    | nil => exact ⟨[], by simp⟩
    | cons head tail => exact ⟨head, by simp⟩
  obtain ⟨more, member⟩ := first
  have stays := idle _ member
  simp only [isIdle, Bool.or_eq_true, beq_iff_eq] at stays
  rcases stays with empty | dot
  · simpa using congrArg String.toList empty
  · have letters := congrArg String.toList dot
    rw [String.toList_ofList] at letters
    exact (List.cons.inj letters).1

/-- The text of a path is made of the text that it was read from by leaving out characters. -/
theorem text_sublist {text : String} (some : text ≠ "") :
    (ofString text).text.toList.Sublist text.toList := by
  obtain ⟨rest, cut⟩ := exists_behind_root text.toList
  obtain ⟨empty, allEmpty, pieces⟩ := split_root (rootOf_cases text.toList) rest
  rw [← cut] at pieces
  have parts : (ofString text).parts.map String.toList =
      (Text.split '/' rest).filter fun piece => !isIdle (String.ofList piece) := by
    rw [parts_ofString, pieces, List.filter_append, List.filter_eq_nil_iff.2, List.nil_append]
    intro piece member
    simp [allEmpty piece member, isIdle]
  by_cases here : (ofString text).root = "" ∧ (ofString text).parts = []
  · obtain ⟨c, more, letters⟩ := List.exists_cons_of_ne_nil (mt String.toList_eq_nil_iff.1 some)
    have root : rootOf (c :: more) = "" := letters ▸ here.1
    have other : c ≠ '/' := by
      rintro rfl
      exact rootOf_slash more root
    have idle : ∀ piece ∈ Text.split '/' (c :: more), isIdle (String.ofList piece) = true := by
      have none := parts_ofString text
      rw [here.2, letters] at none
      simpa using List.filter_eq_nil_iff.1 none.symm
    rw [text_nil here.1 here.2, letters, dot_of_idle other idle]
    simp
  · have behind :
        (['/'].intercalate ((ofString text).parts.map String.toList)).Sublist rest := by
      have kept := Text.intercalate_filter_sublist '/'
        (fun piece => !isIdle (String.ofList piece)) (Text.split '/' rest)
      rwa [Text.intercalate_split, ← parts] at kept
    rw [text_toList (by simpa [imp_iff_not_or] using here)]
    conv_rhs => rw [cut]
    exact (List.Sublist.refl _).append behind

/-! ## Suffixes -/

theorem stem_isPrefix (name : List Char) : stem name <+: name := by
  unfold stem
  dsimp only
  split
  · exact List.take_prefix _ _
  · exact List.prefix_rfl

/-- A name, and what is left of it without its suffix. The suffix begins at the last dot, with something before
the dot and something behind it. -/
inductive IsStem : List Char → List Char → Prop
  | suffixed {base ext : List Char} (before : base ≠ []) (behind : ext ≠ []) (last : '.' ∉ ext) :
      IsStem (base ++ '.' :: ext) base
  | bare {name : List Char}
      (bare : ∀ base ext, name = base ++ '.' :: ext → '.' ∉ ext → base = [] ∨ ext = []) : IsStem name name

theorem ne_dot_of_mem_reverse {text : List Char} (dotless : '.' ∉ text) :
    ∀ c ∈ text.reverse, decide (c ≠ '.') = true := by
  intro c member
  rw [decide_eq_true_iff]
  rintro rfl
  exact dotless (List.mem_reverse.1 member)

theorem stem_append_dot {base ext : List Char} (last : '.' ∉ ext) :
    stem (base ++ '.' :: ext) = if ext ≠ [] ∧ base ≠ [] then base else base ++ '.' :: ext := by
  have suffix : ((base ++ '.' :: ext).reverse.takeWhile (· ≠ '.')).length = ext.length := by
    rw [List.reverse_append, List.reverse_cons, List.append_assoc,
      List.takeWhile_append_of_pos (ne_dot_of_mem_reverse last)]
    simp
  have dot : (base ++ '.' :: ext).length - (ext.length + 1) = base.length := by simp
  unfold stem
  dsimp only
  simp only [suffix, dot, List.take_left, List.length_pos_iff]

theorem stem_of_dotless {name : List Char} (dotless : '.' ∉ name) : stem name = name := by
  unfold stem
  dsimp only
  rw [List.takeWhile_eq_self_iff.2 (ne_dot_of_mem_reverse dotless), if_neg (by simp)]

theorem exists_last_dot {name : List Char} (dotted : '.' ∈ name) :
    ∃ base ext, name = base ++ '.' :: ext ∧ '.' ∉ ext := by
  obtain ⟨ext, base, cut, last⟩ := List.eq_append_cons_of_mem (List.mem_reverse.2 dotted)
  refine ⟨base.reverse, ext.reverse, ?_, by rwa [List.mem_reverse]⟩
  rw [List.reverse_eq_iff.1 cut]
  simp

theorem isStem_iff {name base : List Char} : IsStem name base ↔ base = stem name := by
  constructor
  · intro stems
    cases stems with
    | suffixed before behind last => rw [stem_append_dot last, if_pos ⟨behind, before⟩]
    | bare bare =>
      by_cases dotted : '.' ∈ name
      · obtain ⟨base, ext, rfl, last⟩ := exists_last_dot dotted
        rw [stem_append_dot last, if_neg]
        rintro ⟨behind, before⟩
        exact (bare base ext rfl last).elim before behind
      · rw [stem_of_dotless dotted]
  · rintro rfl
    by_cases whole : stem name = name
    · rw [whole]
      refine .bare fun base ext same last => ?_
      subst same
      by_contra both
      obtain ⟨before, behind⟩ := not_or.1 both
      rw [stem_append_dot last, if_pos ⟨behind, before⟩] at whole
      simp at whole
    · have dotted : '.' ∈ name := by
        by_contra dotless
        exact whole (stem_of_dotless dotless)
      obtain ⟨base, ext, rfl, last⟩ := exists_last_dot dotted
      rw [stem_append_dot last] at whole ⊢
      split at whole
      · rename_i both
        rw [if_pos both]
        exact .suffixed both.2 both.1 last
      · exact absurd rfl whole

/-- A name is the same with another suffix exactly if it has that suffix, after something. -/
theorem stem_append_c_iff (name : List Char) :
    stem name ++ ['.', 'c'] = name ↔ ∃ base, base ≠ [] ∧ name = base ++ ['.', 'c'] := by
  constructor
  · intro same
    refine ⟨stem name, ?_, same.symm⟩
    intro empty
    rw [empty] at same
    subst same
    exact absurd empty (by decide)
  · rintro ⟨base, some, rfl⟩
    rw [stem_append_dot (by decide), if_pos ⟨List.cons_ne_nil _ _, some⟩]

/-- The name of a C file for a name. -/
def nameInC (name : String) : String := String.ofList (stem name.toList) ++ ".c"

theorem nameInC_eq_self_iff (name : String) :
    nameInC name = name ↔ ∃ base, base ≠ "" ∧ name = base ++ ".c" := by
  have suffix : ".c".toList = ['.', 'c'] := rfl
  rw [← String.toList_inj, nameInC, String.toList_append, String.toList_ofList, suffix, stem_append_c_iff]
  constructor
  · rintro ⟨base, some, same⟩
    refine ⟨String.ofList base, fun empty => some ?_, ?_⟩
    · simpa using congrArg String.toList empty
    · rw [← String.toList_inj, same, String.toList_append, String.toList_ofList, suffix]
  · rintro ⟨base, some, rfl⟩
    exact ⟨base.toList, mt String.toList_eq_nil_iff.1 some, String.toList_append⟩

theorem nameInC_ne_up (name : String) : nameInC name ≠ ".." := by
  intro same
  have last := congrArg (fun text => text.toList.getLast?) same
  simp [nameInC] at last

theorem isIdle_nameInC (name : String) : isIdle (nameInC name) = false := by
  have last (text : String) (ends : text.toList.getLast? ≠ some 'c') : nameInC name ≠ text := by
    rintro rfl
    exact ends (by simp [nameInC])
  simp [isIdle, last "" (by decide), last "." (by decide)]

theorem slash_not_mem_nameInC {name : String} (whole : '/' ∉ name.toList) : '/' ∉ (nameInC name).toList := by
  intro member
  rw [nameInC, String.toList_append, String.toList_ofList] at member
  rcases List.mem_append.1 member with inside | suffix
  · exact whole ((stem_isPrefix _).subset inside)
  · exact absurd suffix (by decide)

theorem withSuffix_concat {front : List String} {name : String} (parts : path.parts = front ++ [name]) :
    path.withSuffix ".c" = ⟨path.root, front ++ [nameInC name]⟩ := by
  unfold withSuffix
  rw [parts, List.reverse_concat]
  simp [nameInC]

/-- The path of the C file next to a source: its last name has the suffix of a C file, in place of the one it
had. -/
def NextTo (source target : Path) : Prop :=
  ∃ front name base, source.parts = front ++ [name] ∧ IsStem name.toList base ∧
    target = ⟨source.root, front ++ [String.ofList base ++ ".c"]⟩

theorem nextTo_iff {front : List String} {name : String} (parts : path.parts = front ++ [name])
    {target : Path} : path.NextTo target ↔ target = path.withSuffix ".c" := by
  rw [withSuffix_concat parts]
  constructor
  · rintro ⟨others, last, base, same, stems, rfl⟩
    rw [parts] at same
    obtain ⟨rfl, single⟩ := List.append_inj' same rfl
    obtain rfl := List.singleton_inj.1 single
    rw [isStem_iff.1 stems, nameInC]
  · rintro rfl
    exact ⟨front, name, _, parts, isStem_iff.2 rfl, rfl⟩

theorem withSuffix_nil (parts : path.parts = []) : path.withSuffix ".c" = path := by
  unfold withSuffix
  rw [parts]
  rfl

theorem exists_before_name (root : String) (front : List String) :
    ∃ before, ∀ name, (⟨root, front ++ [name]⟩ : Path).text.toList = before ++ name.toList := by
  have joined : ∃ before, ∀ name : String,
      ['/'].intercalate ((front ++ [name]).map String.toList) = before ++ name.toList := by
    induction front with
    | nil => exact ⟨[], by simp⟩
    | cons part front ih =>
      obtain ⟨before, joins⟩ := ih
      refine ⟨part.toList ++ '/' :: before, fun name => ?_⟩
      rw [List.cons_append, List.map_cons, List.intercalate_cons_of_ne_nil (by simp), joins]
      simp
  obtain ⟨before, joins⟩ := joined
  refine ⟨root.toList ++ before, fun name => ?_⟩
  rw [text_toList (.inr (by simp)), joins, List.append_assoc]

/-- A new suffix brings no other characters into a path. -/
theorem mem_text_withSuffix {c : Char} (member : c ∈ (path.withSuffix ".c").text.toList) :
    c ∈ path.text.toList ∨ c = '.' ∨ c = 'c' := by
  rcases List.eq_nil_or_concat path.parts with none | ⟨front, name, parts⟩
  · rw [withSuffix_nil none] at member
    exact .inl member
  · rw [List.concat_eq_append] at parts
    obtain ⟨before, texts⟩ := exists_before_name path.root front
    have same : path = ⟨path.root, front ++ [name]⟩ := by rw [← parts]
    rw [withSuffix_concat parts, texts, nameInC, String.toList_append, String.toList_ofList] at member
    rw [same, texts]
    rcases List.mem_append.1 member with early | late
    · exact .inl (List.mem_append_left _ early)
    rcases List.mem_append.1 late with inside | suffix
    · exact .inl (List.mem_append_right _ ((stem_isPrefix _).subset inside))
    · exact .inr (by simpa using suffix)

theorem IsNormal.withSuffix (normal : path.IsNormal) : (path.withSuffix ".c").IsNormal := by
  rcases List.eq_nil_or_concat path.parts with none | ⟨front, name, parts⟩
  · rwa [withSuffix_nil none]
  · rw [List.concat_eq_append] at parts
    obtain ⟨root, moves, whole⟩ := normal
    rw [parts] at moves whole
    obtain ⟨movesFront, -⟩ := List.forall_mem_append.1 moves
    obtain ⟨wholeFront, wholeLast⟩ := List.forall_mem_append.1 whole
    rw [withSuffix_concat parts]
    refine ⟨root, List.forall_mem_append.2 ⟨movesFront, ?_⟩, List.forall_mem_append.2 ⟨wholeFront, ?_⟩⟩
    · exact List.forall_mem_singleton.2 (isIdle_nameInC name)
    · exact List.forall_mem_singleton.2 (slash_not_mem_nameInC (wholeLast name List.mem_cons_self))

end Path

end LineBasic
