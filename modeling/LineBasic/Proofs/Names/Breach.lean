import LineBasic.Proofs.Names.Rules

/-!
# Breaches of the rules of names

`Breaks` says in the words of the rules what is wrong with a token: a name that is reserved where it
stands, a label that was defined before, a variable that no line before it sets. A source may break the
rules in many places; `FirstBreach` is the breach that a reader from left to right meets first, and
`undefinedJump?` the first jump that no label of the whole source answers.

As long as no rule was broken, the breaches of the next token are what `violation?` finds
(`breaks_iff_of_clean`).
-/

namespace LineBasic

set_option autoImplicit false

/-- The variables that the lines before a token set, each once. -/
def variablesSet (before : List Token) : List String :=
  ((inRole .target (finished before)).map (·.text)).eraseDups

/-- A token breaks a rule of names, and this is what is wrong with it. -/
inductive Breaks (before : List Token) (token : Token) : Cause → Prop where
  /-- A variable that is set has a name that the C program cannot use. -/
  | reservedVariable (role : Role.next before = .target)
      (reserved : token.text ∈ Reserved.forVariables) : Breaks before token (.reservedName token.text)
  /-- A label, at its definition or at a jump, has a name that the C program cannot use. -/
  | reservedLabel (role : Role.next before = .label ∨ Role.next before = .jump)
      (reserved : token.text ∈ Reserved.forLabels) : Breaks before token (.reservedName token.text)
  /-- A label is defined again; `first` is its first definition. -/
  | repeated {first : Token} (role : Role.next before = .label)
      (defined : (inRole .label before).find? (·.text = token.text) = some first) :
      Breaks before token (.duplicateLabel token.text (some first.location))
  /-- A variable is read, and no line before sets it. -/
  | unset (role : Role.next before = .plain) (kind : token.kind = .ident)
      (unknown : ∀ target ∈ inRole .target (finished before), target.text ≠ token.text) :
      Breaks before token
        (.undeclaredVariable token.text (similarNames token.text (variablesSet before)))

/-- A token that breaks a rule after tokens that break none. -/
def FirstBreach (tokens : List Token) (token : Token) (cause : Cause) : Prop :=
  ∃ before after, tokens = before ++ token :: after ∧ Breaks before token cause ∧
    Throughout (fun earlier other => ∀ fault, ¬ Breaks earlier other fault) before

/-- The first jump to a label that the tokens do not define. -/
def undefinedJump? (tokens : List Token) : Option Token :=
  (inRole .jump tokens).find? fun jump => (inRole .label tokens).all (·.text ≠ jump.text)

/-! ## What the tables find -/

namespace NameTable

/-- The first entry of a kind was made by the first token of that kind. -/
theorem find?_ofTokens (wanted : String → Bool) (tokens : List Token) :
    ((ofTokens tokens).entries.find? fun entry => wanted entry.1) =
      (tokens.find? fun token => wanted token.text).map fun token => (token.text, token.location) := by
  induction tokens using List.reverseRecOn with
  | nil => rfl
  | append_singleton tokens token ih =>
    rw [ofTokens_concat, note, List.find?_append, Option.map_or, ← ih]
    by_cases known : (ofTokens tokens).has token.text = true
    · rw [if_pos known]
      by_cases hit : wanted token.text = true
      · -- An earlier token of this name was wanted too, so the new one is not the first.
        obtain ⟨other, member, same⟩ := (has_ofTokens tokens token.text).1 known
        have found : (tokens.find? fun token => wanted token.text) ≠ none := by
          intro missing
          exact List.find?_eq_none.1 missing other member (by rw [same, hit])
        obtain ⟨first, found⟩ := Option.ne_none_iff_exists'.1 found
        rw [ih, found, Option.map_some, Option.some_or]
      · simp [hit]
    · rw [if_neg known, List.find?_append]
      by_cases hit : wanted token.text = true <;> simp [hit]

theorem get?_ofTokens (tokens : List Token) (name : String) :
    (ofTokens tokens).get? name = (tokens.find? (·.text = name)).map (·.location) := by
  have lookup (entries : List (String × Location)) :
      entries.lookup name = (entries.find? fun entry => decide (entry.1 = name)).map (·.2) := by
    induction entries with
    | nil => rfl
    | cons entry entries ih =>
      obtain ⟨text, place⟩ := entry
      by_cases same : text = name
      · simp [same]
      · have apart : (name == text) = false := by simpa using fun eq : name = text => same eq.symm
        simp [List.lookup_cons, apart, same, ih]
  rw [get?, lookup, find?_ofTokens fun text => decide (text = name), Option.map_map]
  rfl

end NameTable

theorem names_variablesOf (before : List Token) : (variablesOf before).names = variablesSet before :=
  NameTable.names_ofTokens _

/-! ## Breaches and violations -/

variable {before tokens : List Token} {token : Token} {cause : Cause}

theorem reservedIn?_eq_some_iff {reserved : List String} :
    reservedIn? reserved token = some cause ↔
      token.text ∈ reserved ∧ cause = .reservedName token.text := by
  unfold reservedIn?
  by_cases listed : token.text ∈ reserved
  · simp [listed, eq_comm]
  · simp [listed]

theorem duplicate?_eq_some_iff :
    duplicate? (labelsOf before) token = some cause ↔
      ∃ first, (inRole .label before).find? (·.text = token.text) = some first ∧
        cause = .duplicateLabel token.text (some first.location) := by
  rw [duplicate?, labelsOf, NameTable.get?_ofTokens, Option.map_map, Option.map_eq_some_iff]
  simp only [Function.comp, eq_comm]

theorem undeclared?_eq_some_iff :
    undeclared? (variablesOf before) token = some cause ↔
      token.kind = .ident ∧
        (∀ target ∈ inRole .target (finished before), target.text ≠ token.text) ∧
        cause = .undeclaredVariable token.text (similarNames token.text (variablesSet before)) := by
  have unknown : (variablesOf before).has token.text = false ↔
      ∀ target ∈ inRole .target (finished before), target.text ≠ token.text := by
    rw [← Bool.not_eq_true, variablesOf, NameTable.has_ofTokens]
    simp
  rw [undeclared?, names_variablesOf, ← and_assoc, ← unknown]
  by_cases breaks : token.kind = .ident ∧ (variablesOf before).has token.text = false
  · rw [if_pos breaks]
    simp only [breaks, true_and, Option.some_inj, eq_comm, and_self]
  · rw [if_neg breaks]
    simp only [breaks, false_and, reduceCtorEq]

theorem breaks_of_violation? (found : violation? before token = some cause) :
    Breaks before token cause := by
  unfold violation? at found
  split at found
  · obtain ⟨reserved, rfl⟩ := reservedIn?_eq_some_iff.1 found
    exact .reservedVariable ‹_› reserved
  · obtain ⟨reserved, rfl⟩ := reservedIn?_eq_some_iff.1 found
    exact .reservedLabel (.inr ‹_›) reserved
  · rcases Option.or_eq_some_iff.1 found with found | ⟨-, found⟩
    · obtain ⟨reserved, rfl⟩ := reservedIn?_eq_some_iff.1 found
      exact .reservedLabel (.inl ‹_›) reserved
    · obtain ⟨first, defined, rfl⟩ := duplicate?_eq_some_iff.1 found
      exact .repeated ‹_› defined
  · obtain ⟨kind, unknown, rfl⟩ := undeclared?_eq_some_iff.1 found
    exact .unset ‹_› kind unknown

/-- A label that was defined without a breach is not a reserved name. -/
theorem Clean.label_free (clean : Clean before) {label : Token} (defined : label ∈ inRole .label before) :
    label.text ∉ Reserved.forLabels := by
  obtain ⟨-, -, -, free, -⟩ := (clean_iff before).1 clean
  exact free label defined

/-- Where no rule was broken yet, a breach is what `violation?` finds. -/
theorem breaks_iff_of_clean (clean : Clean before) :
    Breaks before token cause ↔ violation? before token = some cause := by
  refine ⟨fun breaks => ?_, breaks_of_violation?⟩
  cases breaks with
  | reservedVariable role reserved =>
    rw [violation?, role]
    exact reservedIn?_eq_some_iff.2 ⟨reserved, rfl⟩
  | reservedLabel role reserved =>
    have found : reservedIn? Reserved.forLabels token = some (.reservedName token.text) :=
      reservedIn?_eq_some_iff.2 ⟨reserved, rfl⟩
    rcases role with role | role
    · rw [violation?, role]
      simp only [found, Option.some_or]
    · rw [violation?, role]
      exact found
  | @repeated first role defined =>
    -- The first definition has the same name, so this one is not reserved either.
    have same : first.text = token.text := by simpa using List.find?_some defined
    have free := clean.label_free (List.mem_of_find?_eq_some defined)
    rw [same] at free
    rw [violation?, role]
    simp only [(reservedIn?_eq_none_iff _ _).2 free, Option.none_or]
    exact duplicate?_eq_some_iff.2 ⟨first, defined, rfl⟩
  | unset role kind unknown =>
    rw [violation?, role]
    exact undeclared?_eq_some_iff.2 ⟨kind, unknown, rfl⟩

/-- A source is clean if none of its tokens breaks a rule. -/
theorem clean_iff_not_breaks (tokens : List Token) :
    Clean tokens ↔ Throughout (fun before token => ∀ cause, ¬ Breaks before token cause) tokens := by
  induction tokens using List.reverseRecOn with
  | nil => exact iff_of_true clean_nil (throughout_nil _)
  | append_singleton tokens last ih =>
    rw [clean_concat, throughout_concat, ← ih]
    refine and_congr_right fun clean => ?_
    simp only [breaks_iff_of_clean clean, ← Option.eq_none_iff_forall_ne_some]

theorem firstBreach_iff :
    FirstBreach tokens token cause ↔
      ∃ before after, tokens = before ++ token :: after ∧ Clean before ∧
        violation? before token = some cause := by
  unfold FirstBreach
  simp only [← clean_iff_not_breaks]
  constructor
  · rintro ⟨before, after, split, breaks, clean⟩
    exact ⟨before, after, split, clean, (breaks_iff_of_clean clean).1 breaks⟩
  · rintro ⟨before, after, split, clean, found⟩
    exact ⟨before, after, split, breaks_of_violation? found, clean⟩

/-- A source that breaks a rule has a first breach. -/
theorem exists_firstBreach (broken : ¬ Clean tokens) : ∃ token cause, FirstBreach tokens token cause := by
  induction tokens using List.reverseRecOn with
  | nil => exact absurd clean_nil broken
  | append_singleton tokens last ih =>
    by_cases clean : Clean tokens
    · have found : violation? tokens last ≠ none := fun none => broken (clean_concat.2 ⟨clean, none⟩)
      obtain ⟨cause, found⟩ := Option.ne_none_iff_exists'.1 found
      exact ⟨last, cause, firstBreach_iff.2 ⟨tokens, [], rfl, clean, found⟩⟩
    · obtain ⟨token, cause, before, after, split, breaks, earlier⟩ := ih clean
      refine ⟨token, cause, before, after ++ [last], ?_, breaks, earlier⟩
      rw [split, List.append_assoc, List.cons_append]

theorem FirstBreach.not_clean (first : FirstBreach tokens token cause) : ¬ Clean tokens := by
  obtain ⟨before, after, split, -, found⟩ := firstBreach_iff.1 first
  intro clean
  rw [clean before token after split] at found
  cases found

/-- Tokens that break no rule end before the first breach. -/
theorem Clean.length_le {after clear rest : List Token} {other : Token} (clean : Clean clear)
    (found : violation? before token = some cause)
    (same : before ++ token :: after = clear ++ other :: rest) : clear.length ≤ before.length := by
  rcases List.append_eq_append_iff.1 same with ⟨middle, longer, tail⟩ | ⟨middle, shorter, -⟩
  · cases middle with
    | nil => simp [longer]
    | cons head middle =>
      obtain ⟨rfl, -⟩ := List.cons.inj tail
      rw [clean before token middle longer] at found
      cases found
  · simp [shorter]

/-- There is one first breach, and one thing is wrong with it. -/
theorem FirstBreach.unique {other : Token} {fault : Cause} (first : FirstBreach tokens token cause)
    (again : FirstBreach tokens other fault) : other = token ∧ fault = cause := by
  obtain ⟨before, after, split, clean, found⟩ := firstBreach_iff.1 first
  obtain ⟨before', after', split', clean', found'⟩ := firstBreach_iff.1 again
  have same := split.symm.trans split'
  have lengths := Nat.le_antisymm (clean.length_le found' same.symm) (clean'.length_le found same)
  obtain ⟨rfl, tail⟩ := List.append_inj same lengths
  obtain ⟨rfl, -⟩ := List.cons.inj tail
  rw [found] at found'
  exact ⟨rfl, (Option.some.inj found').symm⟩

end LineBasic
