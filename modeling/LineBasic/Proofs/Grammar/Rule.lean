import LineBasic.Pass.Statement

/-!
# The grammar

The grammar is a table of rules: each symbol stands for a rule, made of kinds of tokens and symbols by
sequence, choice, repetition and option. `Derives` says which sequences of kinds a rule derives; it
knows nothing of reading from left to right.

To reason from left to right, `Followed r K` holds of the words that begin with a word of `r` and go on
with a word of `K`. Each form of rule has one law for it, by which the first token of a word decides how
the word can go on.
-/

namespace LineBasic.Grammar

set_option autoImplicit false

inductive Symbol where
  | program
  | statement
  | comparison
  | expression
  | term
  | unary
  | primary
  | newlines
  deriving DecidableEq

inductive Rule where
  | kind (kind : Kind)
  | symbol (symbol : Symbol)
  | sequence (first second : Rule)
  | either (left right : Rule)
  /-- Any number of times, also none. -/
  | many (rule : Rule)
  /-- At least once. -/
  | several (rule : Rule)
  | optional (rule : Rule)
  deriving DecidableEq

namespace Rule

instance : Append Rule := ⟨sequence⟩

instance : OrOp Rule := ⟨either⟩

def keyword (word : Keyword) : Rule := .kind (.keyword word)

def operator (op : Operator) : Rule := .kind (.operator op)

/-- The operators of a comparison. -/
def relation : Rule :=
  operator .equal ||| operator .notEqual ||| operator .greater ||| operator .atLeast |||
    operator .less ||| operator .atMost

def sign : Rule := operator .minus ||| operator .plus

def scale : Rule := operator .divide ||| operator .times

def line : Rule := .symbol .newlines

def statements : Rule := .many (.symbol .statement)

end Rule

open Rule in
/-- The rule that a symbol stands for. -/
def rule : Symbol → Rule
  | .program => .many line ++ statements ++ .kind .eof
  | .statement =>
      keyword .print ++ (.kind .string ||| .symbol .expression) ++ line
        ||| keyword .if_ ++ .symbol .comparison ++ keyword .then_ ++ line ++ statements
          ++ keyword .endif ++ line
        ||| keyword .while_ ++ .symbol .comparison ++ keyword .repeat_ ++ line ++ statements
          ++ keyword .endwhile ++ line
        ||| keyword .label ++ .kind .ident ++ line
        ||| keyword .goto ++ .kind .ident ++ line
        ||| keyword .let_ ++ .kind .ident ++ operator .assign ++ .symbol .expression ++ line
        ||| keyword .input ++ .kind .ident ++ line
  | .comparison => .symbol .expression ++ .several (relation ++ .symbol .expression)
  | .expression => .symbol .term ++ .many (sign ++ .symbol .term)
  | .term => .symbol .unary ++ .many (scale ++ .symbol .unary)
  | .unary => .optional (operator .plus ||| operator .minus) ++ .symbol .primary
  | .primary => .kind .number ||| .kind .ident
  | .newlines => .several (.kind .newline)

/-- The sequences of kinds that a rule derives. -/
inductive Derives : Rule → List Kind → Prop where
  | kind (kind : Kind) : Derives (.kind kind) [kind]
  | symbol {symbol : Symbol} {word : List Kind} (derived : Derives (rule symbol) word) :
      Derives (.symbol symbol) word
  | sequence {r₁ r₂ : Rule} {u v : List Kind} (first : Derives r₁ u) (second : Derives r₂ v) :
      Derives (.sequence r₁ r₂) (u ++ v)
  | left {r₁ r₂ : Rule} {word : List Kind} (derived : Derives r₁ word) :
      Derives (.either r₁ r₂) word
  | right {r₁ r₂ : Rule} {word : List Kind} (derived : Derives r₂ word) :
      Derives (.either r₁ r₂) word
  | none (r : Rule) : Derives (.many r) []
  | more {r : Rule} {u v : List Kind} (first : Derives r u) (rest : Derives (.many r) v) :
      Derives (.many r) (u ++ v)
  | several {r : Rule} {u v : List Kind} (first : Derives r u) (rest : Derives (.many r) v) :
      Derives (.several r) (u ++ v)
  | absent (r : Rule) : Derives (.optional r) []
  | present {r : Rule} {word : List Kind} (derived : Derives r word) :
      Derives (.optional r) word

/-- A word that is the beginning of a program. -/
def Viable (word : List Kind) : Prop :=
  ∃ rest, Derives (.symbol .program) (word ++ rest)

/-! ## Reading from the left -/

abbrev Words := List Kind → Prop

/-- The words that begin with a word of a rule and go on with one of `K`. -/
def Followed (r : Rule) (K : Words) : Words :=
  fun word => ∃ u v, word = u ++ v ∧ Derives r u ∧ K v

/-- The word without any token. -/
def Ended : Words := fun word => word = []

theorem followed_ended (r : Rule) (word : List Kind) : Followed r Ended word ↔ Derives r word := by
  constructor
  · rintro ⟨u, v, rfl, derived, rfl⟩
    rwa [List.append_nil]
  · intro derived
    exact ⟨word, [], (List.append_nil word).symm, derived, rfl⟩

section Laws

variable (r r₁ r₂ : Rule) (K : Words) (k : Kind) (word : List Kind)

theorem followed_kind_nil (kind : Kind) : ¬ Followed (.kind kind) K [] := by
  rintro ⟨u, v, same, derived, -⟩
  cases derived
  cases same

theorem followed_kind_cons (kind : Kind) :
    Followed (.kind kind) K (k :: word) ↔ k = kind ∧ K word := by
  constructor
  · rintro ⟨u, v, same, derived, rest⟩
    cases derived
    cases same
    exact ⟨rfl, rest⟩
  · rintro ⟨rfl, rest⟩
    exact ⟨[k], word, rfl, .kind k, rest⟩

theorem followed_symbol (symbol : Symbol) :
    Followed (.symbol symbol) K = Followed (rule symbol) K := by
  funext word
  apply propext
  constructor
  · rintro ⟨u, v, rfl, derived, rest⟩
    cases derived with
    | symbol derived => exact ⟨u, v, rfl, derived, rest⟩
  · rintro ⟨u, v, rfl, derived, rest⟩
    exact ⟨u, v, rfl, .symbol derived, rest⟩

theorem followed_sequence : Followed (r₁ ++ r₂) K = Followed r₁ (Followed r₂ K) := by
  funext word
  apply propext
  constructor
  · rintro ⟨u, v, rfl, derived, rest⟩
    cases derived with
    | sequence first second =>
      exact ⟨_, _, List.append_assoc .., first, _, _, rfl, second, rest⟩
  · rintro ⟨u, _, rfl, first, v, w, rfl, second, rest⟩
    exact ⟨u ++ v, w, (List.append_assoc ..).symm, .sequence first second, rest⟩

theorem followed_either :
    Followed (r₁ ||| r₂) K word ↔ Followed r₁ K word ∨ Followed r₂ K word := by
  constructor
  · rintro ⟨u, v, rfl, derived, rest⟩
    cases derived with
    | left derived => exact .inl ⟨u, v, rfl, derived, rest⟩
    | right derived => exact .inr ⟨u, v, rfl, derived, rest⟩
  · rintro (⟨u, v, rfl, derived, rest⟩ | ⟨u, v, rfl, derived, rest⟩)
    · exact ⟨u, v, rfl, .left derived, rest⟩
    · exact ⟨u, v, rfl, .right derived, rest⟩

theorem followed_many :
    Followed (.many r) K word ↔ K word ∨ Followed r (Followed (.many r) K) word := by
  constructor
  · rintro ⟨u, v, rfl, derived, rest⟩
    cases derived with
    | none => exact .inl rest
    | more first later => exact .inr ⟨_, _, List.append_assoc .., first, _, _, rfl, later, rest⟩
  · rintro (rest | ⟨u, _, rfl, first, v, w, rfl, later, rest⟩)
    · exact ⟨[], word, rfl, .none r, rest⟩
    · exact ⟨u ++ v, w, (List.append_assoc ..).symm, .more first later, rest⟩

theorem followed_several : Followed (.several r) K = Followed r (Followed (.many r) K) := by
  funext word
  apply propext
  constructor
  · rintro ⟨u, v, rfl, derived, rest⟩
    cases derived with
    | several first later => exact ⟨_, _, List.append_assoc .., first, _, _, rfl, later, rest⟩
  · rintro ⟨u, _, rfl, first, v, w, rfl, later, rest⟩
    exact ⟨u ++ v, w, (List.append_assoc ..).symm, .several first later, rest⟩

theorem followed_optional :
    Followed (.optional r) K word ↔ K word ∨ Followed r K word := by
  constructor
  · rintro ⟨u, v, rfl, derived, rest⟩
    cases derived with
    | absent => exact .inl rest
    | present derived => exact .inr ⟨u, v, rfl, derived, rest⟩
  · rintro (rest | ⟨u, v, rfl, derived, rest⟩)
    · exact ⟨[], word, rfl, .absent r, rest⟩
    · exact ⟨u, v, rfl, .present derived, rest⟩

end Laws

end LineBasic.Grammar
