import Mathlib.Data.List.Nodup
import LineBasic.Diagnostic
import LineBasic.Names.Reserved
import LineBasic.Names.Similar
import LineBasic.Proofs.Names.Role

/-!
# The rules of names

A program may read a variable only after a line that sets it, define a label only once, jump only to
labels that it defines, and use no name that the C program cannot use. `WellNamed` states these rules
for the tokens of a whole program.

`violation?` says which rule a token breaks, judged by the tokens before it alone. Tokens that break
none are `Clean`, and a program is well named if it is clean and its jumps have labels
(`wellNamed_iff`): all rules but the last can be checked from left to right.
-/

namespace LineBasic

set_option autoImplicit false

/-- A condition on each token of a list and the tokens before it. -/
def Throughout (holds : List Token → Token → Prop) (tokens : List Token) : Prop :=
  ∀ before token after, tokens = before ++ token :: after → holds before token

theorem throughout_nil (holds : List Token → Token → Prop) : Throughout holds [] := by
  intro before token after split
  exact absurd split (by simp)

theorem throughout_concat {holds : List Token → Token → Prop} {tokens : List Token} {last : Token} :
    Throughout holds (tokens ++ [last]) ↔ Throughout holds tokens ∧ holds tokens last := by
  constructor
  · intro all
    refine ⟨fun before token after split => all before token (after ++ [last]) ?_, all tokens last [] rfl⟩
    rw [split, List.append_assoc, List.cons_append]
  · rintro ⟨earlier, atLast⟩ before token after split
    rcases List.eq_nil_or_concat after with rfl | ⟨middle, final, rfl⟩
    · obtain ⟨rfl, same⟩ := List.append_inj' split rfl
      cases same
      exact atLast
    · rw [List.concat_eq_append, ← List.cons_append, ← List.append_assoc] at split
      exact earlier before token middle (List.append_inj' split rfl).1

theorem throughout_congr {first second : List Token → Token → Prop}
    (same : ∀ before token, first before token ↔ second before token) (tokens : List Token) :
    Throughout first tokens ↔ Throughout second tokens := by
  unfold Throughout
  simp only [same]

theorem throughout_and {first second : List Token → Token → Prop} {tokens : List Token} :
    Throughout (fun before token => first before token ∧ second before token) tokens ↔
      Throughout first tokens ∧ Throughout second tokens := by
  constructor
  · intro both
    exact ⟨fun before token after split => (both before token after split).1,
      fun before token after split => (both before token after split).2⟩
  · rintro ⟨left, right⟩ before token after split
    exact ⟨left before token after split, right before token after split⟩

/-- What holds of all tokens in a role is asked of each where it comes. -/
theorem forall_inRole_iff (role : Role) (P : Token → Prop) (tokens : List Token) :
    (∀ token ∈ inRole role tokens, P token) ↔
      Throughout (fun before token => Role.next before = role → P token) tokens := by
  induction tokens using List.reverseRecOn with
  | nil => exact iff_of_true nofun (throughout_nil _)
  | append_singleton tokens last ih =>
    rw [throughout_concat, inRole_concat, ← ih]
    by_cases named : Role.next tokens = role
    · simp [named, or_imp, forall_and]
    · simp [named]

/-- No two tokens in a role have one text if none has the text of one before it. -/
theorem nodup_inRole_iff (role : Role) (tokens : List Token) :
    ((inRole role tokens).map (·.text)).Nodup ↔
      Throughout (fun before token => Role.next before = role →
        token.text ∉ (inRole role before).map (·.text)) tokens := by
  induction tokens using List.reverseRecOn with
  | nil => exact iff_of_true List.nodup_nil (throughout_nil _)
  | append_singleton tokens last ih =>
    rw [throughout_concat, inRole_concat, ← ih]
    by_cases named : Role.next tokens = role
    · rw [if_pos named, List.map_append, List.map_singleton, ← List.concat_eq_append,
        List.nodup_concat, and_comm, forall_prop_of_true named]
    · rw [if_neg named, List.append_nil, forall_prop_of_false named, and_true]

/-! ## The rules -/

structure WellNamed (tokens : List Token) : Prop where
  /-- A variable is read only after a line that sets it is over. -/
  reads : Throughout (fun before token => Role.next before = .plain → token.kind = .ident →
    ∃ target ∈ inRole .target (finished before), target.text = token.text) tokens
  labelsOnce : ((inRole .label tokens).map (·.text)).Nodup
  jumpsDefined : ∀ jump ∈ inRole .jump tokens, ∃ label ∈ inRole .label tokens, label.text = jump.text
  targetsFree : ∀ target ∈ inRole .target tokens, target.text ∉ Reserved.forVariables
  labelsFree : ∀ label ∈ inRole .label tokens, label.text ∉ Reserved.forLabels
  jumpsFree : ∀ jump ∈ inRole .jump tokens, jump.text ∉ Reserved.forLabels

/-! ## The rules from left to right -/

/-- The variables that are set by the lines that are over. -/
def variablesOf (before : List Token) : NameTable := .ofTokens (inRole .target (finished before))

def labelsOf (before : List Token) : NameTable := .ofTokens (inRole .label before)

def jumpsOf (before : List Token) : NameTable := .ofTokens (inRole .jump before)

def reservedIn? (reserved : List String) (token : Token) : Option Cause :=
  if reserved.contains token.text then some (.reservedName token.text) else none

def duplicate? (labels : NameTable) (token : Token) : Option Cause :=
  (labels.get? token.text).map fun first => .duplicateLabel token.text (some first)

def undeclared? (known : NameTable) (token : Token) : Option Cause :=
  if token.kind = .ident ∧ known.has token.text = false then
    some (.undeclaredVariable token.text (similarNames token.text known.names))
  else none

/-- The rule that a token breaks after the tokens before it. -/
def violation? (before : List Token) (token : Token) : Option Cause :=
  match Role.next before with
  | .target => reservedIn? Reserved.forVariables token
  | .jump => reservedIn? Reserved.forLabels token
  | .label => (reservedIn? Reserved.forLabels token).or (duplicate? (labelsOf before) token)
  | .plain => undeclared? (variablesOf before) token

/-- No token breaks a rule. -/
def Clean (tokens : List Token) : Prop :=
  Throughout (fun before token => violation? before token = none) tokens

theorem clean_nil : Clean [] := throughout_nil _

theorem clean_concat {tokens : List Token} {last : Token} :
    Clean (tokens ++ [last]) ↔ Clean tokens ∧ violation? tokens last = none := throughout_concat

theorem reservedIn?_eq_none_iff (reserved : List String) (token : Token) :
    reservedIn? reserved token = none ↔ token.text ∉ reserved := by
  simp [reservedIn?]

theorem duplicate?_eq_none_iff (before : List Token) (token : Token) :
    duplicate? (labelsOf before) token = none ↔ token.text ∉ (inRole .label before).map (·.text) := by
  rw [duplicate?, Option.map_eq_none_iff, NameTable.get?_eq_none_iff, labelsOf,
    NameTable.names_ofTokens, List.mem_eraseDups]

theorem undeclared?_eq_none_iff (before : List Token) (token : Token) :
    undeclared? (variablesOf before) token = none ↔
      (token.kind = .ident →
        ∃ target ∈ inRole .target (finished before), target.text = token.text) := by
  rw [← NameTable.has_ofTokens]
  unfold undeclared? variablesOf
  cases (NameTable.ofTokens (inRole .target (finished before))).has token.text <;> simp

/-- A token breaks no rule if it keeps those of its role. -/
theorem violation?_eq_none_iff (before : List Token) (token : Token) :
    violation? before token = none ↔
      (Role.next before = .plain → token.kind = .ident →
          ∃ target ∈ inRole .target (finished before), target.text = token.text) ∧
        (Role.next before = .label → token.text ∉ (inRole .label before).map (·.text)) ∧
        (Role.next before = .target → token.text ∉ Reserved.forVariables) ∧
        (Role.next before = .label → token.text ∉ Reserved.forLabels) ∧
        (Role.next before = .jump → token.text ∉ Reserved.forLabels) := by
  unfold violation?
  cases Role.next before with
  | target => simp only [reservedIn?_eq_none_iff, reduceCtorEq, false_imp_iff, true_imp_iff, true_and, and_true]
  | jump => simp only [reservedIn?_eq_none_iff, reduceCtorEq, false_imp_iff, true_imp_iff, true_and]
  | label =>
    rw [Option.or_eq_none_iff, reservedIn?_eq_none_iff, duplicate?_eq_none_iff, and_comm]
    simp only [reduceCtorEq, false_imp_iff, true_imp_iff, true_and, and_true]
  | plain =>
    simp only [undeclared?_eq_none_iff, reduceCtorEq, false_imp_iff, true_imp_iff, and_true]

/-- A source is clean if it keeps the rules that concern no later token. -/
theorem clean_iff (tokens : List Token) :
    Clean tokens ↔
      Throughout (fun before token => Role.next before = .plain → token.kind = .ident →
          ∃ target ∈ inRole .target (finished before), target.text = token.text) tokens ∧
        ((inRole .label tokens).map (·.text)).Nodup ∧
        (∀ target ∈ inRole .target tokens, target.text ∉ Reserved.forVariables) ∧
        (∀ label ∈ inRole .label tokens, label.text ∉ Reserved.forLabels) ∧
        ∀ jump ∈ inRole .jump tokens, jump.text ∉ Reserved.forLabels := by
  rw [nodup_inRole_iff, forall_inRole_iff, forall_inRole_iff, forall_inRole_iff, ← throughout_and,
    ← throughout_and, ← throughout_and, ← throughout_and]
  exact throughout_congr violation?_eq_none_iff tokens

theorem wellNamed_iff (tokens : List Token) :
    WellNamed tokens ↔
      Clean tokens ∧
        ∀ jump ∈ inRole .jump tokens, ∃ label ∈ inRole .label tokens, label.text = jump.text := by
  rw [clean_iff]
  constructor
  · intro named
    exact ⟨⟨named.reads, named.labelsOnce, named.targetsFree, named.labelsFree, named.jumpsFree⟩,
      named.jumpsDefined⟩
  · rintro ⟨⟨reads, labelsOnce, targetsFree, labelsFree, jumpsFree⟩, jumpsDefined⟩
    exact ⟨reads, labelsOnce, jumpsDefined, targetsFree, labelsFree, jumpsFree⟩

end LineBasic
