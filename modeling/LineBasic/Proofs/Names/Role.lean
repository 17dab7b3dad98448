import Mathlib.Data.List.DropRight
import LineBasic.Names.Table
import LineBasic.Token.Basic

/-!
# The roles of names

What a name stands for shows in the token before it: after `LET` and `INPUT` it is a variable that is
set, after `LABEL` a label that is defined, after `GOTO` a label that is jumped to. `inRole` lists the
tokens of each role in the order of the source, and `NameTable.ofTokens` makes the table that results if
they are entered one by one.
-/

namespace LineBasic

set_option autoImplicit false

/-- What a token is for, by the token before it. -/
inductive Role where
  /-- A variable that is set. -/
  | target
  /-- A label that is defined. -/
  | label
  /-- A label that is jumped to. -/
  | jump
  /-- Anything else. A name is then a variable that is read. -/
  | plain
  deriving DecidableEq

namespace Role

/-- The role of a token that follows one of this kind. -/
def after : Kind → Role
  | .keyword .let_ | .keyword .input => .target
  | .keyword .label => .label
  | .keyword .goto => .jump
  | _ => .plain

/-- The role of a token that follows these. -/
def next (before : List Token) : Role := before.foldl (fun _ token => after token.kind) .plain

@[simp] theorem next_concat (before : List Token) (token : Token) :
    next (before ++ [token]) = after token.kind := by
  simp [next]

end Role

/-- The tokens in a role, the first one being in the role `here`. -/
def inRoleFrom (role here : Role) : List Token → List Token
  | [] => []
  | token :: rest =>
      (if here = role then [token] else []) ++ inRoleFrom role (.after token.kind) rest

/-- The tokens of a source that are in a role. -/
def inRole (role : Role) (tokens : List Token) : List Token := inRoleFrom role .plain tokens

theorem inRoleFrom_append (role here : Role) (before after : List Token) :
    inRoleFrom role here (before ++ after) =
      inRoleFrom role here before
        ++ inRoleFrom role (before.foldl (fun _ token => .after token.kind) here) after := by
  induction before generalizing here with
  | nil => rfl
  | cons token before ih =>
    rw [List.cons_append, inRoleFrom, ih, inRoleFrom, List.foldl_cons, List.append_assoc]

theorem inRole_append (role : Role) (before after : List Token) :
    inRole role (before ++ after) = inRole role before ++ inRoleFrom role (.next before) after :=
  inRoleFrom_append role .plain before after

theorem inRole_concat (role : Role) (before : List Token) (token : Token) :
    inRole role (before ++ [token]) =
      inRole role before ++ if Role.next before = role then [token] else [] := by
  rw [inRole_append, inRoleFrom, inRoleFrom, List.append_nil]

/-- A token in another role adds nothing. -/
theorem inRole_concat_of_ne {role : Role} {before : List Token} (other : Role.next before ≠ role)
    (token : Token) : inRole role (before ++ [token]) = inRole role before := by
  rw [inRole_concat, if_neg other, List.append_nil]

/-- Tokens in a role stand in the order of the source. -/
theorem inRole_sublist (role : Role) (tokens : List Token) : (inRole role tokens).Sublist tokens := by
  have anywhere (here : Role) : (inRoleFrom role here tokens).Sublist tokens := by
    induction tokens generalizing here with
    | nil => exact .slnil
    | cons token rest ih =>
      have head : (if here = role then [token] else []).Sublist [token] := by split <;> simp
      exact head.append (ih (.after token.kind))
  exact anywhere .plain

/-- The lines that are over. -/
def finished (tokens : List Token) : List Token :=
  tokens.rdropWhile fun token => token.kind ≠ .newline

theorem finished_concat_newline (before : List Token) {token : Token} (ends : token.kind = .newline) :
    finished (before ++ [token]) = before ++ [token] :=
  List.rdropWhile_concat_neg _ _ _ (by simp [ends])

theorem finished_concat_other (before : List Token) {token : Token} (more : token.kind ≠ .newline) :
    finished (before ++ [token]) = finished before :=
  List.rdropWhile_concat_pos _ _ _ (by simp [more])

/-! ## Tables of tokens -/

namespace NameTable

/-- The table in which the names of the tokens were entered in turn. -/
def ofTokens (tokens : List Token) : NameTable :=
  tokens.foldl (fun table token => table.note token.text token.location) .empty

theorem ofTokens_concat (tokens : List Token) (token : Token) :
    ofTokens (tokens ++ [token]) = (ofTokens tokens).note token.text token.location := by
  simp [ofTokens]

theorem has_iff (table : NameTable) (name : String) : table.has name = true ↔ name ∈ table.names :=
  List.contains_iff_mem

theorem names_note (table : NameTable) (name : String) (place : Location) :
    (table.note name place).names =
      if name ∈ table.names then table.names else table.names ++ [name] := by
  unfold note
  by_cases known : name ∈ table.names
  · rw [if_pos ((has_iff _ _).2 known), if_pos known]
  · rw [if_neg (mt (has_iff _ _).1 known), if_neg known]
    simp [names]

theorem names_note_of_fresh {table : NameTable} {name : String} (fresh : table.has name = false)
    (place : Location) : (table.note name place).names = table.names ++ [name] := by
  rw [names_note, if_neg]
  rw [← has_iff, fresh]
  exact Bool.false_ne_true

/-- A table holds each name once, where it is first met. -/
theorem names_ofTokens (tokens : List Token) :
    (ofTokens tokens).names = (tokens.map (·.text)).eraseDups := by
  induction tokens using List.reverseRecOn with
  | nil => rfl
  | append_singleton tokens token ih =>
    rw [ofTokens_concat, names_note, ih, List.map_append, List.eraseDups_append]
    have again : token.text ∈ (tokens.map (·.text)).eraseDups ↔ token.text ∈ tokens.map (·.text) :=
      List.mem_eraseDups
    by_cases known : token.text ∈ tokens.map (·.text)
    · rw [if_pos (again.2 known), List.map_singleton, List.removeAll, List.filter_cons_of_neg]
      · simp
      · simpa using known
    · rw [if_neg (mt again.1 known), List.map_singleton, List.removeAll, List.filter_cons_of_pos]
      · simp [List.eraseDups_cons]
      · simpa using known

theorem has_ofTokens (tokens : List Token) (name : String) :
    (ofTokens tokens).has name = true ↔ ∃ token ∈ tokens, token.text = name := by
  rw [has_iff, names_ofTokens, List.mem_eraseDups, List.mem_map]

theorem get?_eq_none_iff (table : NameTable) (name : String) :
    table.get? name = none ↔ name ∉ table.names := by
  unfold get? names
  rw [List.lookup_eq_none_iff]
  simp only [bne_iff_ne, ne_eq, List.mem_map, not_exists, not_and]
  exact ⟨fun apart entry member same => apart entry member same.symm,
    fun apart entry member same => apart entry member same.symm⟩

end NameTable

end LineBasic
