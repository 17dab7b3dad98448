import LineBasic.Proofs.Pass.Effect

/-!
# Expressions are written as they are read

A pass builds no tree. Still, each of its steps that returns has read the tokens of a tree and has
written the text of that tree, and a step for an expression has done nothing else (`ReadsItem`).
-/

namespace LineBasic.Pass

set_option autoImplicit false

open Syntax

variable {s r t : State}

theorem primary_reads (done : primary s = .ok () t) :
    ∃ primary : Primary, primary.Reads s.current ∧ Turned [s.current] primary.text s t := by
  unfold primary at done
  obtain ⟨seen, r, got, done⟩ := bind_ok done
  cases got
  cases kind : s.current.kind with
  | number =>
    simp only [kind] at done
    obtain ⟨_, r, wrote, done⟩ := bind_ok done
    cases wrote
    have moved := turned_advance (by simp [kind]) done
    exact ⟨.number _, .number kind, ((turned_write _ s).trans moved).cast rfl String.append_empty⟩
  | ident =>
    simp only [kind] at done
    split at done
    · obtain ⟨_, r, wrote, done⟩ := bind_ok done
      cases wrote
      have moved := turned_advance (by simp [kind]) done
      exact ⟨.name _, .name kind, ((turned_write _ s).trans moved).cast rfl String.append_empty⟩
    · cases done
  | _ =>
    simp only [kind] at done
    cases done

/-- A step that reads the tokens of an item and writes its text. -/
def ReadsItem {ι : Type} (item : List Token → ι → Prop) (text : ι → String) (step : Pass Unit) :
    Prop :=
  ∀ ⦃s t⦄, s.Spelled → step s = .ok () t →
    ∃ tokens value, item tokens value ∧ Turned tokens (text value) s t

theorem sign_of_isSign {kind : Kind} (signs : kind.isSign = true) :
    ∃ sign : Sign, kind = .operator sign.operator := by
  unfold Kind.isSign at signs
  split at signs
  · exact ⟨.plus, rfl⟩
  · exact ⟨.minus, rfl⟩
  · cases signs

theorem scale_of_isScale {kind : Kind} (scales : kind.isScale = true) :
    ∃ scale : Scale, kind = .operator scale.operator := by
  unfold Kind.isScale at scales
  split at scales
  · exact ⟨.times, rfl⟩
  · exact ⟨.divide, rfl⟩
  · cases scales

theorem relation_of_isComparison {kind : Kind} (compares : kind.isComparison = true) :
    ∃ relation : Relation, kind = .operator relation.operator := by
  cases kind with
  | operator op =>
    cases op with
    | equal => exact ⟨.equal, rfl⟩
    | notEqual => exact ⟨.notEqual, rfl⟩
    | greater => exact ⟨.greater, rfl⟩
    | atLeast => exact ⟨.atLeast, rfl⟩
    | less => exact ⟨.less, rfl⟩
    | atMost => exact ⟨.atMost, rfl⟩
    | _ => cases compares
  | _ => cases compares

theorem unary_reads : ReadsItem Operand.Reads Operand.text unary := by
  intro s t spelled done
  unfold unary at done
  obtain ⟨seen, r, got, done⟩ := bind_ok done
  cases got
  split at done
  · rename_i signs
    obtain ⟨sign, kind⟩ := sign_of_isSign signs
    obtain ⟨_, r, wrote, done⟩ := bind_ok done
    cases wrote
    obtain ⟨_, r, moved, done⟩ := bind_ok done
    obtain ⟨_, u, read, done⟩ := bind_ok done
    cases done
    obtain ⟨primary, reads, turned⟩ := primary_reads read
    have first := (turned_write ("(" ++ s.current.text) s).trans
      (turned_advance (by simp [kind]) moved)
    have whole := (first.trans turned).trans (turned_write ")" u)
    rw [spelled.current.operator kind] at whole
    refine ⟨_, ⟨some sign, primary⟩, .signed kind reads, whole.cast rfl ?_⟩
    rw [String.append_empty, Operand.text]
  · obtain ⟨primary, reads, turned⟩ := primary_reads done
    exact ⟨_, ⟨none, primary⟩, .plain reads, turned⟩

section Chains

variable {ρ ι : Type} {operator : ρ → Operator} {joins : Kind → Bool} {stops : joins .eof = false}
  {step : Pass Unit} {steady : Steady step} {item : List Token → ι → Prop} {text : ι → String}

theorem link_reads (joint : ∀ kind, joins kind = true → ∃ j, kind = .operator (operator j))
    (operand : ReadsItem item text step) (spelled : s.Spelled)
    (done : link joins step s = .ok (some ()) t) :
    ∃ tokens j value, item tokens value ∧ s.current.kind = .operator (operator j) ∧
      Turned (s.current :: tokens) ((operator j).spelling ++ text value) s t := by
  unfold link at done
  obtain ⟨seen, r, got, done⟩ := bind_ok done
  cases got
  split at done
  · rename_i joined
    obtain ⟨j, kind⟩ := joint _ joined
    obtain ⟨_, r, wrote, done⟩ := bind_ok done
    cases wrote
    obtain ⟨_, r, moved, done⟩ := bind_ok done
    obtain ⟨_, u, read, done⟩ := bind_ok done
    cases done
    have first := (turned_write s.current.text s).trans (turned_advance (by simp [kind]) moved)
    obtain ⟨tokens, value, reads, turned⟩ := operand (first.spelled spelled) read
    rw [spelled.current.operator kind] at first
    refine ⟨tokens, j, value, reads, kind, (first.trans turned).cast rfl ?_⟩
    rw [String.append_empty]
  · cases done

theorem link_none (done : link joins step s = .ok none t) : t = s ∧ joins s.current.kind = false := by
  unfold link at done
  obtain ⟨seen, r, got, done⟩ := bind_ok done
  cases got
  split at done
  · obtain ⟨_, r, _, done⟩ := bind_ok done
    obtain ⟨_, r, _, done⟩ := bind_ok done
    obtain ⟨_, r, _, done⟩ := bind_ok done
    cases done
  · rename_i apart
    cases done
    exact ⟨rfl, Bool.eq_false_iff.2 apart⟩

theorem chain_reads (joint : ∀ kind, joins kind = true → ∃ j, kind = .operator (operator j))
    (operand : ReadsItem item text step) (spelled : s.Spelled)
    (done : chain joins stops step steady s = .ok () t) :
    ∃ tokens rest, Chain.RestReads operator item tokens rest ∧
      Turned tokens (Chain.restText operator text rest) s t := by
  unfold chain at done
  fun_induction iterate (fun _ : Unit => link joins step) (shrinking_link stops steady) () s with
  | case1 a s r round =>
    cases done
    obtain ⟨rfl, -⟩ := link_none round
    exact ⟨[], [], .nil, .refl _⟩
  | case2 a s b r round ih =>
    obtain ⟨tokens, j, value, reads, kind, first⟩ := link_reads joint operand spelled round
    obtain ⟨later, rest, more, turned⟩ := ih (first.spelled spelled) done
    refine ⟨_, (j, value) :: rest, .cons kind reads more, ?_⟩
    exact first.trans turned
  | case3 => cases done

/-- A chain ends before a token that does not join. -/
theorem chain_stops (done : chain joins stops step steady s = .ok () t) :
    joins t.current.kind = false := by
  unfold chain at done
  fun_induction iterate (fun _ : Unit => link joins step) (shrinking_link stops steady) () s with
  | case1 a s r round =>
    cases done
    obtain ⟨rfl, apart⟩ := link_none round
    exact apart
  | case2 a s b r round ih => exact ih done
  | case3 => cases done

end Chains

theorem term_reads : ReadsItem Term.Reads Term.text term := by
  intro s t spelled done
  unfold term at done
  obtain ⟨_, r, first, done⟩ := bind_ok done
  obtain ⟨tokens, operand, reads, turned⟩ := unary_reads spelled first
  obtain ⟨later, rest, more, joined⟩ :=
    chain_reads (fun _ => scale_of_isScale) unary_reads (turned.spelled spelled) done
  exact ⟨_, ⟨operand, rest⟩, .mk reads more, turned.trans joined⟩

theorem expression_reads : ReadsItem Expression.Reads Expression.text expression := by
  intro s t spelled done
  unfold expression at done
  obtain ⟨_, r, first, done⟩ := bind_ok done
  obtain ⟨tokens, value, reads, turned⟩ := term_reads spelled first
  obtain ⟨later, rest, more, joined⟩ :=
    chain_reads (fun _ => sign_of_isSign) term_reads (turned.spelled spelled) done
  exact ⟨_, ⟨value, rest⟩, .mk reads more, turned.trans joined⟩

theorem comparison_reads (spelled : s.Spelled) (done : comparison s = .ok () t) :
    ∃ tokens, ∃ condition : Condition,
      condition.Reads tokens ∧ Turned tokens condition.text s t := by
  unfold comparison at done
  obtain ⟨_, r, first, done⟩ := bind_ok done
  obtain ⟨seen, u, got, done⟩ := bind_ok done
  cases got
  split at done
  · rename_i compares
    obtain ⟨tokens, value, reads, turned⟩ := expression_reads spelled first
    obtain ⟨later, rest, more, joined⟩ :=
      chain_reads (fun _ => relation_of_isComparison) expression_reads (turned.spelled spelled) done
    have some : rest ≠ [] := by
      rintro rfl
      cases more
      have still := chain_stops done
      rw [joined.current_eq, compares] at still
      cases still
    exact ⟨_, ⟨⟨value, rest⟩, some⟩, .mk reads more, turned.trans joined⟩
  · cases done

end LineBasic.Pass
