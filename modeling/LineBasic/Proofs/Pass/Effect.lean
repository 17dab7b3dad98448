import LineBasic.Proofs.Syntax.Emission

/-!
# What a step does to a state

A step takes tokens off the stream, adds text to the body and changes the tables of names. `Turned`
says that it took the given tokens, added the given text and left the tables as they were, as all steps
inside a line do until its name is entered. Effects of steps in sequence are put together by `trans`.
-/

namespace LineBasic.Pass

set_option autoImplicit false

open Syntax

variable {s r t : State}

/-! ## Steps that read and write -/

/-- The tokens were taken off the stream. -/
structure Took (tokens : List Token) (s t : State) : Prop where
  stream : s.stream.tokens = tokens ++ t.stream.tokens
  fault : t.stream.fault = s.stream.fault
  primed : s.Primed → t.Primed
  source : t.scanner.text = s.scanner.text

/-- The text was added to the body. -/
structure Wrote (text : String) (s t : State) : Prop where
  body : t.output.body.text = s.output.body.text ++ text
  options : t.options = s.options

/-- The tables and the header are as they were. -/
structure Kept (s t : State) : Prop where
  header : t.output.header = s.output.header
  vars : t.vars = s.vars
  labels : t.labels = s.labels
  jumps : t.jumps = s.jumps
  statements : t.statements = s.statements

/-- The tokens were taken and the text was written. -/
structure Emitted (tokens : List Token) (text : String) (s t : State) : Prop
  extends Took tokens s t, Wrote text s t

/-- The tokens were taken, the text was written and nothing else was changed. -/
structure Turned (tokens : List Token) (text : String) (s t : State) : Prop
  extends Emitted tokens text s t, Kept s t

theorem Took.refl (s : State) : Took [] s s := ⟨rfl, rfl, id, rfl⟩

theorem Took.trans {first second : List Token} (left : Took first s r) (right : Took second r t) :
    Took (first ++ second) s t where
  stream := by rw [left.stream, right.stream, List.append_assoc]
  fault := right.fault.trans left.fault
  primed := right.primed ∘ left.primed
  source := right.source.trans left.source

theorem Wrote.refl (s : State) : Wrote "" s s := ⟨String.append_empty.symm, rfl⟩

theorem Wrote.trans {first second : String} (left : Wrote first s r) (right : Wrote second r t) :
    Wrote (first ++ second) s t where
  body := by rw [right.body, left.body, String.append_assoc]
  options := right.options.trans left.options

theorem Kept.refl (s : State) : Kept s s := ⟨rfl, rfl, rfl, rfl, rfl⟩

theorem Kept.trans (left : Kept s r) (right : Kept r t) : Kept s t where
  header := right.header.trans left.header
  vars := right.vars.trans left.vars
  labels := right.labels.trans left.labels
  jumps := right.jumps.trans left.jumps
  statements := right.statements.trans left.statements

theorem Emitted.refl (s : State) : Emitted [] "" s s := ⟨.refl s, .refl s⟩

theorem Emitted.trans {tokens more : List Token} {text rest : String}
    (left : Emitted tokens text s r) (right : Emitted more rest r t) :
    Emitted (tokens ++ more) (text ++ rest) s t :=
  ⟨left.toTook.trans right.toTook, left.toWrote.trans right.toWrote⟩

theorem Emitted.cast {tokens tokens' : List Token} {text text' : String}
    (emitted : Emitted tokens text s t) (sameTokens : tokens = tokens') (sameText : text = text') :
    Emitted tokens' text' s t := by
  subst sameTokens sameText
  exact emitted

theorem Turned.refl (s : State) : Turned [] "" s s := ⟨.refl s, .refl s⟩

theorem Turned.trans {tokens more : List Token} {text rest : String} (left : Turned tokens text s r)
    (right : Turned more rest r t) : Turned (tokens ++ more) (text ++ rest) s t :=
  ⟨left.toEmitted.trans right.toEmitted, left.toKept.trans right.toKept⟩

theorem Turned.cast {tokens tokens' : List Token} {text text' : String}
    (turned : Turned tokens text s t) (sameTokens : tokens = tokens') (sameText : text = text') :
    Turned tokens' text' s t :=
  ⟨turned.toEmitted.cast sameTokens sameText, turned.toKept⟩

/-- Every token of the stream is spelled as its kind demands. -/
def State.Spelled (s : State) : Prop := ∀ token ∈ s.stream.tokens, token.IsSpelled

theorem Took.spelled {tokens : List Token} (took : Took tokens s t) (spelled : s.Spelled) :
    t.Spelled := by
  intro token member
  apply spelled
  rw [took.stream]
  exact List.mem_append_right _ member

theorem State.Spelled.current (spelled : s.Spelled) : s.current.IsSpelled := by
  obtain ⟨later, same⟩ := s.stream_current
  exact spelled _ (same ▸ List.mem_cons_self)

theorem Took.current_eq (took : Took [] s t) : t.current = s.current := by
  obtain ⟨later, same⟩ := s.stream_current
  obtain ⟨later', same'⟩ := t.stream_current
  have := took.stream
  rw [same, same'] at this
  exact (List.cons.inj this).1.symm

theorem turned_advance (more : s.current.kind ≠ .eof) (moved : advance s = .ok () t) :
    Turned [s.current] "" s t := by
  obtain ⟨stream, primed, same, source⟩ := stream_advance moved
  rw [Stream.cons_of_more more] at stream
  refine ⟨⟨⟨?_, ?_, primed, source⟩, ?_⟩, ?_⟩
  · rw [stream]; rfl
  · rw [stream]
  · rw [same]; exact ⟨String.append_empty.symm, rfl⟩
  · rw [same]; exact ⟨rfl, rfl, rfl, rfl, rfl⟩

theorem turned_write (text : String) (s : State) :
    Turned [] text s { s with output := s.output.addBody text } :=
  ⟨⟨⟨rfl, rfl, id, rfl⟩, ⟨rfl, rfl⟩⟩, ⟨rfl, rfl, rfl, rfl, rfl⟩⟩

theorem turned_writeLine (text : String) (s : State) :
    Turned [] (line text) s { s with output := s.output.addBodyLine text } :=
  ⟨⟨⟨rfl, rfl, id, rfl⟩, ⟨rfl, rfl⟩⟩, ⟨rfl, rfl, rfl, rfl, rfl⟩⟩

/-- An expected token was the current one. -/
theorem turned_expect {kind : Kind} {token : Token} (more : kind ≠ .eof)
    (done : expect kind s = .ok token t) :
    token = s.current ∧ token.kind = kind ∧ Turned [token] "" s t := by
  unfold expect at done
  obtain ⟨seen, r, got, done⟩ := bind_ok done
  cases got
  split at done
  · rename_i same
    obtain ⟨_, r, moved, done⟩ := bind_ok done
    cases done
    exact ⟨rfl, same, turned_advance (same ▸ more) moved⟩
  · cases done

end LineBasic.Pass
