import LineBasic.Proofs.Diagnosis.Breach
import LineBasic.Proofs.Token.Lossless

/-!
# Tokens are read on demand

A pass asks for a token only when it moves on, two tokens ahead of what it has taken. It reports the same
faults of the scanner as if all tokens had been read first, since a fault of the grammar or of a name is
found only when the token after the offending one could be read: `Scanner.pull` counts out the steps of a
scanner, and `compile_agrees_with_scan` puts a compilation beside it.
-/

namespace LineBasic

set_option autoImplicit false

open Grammar

namespace Scanner

/-- The tokens of the next `n` steps. At the end of the text each further step hands out the end again. -/
def pull : Nat → Scan (List Token)
  | 0 => pure []
  | n + 1 => do
      let token ← next
      let later ← pull n
      return token :: later

theorem pull_succ_of_ok {sc sc' : Scanner} {token : Token} (step : next sc = .ok token sc') (n : Nat) :
    (∃ tokens last, pull (n + 1) sc = .ok tokens last) ↔ ∃ tokens last, pull n sc' = .ok tokens last := by
  have opened : pull (n + 1) sc = (do let later ← pull n; return token :: later : Scan _) sc' := by
    simp only [pull, bind, EStateM.bind, step]
  rw [opened]
  simp only [bind, EStateM.bind]
  cases pull n sc' with
  | ok tokens last => exact iff_of_true ⟨_, _, rfl⟩ ⟨_, _, rfl⟩
  | error fault last => exact iff_of_false nofun nofun

theorem pull_succ_of_error {sc sc' : Scanner} {fault : Diagnostic} (failed : next sc = .error fault sc')
    (n : Nat) : pull (n + 1) sc = .error fault sc' := by
  simp only [pull, bind, EStateM.bind, failed]

/-- A scanner can be asked any number of times at the end of its text. -/
theorem pull_at_end {sc : Scanner} (ended : sc.cursor.rest = []) (n : Nat) :
    ∃ tokens last, pull n sc = .ok tokens last := by
  induction n with
  | zero => exact ⟨[], sc, rfl⟩
  | succ n ih => exact (pull_succ_of_ok (next_at_end ended) n).2 ih

/-- So many steps succeed as there are tokens before the first fault. -/
theorem pull_ok_iff (sc : Scanner) (n : Nat) :
    (∃ tokens last, pull n sc = .ok tokens last) ↔
      sc.drain.fault = none ∨ n ≤ sc.drain.tokens.length := by
  fun_induction drain sc generalizing n with
  | case1 sc fault sc' failed =>
    cases n with
    | zero => exact iff_of_true ⟨[], sc, rfl⟩ (.inr (Nat.le_refl 0))
    | succ n => simp [pull_succ_of_error failed]
  | case2 sc token sc' step isEnd =>
    refine iff_of_true ?_ (.inl rfl)
    cases n with
    | zero => exact ⟨[], sc, rfl⟩
    | succ n => exact (pull_succ_of_ok step n).2 (pull_at_end (next_end_rest step isEnd) n)
  | case3 sc token sc' step more later ih =>
    cases n with
    | zero => exact iff_of_true ⟨[], sc, rfl⟩ (.inr (Nat.zero_le _))
    | succ n => rw [pull_succ_of_ok step, ih, List.length_cons, Nat.succ_le_succ_iff]

/-- The end is not among the tokens before a fault. -/
theorem stream_more {sc : Scanner} {fault : Diagnostic} (met : sc.stream.fault = some fault) :
    ∀ token ∈ sc.stream.tokens, token.kind ≠ .eof := by
  unfold stream at met ⊢
  dsimp only at met ⊢
  fun_induction drain sc with
  | case1 sc found sc' failed => simp
  | case2 sc token sc' step isEnd => cases met
  | case3 sc token sc' step more later ih => simpa using ⟨more, ih met⟩

/-- A place tells the index of the token that stands there. -/
theorem index_of_location {sc : Scanner} {i j : Nat} {token other : Token}
    (first : sc.stream.tokens[i]? = some token) (second : sc.stream.tokens[j]? = some other)
    (same : token.location = other.location) : i = j := by
  obtain ⟨hi, rfl⟩ := List.getElem?_eq_some_iff.1 first
  obtain ⟨hj, rfl⟩ := List.getElem?_eq_some_iff.1 second
  have sorted := List.pairwise_iff_getElem.1 sc.stream_sorted
  rcases Nat.lt_trichotomy i j with earlier | equal | later
  · exact absurd same (sorted i j hi hj earlier).ne
  · exact equal
  · exact absurd same.symm (sorted j i hj hi later).ne

end Scanner

/-! ## Refusals -/

theorem violation?_phase {before : List Token} {token : Token} {cause : Cause}
    (breaks : violation? before token = some cause) : cause.phase = some .parsing := by
  cases breaks_of_violation? breaks <;> rfl

theorem Grammar.Point.complaint_phase (p : Point) (token : Token) :
    (p.complaint token).phase = some .parsing := by
  unfold complaint
  split <;> rfl

/-- The jump that has no label is a token of the source. -/
theorem exists_jump {tokens : List Token} {name : String} {place : Location}
    (first : (jumpsOf tokens).entries.find? (fun jump => !(labelsOf tokens).has jump.1) =
      some (name, place)) :
    ∃ jump ∈ inRole .jump tokens, jump.text = name ∧ jump.location = place := by
  rw [find?_jumpsOf] at first
  obtain ⟨jump, found, same⟩ := Option.map_eq_some_iff.1 first
  cases same
  exact ⟨jump, List.mem_of_find?_eq_some found, rfl, rfl⟩

/-- A refusal for the grammar or the names points at a token, and the token after it could be read. -/
theorem Refused.located {origin : Scanner} {fault : Diagnostic} (refused : Refused origin fault) :
    origin.stream.fault = some fault ∧ fault.cause.phase = some .scanning ∨
      fault.cause.phase = some .parsing ∧ ∃ before token after,
        origin.stream.tokens = before ++ token :: after ∧ fault.location = some token.location ∧
        (origin.stream.fault = none ∨ after ≠ []) := by
  have further {before after : List Token} {token : Token}
      (split : origin.stream.tokens = before ++ token :: after)
      (ahead : token.kind ≠ .eof → after ≠ []) : origin.stream.fault = none ∨ after ≠ [] := by
    cases met : origin.stream.fault with
    | none => exact .inl rfl
    | some other => exact .inr (ahead (Scanner.stream_more met token (by simp [split])))
  cases refused with
  | unread met => exact .inl ⟨met, Scanner.stream_phase met⟩
  | misplaced split ahead leads stuck =>
    exact .inr ⟨Point.complaint_phase _ _, _, _, _, split, rfl, further split ahead⟩
  | misnamed split ahead clean breaks =>
    exact .inr ⟨violation?_phase breaks, _, _, _, split, rfl, further split ahead⟩
  | unlabelled whole leads clean first =>
    obtain ⟨jump, role, rfl, rfl⟩ := exists_jump first
    obtain ⟨before, after, split⟩ := List.append_of_mem ((inRole_sublist .jump _).subset role)
    exact .inr ⟨rfl, before, jump, after, split, rfl, .inl whole⟩

/-- **Reading on demand neither hides nor invents a fault of the scanner.** What a compilation reports is
the fault of the scan, or it stands at one token of the scan and the steps up to the token after that one
succeed. Where the scan has a fault, the compilation fails. -/
theorem compile_agrees_with_scan (options : Options) (file source : String) :
    let origin := Scanner.start file source
    (∀ fault, compile options file source = .error fault →
      (fault.cause.phase = some .scanning ∧ origin.drain.fault = some fault) ∨
      (fault.cause.phase = some .parsing ∧
        ∃ i token, origin.drain.tokens[i]? = some token ∧ fault.location = some token.location ∧
          (∀ j other, origin.drain.tokens[j]? = some other → other.location = token.location → j = i) ∧
          (∃ tokens last, Scanner.pull (i + 2) origin = .ok tokens last) ∧
          ∀ met, origin.drain.fault = some met → i + 1 < origin.drain.tokens.length)) ∧
    (∀ met, origin.drain.fault = some met →
      ∃ fault, compile options file source = .error fault) := by
  intro origin
  refine ⟨fun fault failed => ?_, fun met found => ?_⟩
  · rcases (refused_of_compile failed).located with ⟨met, scanning⟩ |
      ⟨parsing, before, token, after, split, place, further⟩
    · exact .inl ⟨scanning, met⟩
    · have here : origin.stream.tokens[before.length]? = some token := by
        rw [show origin.stream.tokens = _ from split]
        simp
      have length : origin.stream.tokens.length = before.length + (after.length + 1) := by
        rw [show origin.stream.tokens = _ from split, List.length_append, List.length_cons]
      have ahead (more : after ≠ []) : before.length + 1 < origin.stream.tokens.length := by
        have := List.length_pos_iff.2 more
        omega
      refine .inr ⟨parsing, before.length, token, here, place, ?_, ?_, ?_⟩
      · intro j other there same
        exact Scanner.index_of_location there here same
      · exact (Scanner.pull_ok_iff _ _).2 (further.imp_right ahead)
      · intro met found
        rcases further with whole | more
        · rw [show origin.stream.fault = some met from found] at whole
          cases whole
        · exact ahead more
  · cases ended : compile options file source with
    | error fault => exact ⟨fault, rfl⟩
    | ok result =>
      obtain ⟨-, t, -, -, -, accepted⟩ := accepted_of_compile ended
      rw [show origin.drain.fault = none from accepted.whole] at found
      cases found

/-- A character that begins no token, right behind a misplaced keyword and one token later: it is reported
in the first source and not met in the second. -/
theorem compile_agrees_with_scan_ahead :
    let near := "PRINT PRINT @"
    let far := "PRINT PRINT 1 @"
    (∃ fault, compile {} "near" near = .error fault ∧ fault.cause = .invalidCharacter '@' none ∧
      (Scanner.start "near" near).drain.fault = some fault) ∧
    ∃ fault met, compile {} "far" far = .error fault ∧
      fault.cause = .unexpectedToken "NUMBER or IDENT" "PRINT 'PRINT'" none ∧
      (Scanner.start "far" far).drain.fault = some met ∧
      ∃ i, (∃ tokens last, Scanner.pull (i + 2) (Scanner.start "far" far) = .ok tokens last) ∧
        i + 1 < (Scanner.start "far" far).drain.tokens.length := by
  intro near far
  have first : compile {} "near" near = .error
      ⟨.invalidCharacter '@' none, some ⟨"near", 1, 13⟩, some near⟩ := by
    decide +kernel
  have second : compile {} "far" far = .error
      ⟨.unexpectedToken "NUMBER or IDENT" "PRINT 'PRINT'" none, some ⟨"far", 1, 7⟩, some far⟩ := by
    decide +kernel
  have stops : (Scanner.start "far" far).drain.fault =
      some ⟨.invalidCharacter '@' none, some ⟨"far", 1, 15⟩, some far⟩ := by
    decide +kernel
  refine ⟨⟨_, first, rfl, ?_⟩, _, _, second, rfl, stops, ?_⟩
  · rcases (compile_agrees_with_scan {} "near" near).1 _ first with ⟨-, met⟩ | ⟨parsing, -⟩
    · exact met
    · cases parsing
  · rcases (compile_agrees_with_scan {} "far" far).1 _ second with ⟨scanning, -⟩ |
      ⟨-, i, token, -, -, -, pulled, beyond⟩
    · cases scanning
    · exact ⟨i, pulled, beyond _ stops⟩

end LineBasic
