import Mathlib.Data.String.Basic
import LineBasic.Names.Similar
import LineBasic.Proofs.Text.EditDistance

/-!
# What names are suggested

The names that are suggested for another are the first three of those that are similar to it
(`Similar`), in the order of their code points (`similarNames_closest`). Similarity looks at the two names
alone and treats them alike, and sorting forgets the order in which the candidates come.
-/

namespace LineBasic

set_option autoImplicit false

/-! ## Similarity -/

/-- The same name in other letter case, or a name of nearly the same length that two edits at most turn
into the other, letter case apart. -/
def Similar (name candidate : String) : Prop :=
  Text.lower candidate.toList = Text.lower name.toList ∨
    ((candidate.length : Int) - name.length).natAbs ≤ 1 ∧
      ∃ n ≤ 2, Text.Edits n (Text.lower name.toList) (Text.lower candidate.toList)

theorem Similar.symm {name candidate : String} (similar : Similar name candidate) :
    Similar candidate name := by
  rcases similar with same | ⟨lengths, n, few, edits⟩
  · exact .inl same.symm
  · exact .inr ⟨by omega, n, few, edits.symm⟩

theorem nearLengths_iff (m n : Nat) : nearLengths m n = true ↔ ((m : Int) - n).natAbs ≤ 1 := by
  rw [nearLengths, Bool.and_eq_true, decide_eq_true_iff, decide_eq_true_iff]
  omega

theorem isSimilar_iff {name candidate : String} :
    isSimilar name candidate = true ↔ Similar name candidate := by
  rw [isSimilar, Similar, Bool.or_eq_true, Bool.and_eq_true, beq_iff_eq, nearLengths_iff,
    decide_eq_true_iff, Text.editDistance_le_iff]
  rfl

instance : DecidableRel Similar := fun _ _ => decidable_of_iff _ isSimilar_iff

/-! ## The order of code points -/

def codePoints (text : String) : List Nat := text.toList.map Char.toNat

theorem codePoints_lt {a b : String} (less : a < b) : codePoints a < codePoints b :=
  List.map_lt (fun _ _ less => less) (String.lt_iff_toList_lt.1 less)

theorem codePoints_le_iff {a b : String} : codePoints a ≤ codePoints b ↔ a ≤ b := by
  constructor
  · intro ordered
    by_contra greater
    exact absurd (codePoints_lt (not_le.1 greater)) (not_lt.2 ordered)
  · intro ordered
    rcases ordered.lt_or_eq with less | rfl
    · exact (codePoints_lt less).le
    · exact le_refl _

/-- The candidates in order. -/
def ranked (candidates : List String) : List String := candidates.mergeSort fun a b => decide (a ≤ b)

theorem ranked_perm (candidates : List String) : (ranked candidates).Perm candidates :=
  List.mergeSort_perm _ _

theorem ranked_pairwise (candidates : List String) :
    (ranked candidates).Pairwise fun a b => a ≤ b := by
  have sorted : (ranked candidates).Pairwise fun a b => decide (a ≤ b) = true := by
    apply List.pairwise_mergeSort
    · intro a b c first second
      rw [decide_eq_true_iff] at first second ⊢
      exact le_trans first second
    · intro a b
      rw [Bool.or_eq_true, decide_eq_true_iff, decide_eq_true_iff]
      exact le_total a b
  simpa using sorted

/-- Candidates that come in another order are ranked alike. -/
theorem ranked_congr {candidates others : List String} (same : candidates.Perm others) :
    ranked candidates = ranked others :=
  List.Perm.eq_of_pairwise (fun _ _ _ _ => le_antisymm) (ranked_pairwise candidates)
    (ranked_pairwise others) ((ranked_perm candidates).trans (same.trans (ranked_perm others).symm))

theorem similarNames_eq (name : String) (candidates : List String) :
    similarNames name candidates = ((ranked candidates).filter (Similar name)).take 3 := by
  have same : isSimilar name = fun candidate => decide (Similar name candidate) := by
    funext candidate
    rw [Bool.eq_iff_iff, isSimilar_iff, decide_eq_true_iff]
  rw [similarNames, same]
  rfl

theorem mem_similarNames_singleton {name candidate : String} :
    candidate ∈ similarNames name [candidate] ↔ Similar name candidate := by
  rw [similarNames_eq, ranked, List.mergeSort_singleton]
  by_cases similar : Similar name candidate <;> simp [similar]

/-- The names suggested for another are the first three that are similar to it, in the order of code
points. They do not depend on the order of the candidates, and of two names each suggests the other or
neither does. -/
theorem similarNames_closest (name : String) (candidates : List String) :
    (∃ similar : List String, similar.Perm (candidates.filter (Similar name)) ∧
      similar.Pairwise (fun a b => codePoints a ≤ codePoints b) ∧
      similarNames name candidates = similar.take 3) ∧
    (∀ others, others.Perm candidates → similarNames name others = similarNames name candidates) ∧
    ∀ other, other ∈ similarNames name [other] ↔ name ∈ similarNames other [name] := by
  refine ⟨⟨(ranked candidates).filter (Similar name), ?_, ?_, similarNames_eq name candidates⟩, ?_, ?_⟩
  · exact (ranked_perm candidates).filter _
  · exact ((ranked_pairwise candidates).imp codePoints_le_iff.2).filter _
  · intro others same
    rw [similarNames_eq, similarNames_eq, ranked_congr same]
  · intro other
    rw [mem_similarNames_singleton, mem_similarNames_singleton]
    exact ⟨Similar.symm, Similar.symm⟩

/-- A misspelt name, among the same names in two orders. -/
theorem similarNames_closest_misspelt :
    similarNames "cuont" ["COUNT", "count", "sum"] = ["COUNT", "count"] ∧
      similarNames "cuont" ["sum", "count", "COUNT"] = ["COUNT", "count"] := by
  have sorted : ["COUNT", "count", "sum"].Pairwise fun a b => codePoints a ≤ codePoints b := by
    decide +kernel
  have inOrder : ranked ["COUNT", "count", "sum"] = ["COUNT", "count", "sum"] := by
    apply List.mergeSort_of_pairwise
    simpa only [decide_eq_true_iff] using sorted.imp codePoints_le_iff.1
  have found : similarNames "cuont" ["COUNT", "count", "sum"] = ["COUNT", "count"] := by
    rw [similarNames_eq, inOrder]
    decide +kernel
  obtain ⟨-, anyOrder, -⟩ := similarNames_closest "cuont" ["COUNT", "count", "sum"]
  exact ⟨found, (anyOrder ["sum", "count", "COUNT"] (by decide)).trans found⟩

end LineBasic
