import EntryLint.NameMap
import Mathlib.Tactic.Common

/-!
# Sorted names

`sortNames` puts names in increasing order. A list of names that is strictly increasing is
determined by its members (`eq_of_increasing`).
-/

namespace EntryLint

/-! ## Sorting -/

lemma mem_sortNames {names : List String} {n : String} : n ∈ sortNames names ↔ n ∈ names :=
  List.mem_mergeSort

/-- No name of a sorted list is less than one before it. -/
lemma pairwise_sortNames (names : List String) :
    (sortNames names).Pairwise fun a b => ¬ b < a := by
  have hsorted : (sortNames names).Pairwise fun a b => (!decide (b < a)) = true := by
    apply List.pairwise_mergeSort
    · intro a b c hab hbc
      simp only [Bool.not_eq_true', decide_eq_false_iff_not, String.not_lt] at hab hbc ⊢
      exact String.le_trans hab hbc
    · intro a b
      simp only [Bool.or_eq_true, Bool.not_eq_true', decide_eq_false_iff_not, String.not_lt]
      exact String.le_total a b
  exact hsorted.imp fun h => by simpa using h

/-- Distinct names are strictly increasing once they are sorted. -/
lemma increasing_sortNames {names : List String} (h : names.Nodup) :
    (sortNames names).Pairwise (· < ·) := by
  have hnodup : (sortNames names).Nodup := (List.mergeSort_perm _ _).nodup_iff.mpr h
  apply ((pairwise_sortNames names).and hnodup).imp
  rintro a b ⟨hle, hne⟩
  by_contra hlt
  exact hne (String.le_antisymm (String.not_lt.mp hle) (String.not_lt.mp hlt))

/-! ## Strictly increasing names -/

/-- Two strictly increasing lists with the same members are the same list. -/
lemma eq_of_increasing {xs ys : List String} (hxs : xs.Pairwise (· < ·))
    (hys : ys.Pairwise (· < ·)) (h : ∀ n, n ∈ xs ↔ n ∈ ys) : xs = ys := by
  have hperm : xs.Perm ys := by
    rw [List.perm_ext_iff_of_nodup (hxs.imp String.ne_of_lt) (hys.imp String.ne_of_lt)]
    exact h
  apply hperm.eq_of_pairwise _ hxs hys
  intro a b _ _ hab hba
  exact absurd hba (String.lt_asymm hab)

end EntryLint
