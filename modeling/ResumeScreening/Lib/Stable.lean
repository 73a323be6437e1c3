/-
Stable sorting by a key, as a relation between the list and its sorted
form, so that a result says sorted and stable, and not by which
algorithm.

`Stable key xs ys`: `ys` has the elements of `xs`, highest key first,
and elements of one key stand in `ys` in the order they have in `xs`.
The last clause is stated per key, which is what makes the sorted form
unique: `ys` lists the keys downwards, and lists each key's elements as
`xs` does.
-/
import Mathlib.Data.List.Basic
import Mathlib.Order.Lattice

namespace Sorting

variable {α κ : Type} [LinearOrder κ] {key : α → κ} {xs ys : List α}

/-- `ys` is `xs` sorted by descending key, ties in their order in `xs`. -/
structure Stable (key : α → κ) (xs ys : List α) : Prop where
  perm : ys.Perm xs
  sorted : ys.Pairwise fun a b => key b ≤ key a
  ties : ∀ k, (ys.filter fun a => decide (key a = k))
    = xs.filter fun a => decide (key a = k)

/-- Merge sort is stable. -/
theorem stable_mergeSort (key : α → κ) (xs : List α) :
    Stable key xs (xs.mergeSort fun a b => decide (key b ≤ key a)) := by
  have htrans : ∀ a b c : α, decide (key b ≤ key a) = true →
      decide (key c ≤ key b) = true → decide (key c ≤ key a) = true := by
    intro a b c hab hbc
    simp only [decide_eq_true_eq] at hab hbc ⊢
    exact hbc.trans hab
  have htotal : ∀ a b : α,
      (decide (key b ≤ key a) || decide (key a ≤ key b)) = true := by
    intro a b
    simp only [Bool.or_eq_true, decide_eq_true_eq]
    exact le_total _ _
  constructor
  · exact List.mergeSort_perm xs _
  · refine (List.pairwise_mergeSort htrans htotal xs).imp ?_
    intro a b hab
    simpa using hab
  · intro k
    have hpair : (xs.filter fun a => decide (key a = k)).Pairwise
        fun a b => decide (key b ≤ key a) = true := by
      apply List.pairwise_of_forall_mem_list
      intro a ha b hb
      rw [List.mem_filter] at ha hb
      simp only [decide_eq_true_eq] at ha hb ⊢
      rw [ha.2, hb.2]
    have hsub := List.sublist_mergeSort htrans htotal hpair
      List.filter_sublist
    -- one key's elements: a sublist of equal length
    have hsub' := hsub.filter fun a => decide (key a = k)
    rw [List.filter_filter] at hsub'
    simp only [Bool.and_self] at hsub'
    refine (hsub'.eq_of_length ?_).symm
    exact (((List.mergeSort_perm xs _).filter _).length_eq).symm

end Sorting
