/-
Texts built by joining lines.

A joined text can hide where a line ends, so two of them may be equal
though their lines differ. They are not if the lines differ where it
shows: `Apart sep a b` says that no continuation by a further line, or by
nothing, makes the two agree.
-/
import Mathlib.Data.List.Basic
import Mathlib.Data.List.Forall2

namespace Lines

variable {α : Type} {sep : List α}

/-- What may follow a line of a joined text. -/
def Tail (sep u : List α) : Prop := u = [] ∨ sep <+: u

/-- Lines that no continuation makes agree. -/
def Apart (sep a b : List α) : Prop :=
  ∀ u v, Tail sep u → Tail sep v → a ++ u ≠ b ++ v

/-- What follows the first line. -/
def following (sep : List α) (ls : List (List α)) : List α :=
  if ls = [] then [] else sep ++ sep.intercalate ls

theorem following_tail (ls : List (List α)) : Tail sep (following sep ls) := by
  unfold following
  split
  · exact .inl rfl
  · exact .inr ⟨_, rfl⟩

theorem intercalate_cons (a : List α) (ls : List (List α)) :
    sep.intercalate (a :: ls) = a ++ following sep ls := by
  unfold following
  cases ls with
  | nil => simp
  | cons b ls => simp

/-- Lines that are apart stay so behind a common text. -/
theorem Apart.behind {a b : List α} (h : Apart sep a b) (front : List α) :
    Apart sep (front ++ a) (front ++ b) := by
  intro u v hu hv heq
  rw [List.append_assoc, List.append_assoc, List.append_cancel_left_eq] at heq
  exact h u v hu hv heq

/-- Where the lines are pairwise the same or apart, the texts agree only
if all lines do. -/
theorem intercalate_eq_iff {ls ls' : List (List α)}
    (h : List.Forall₂ (fun a b => a = b ∨ Apart sep a b) ls ls') :
    sep.intercalate ls = sep.intercalate ls' ↔ ls = ls' := by
  constructor
  · intro heq
    induction h with
    | nil => rfl
    | @cons a b ls ls' hab hrest ih =>
        rw [intercalate_cons, intercalate_cons] at heq
        rcases hab with rfl | hapart
        · rw [List.append_cancel_left_eq] at heq
          rw [ih ?_]
          have hlen := hrest.length_eq
          unfold following at heq
          split at heq
          next hnil =>
            subst hnil
            rw [List.length_nil, eq_comm, List.length_eq_zero_iff] at hlen
            rw [hlen]
          next hne =>
            rw [if_neg, List.append_cancel_left_eq] at heq
            · exact heq
            · rw [← List.length_eq_zero_iff, ← hlen, List.length_eq_zero_iff]
              exact hne
        · exact absurd heq (hapart _ _ (following_tail _) (following_tail _))
  · intro heq
    rw [heq]

end Lines
