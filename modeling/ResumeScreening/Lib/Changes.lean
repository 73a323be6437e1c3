/-
A keyed table with a feed of its changes.

A write that leaves the item under its key as it was feeds nothing; any
other feeds the key with the item before and after. A `Fed` history is
a table with the changes that made it, in order. Where no write changes
an item that has reached a state, each key is fed into that state at
most once, and from outside it (`Fed.once`).
-/
import Mathlib.Data.List.Basic

namespace Feed

variable {κ ι : Type} [DecidableEq κ]

structure Change (κ ι : Type) where
  key : κ
  old : Option ι
  new : ι
deriving DecidableEq

/-- The table with an item replaced. -/
def put (table : κ → Option ι) (k : κ) (v : ι) : κ → Option ι :=
  fun k' => if k' = k then some v else table k'

@[simp] theorem put_same {table : κ → Option ι} {k : κ} {v : ι} :
    put table k v k = some v := if_pos rfl

theorem put_ne {table : κ → Option ι} {k k' : κ} {v : ι} (h : k' ≠ k) :
    put table k v k' = table k' := if_neg h

variable [DecidableEq ι]

/-- What a write feeds. -/
def changed (table : κ → Option ι) (k : κ) (v : ι) : List (Change κ ι) :=
  if table k = some v then [] else [⟨k, table k, v⟩]

/-- The tables that writes make from an empty one, with what they feed. -/
inductive Fed (ok : Option ι → ι → Prop) :
    (κ → Option ι) → List (Change κ ι) → Prop
  | start : Fed ok (fun _ => none) []
  | put {table cs} (k : κ) (v : ι) : Fed ok table cs → ok (table k) v →
      Fed ok (put table k v) (cs ++ changed table k v)

/-- No item that has reached `P` changes. -/
def Keeps (P : ι → Bool) (old : Option ι) (new : ι) : Prop :=
  ∀ v, old = some v → P v = true → new = v

/-- The change takes a key into `P`. -/
def into (P : ι → Bool) (k : κ) (c : Change κ ι) : Bool :=
  c.key == k && P c.new

variable {P : ι → Bool} {table : κ → Option ι} {cs : List (Change κ ι)}
  {k : κ} {v : ι}

/-- What a write feeds of a key. -/
theorem countP_changed (k' : κ) :
    (changed table k v).countP (into P k')
      = if k = k' ∧ P v = true ∧ table k ≠ some v then 1 else 0 := by
  unfold changed
  by_cases hsame : table k = some v
  · rw [if_pos hsame, if_neg fun h => h.2.2 hsame]
    rfl
  · rw [if_neg hsame, List.countP_singleton]
    refine if_congr ?_ rfl rfl
    simp [into, hsame]

/-- A key that was fed into `P` is there still. -/
theorem Fed.there (h : Fed (Keeps P) table cs) (k : κ) :
    cs.countP (into P k) ≤ 1
      ∧ (0 < cs.countP (into P k) → ∃ v, table k = some v ∧ P v = true) := by
  induction h with
  | start => exact ⟨Nat.zero_le _, fun h => absurd h (by simp)⟩
  | @put table cs k₀ v₀ _ hok ih =>
      rw [List.countP_append, countP_changed]
      by_cases hk : k₀ = k
      · rw [hk] at hok ⊢
        rw [put_same]
        by_cases hin : 0 < cs.countP (into P k)
        · obtain ⟨v, hv, hP⟩ := ih.2 hin
          have hsame := hok v hv hP
          rw [if_neg fun h => h.2.2 (by rw [hv, hsame])]
          exact ⟨ih.1, fun _ => ⟨v₀, rfl, by rw [hsame]; exact hP⟩⟩
        · have hzero : cs.countP (into P k) = 0 := by omega
          rw [hzero]
          split
          next h => exact ⟨Nat.le_refl _, fun _ => ⟨v₀, rfl, h.2.1⟩⟩
          next h => exact ⟨Nat.zero_le _, fun h => absurd h (by simp)⟩
      · rw [if_neg fun h => hk h.1, put_ne fun h => hk h.symm]
        exact ih

/-- Each key is fed into `P` at most once. -/
theorem Fed.once (h : Fed (Keeps P) table cs) (k : κ) :
    cs.countP (into P k) ≤ 1 :=
  (h.there k).1

/-- And from outside it. -/
theorem Fed.enters (h : Fed (Keeps P) table cs) :
    ∀ c ∈ cs, P c.new = true → ∀ v, c.old = some v → P v = false := by
  induction h with
  | start => exact fun c hc => nomatch hc
  | @put table cs k₀ v₀ _ hok ih =>
      intro c hc hnew v hv
      rcases List.mem_append.mp hc with hold | hadd
      · exact ih c hold hnew v hv
      unfold changed at hadd
      by_cases hsame : table k₀ = some v₀
      · rw [if_pos hsame] at hadd
        cases hadd
      · rw [if_neg hsame, List.mem_singleton] at hadd
        subst hadd
        cases hP : P v with
        | false => rfl
        | true => exact absurd (by rw [hok v hv hP]; exact hv) hsame

end Feed
