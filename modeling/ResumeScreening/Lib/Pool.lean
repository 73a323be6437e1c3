/-
A pool of tasks whose results are collected in task order.

`poolMap f picks xs` runs one task per element of `xs`. Which
outstanding task completes next is not the program's choice: `picks`
names it, by its place among the outstanding ones, so every order of
completion is some `picks`. A task's exception is its outcome and stops
no other task.

`Ran.poolMap` is what a caller needs: whatever the order of
completion, the outcome handed out at an element's place is one that
element's own task ended with.
-/
import ResumeScreening.Lib.Outcome
import Mathlib.Data.List.Forall2

namespace Effect

variable {S : Sig} {M : Machine S} {α β : Type}

namespace Prog

/-- Run a task to its outcome. -/
def attempt (p : Prog S α) : Prog S (Except S.Exn α) :=
  (p.bind fun a => .ret (.ok a)).handle fun x => .ret (.error x)

/-- The outcomes of all tasks, in task order, under an order of
completion. A pick beyond the outstanding tasks picks nothing; when the
picks run out, the rest complete in order. -/
def poolMap (f : β → Prog S α) :
    List Nat → List β → Prog S (List (Except S.Exn α))
  | [], xs => mapEach (fun x => (f x).attempt) xs
  | i :: picks, xs =>
      match xs[i]? with
      | none => poolMap f picks xs
      | some x => (f x).attempt.bind fun o =>
          (poolMap f picks (xs.eraseIdx i)).bind fun os =>
            .ret (os.insertIdx i o)

@[simp] theorem attempt_ret (a : α) :
    (ret a : Prog S α).attempt = .ret (.ok a) := rfl

@[simp] theorem attempt_raise (x : S.Exn) :
    (raise x : Prog S α).attempt = .ret (.error x) := rfl

@[simp] theorem attempt_act (e : S.Act) (k : S.Reply e → Prog S α) :
    (act e k).attempt = .act e fun r => (k r).attempt := rfl

theorem uses_attempt {q : S.Act → Prop} {p : Prog S α} (h : p.Uses q) :
    p.attempt.Uses q :=
  uses_handle (uses_bind h fun _ => trivial) fun _ => trivial

theorem uses_poolMap {q : S.Act → Prop} {f : β → Prog S α}
    (hf : ∀ x, (f x).Uses q) :
    ∀ picks xs, (poolMap f picks xs).Uses q := by
  intro picks
  induction picks with
  | nil => exact fun xs => uses_mapEach (fun x => uses_attempt (hf x)) xs
  | cons i picks ih =>
      intro xs
      unfold poolMap
      cases hx : xs[i]? with
      | none => exact ih xs
      | some x =>
          exact uses_bind (uses_attempt (hf x)) fun o =>
            uses_bind (ih _) fun os => trivial

end Prog

-- ============================================================ list lemmas

/-- Putting back an element and its partner at the place they were taken
from. -/
theorem forall₂_insertIdx {R : β → α → Prop} {x : β} {y : α} (hxy : R x y) :
    ∀ {xs : List β} {ys : List α} {i : Nat}, xs[i]? = some x →
      List.Forall₂ R (xs.eraseIdx i) ys →
      List.Forall₂ R xs (ys.insertIdx i y) := by
  intro xs
  induction xs with
  | nil => exact fun hx _ => nomatch hx
  | cons z xs ih =>
      intro ys i hx h
      cases i with
      | zero =>
          obtain rfl : z = x := by simpa using hx
          rw [List.insertIdx_zero]
          exact .cons hxy h
      | succ i =>
          cases h with
          | cons hz hrest =>
              rw [List.insertIdx_succ_cons]
              exact .cons hz (ih (by simpa using hx) hrest)

-- ================================================================== runs

namespace Ran

open Prog

variable {p : Prog S α} {f : β → Prog S α} {w w' : M.World}
  {tr : List (Event S)}

/-- A finished run of an attempted task is a finished run of the task. -/
theorem attempt {r : Except S.Exn (Except S.Exn α)}
    (h : Ran M p.attempt w tr (some r) w') :
    ∃ o, r = .ok o ∧ Ran M p w tr (some o) w' := by
  induction p generalizing w tr with
  | ret a =>
      obtain ⟨rfl, hr, rfl⟩ := ret_iff.mp h
      exact ⟨.ok a, Option.some.inj hr, .ret⟩
  | raise x =>
      obtain ⟨rfl, hr, rfl⟩ := ret_iff.mp h
      exact ⟨.error x, Option.some.inj hr, .raise⟩
  | act e k ih =>
      cases h with
      | act hadm hrest =>
          obtain ⟨o, hr, hrun⟩ := ih _ hrest
          exact ⟨o, hr, .act hadm hrun⟩

theorem attempt_of {o : Except S.Exn α} (h : Ran M p w tr (some o) w') :
    Ran M p.attempt w tr (some (.ok o)) w' := by
  induction p generalizing w tr with
  | ret a =>
      obtain ⟨rfl, hr, rfl⟩ := ret_iff.mp h
      rw [Option.some.inj hr]
      exact .ret
  | raise x =>
      obtain ⟨rfl, hr, rfl⟩ := raise_iff.mp h
      rw [Option.some.inj hr]
      exact .ret
  | act e k ih =>
      cases h with
      | act hadm hrest => exact .act hadm (ih _ hrest)

/-- The outcome is one the element's task ended with, in a part of the
trace. -/
def Outcome (M : Machine S) (f : β → Prog S α) (tr : List (Event S)) (x : β)
    (o : Except S.Exn α) : Prop :=
  ∃ w₀ tr₀ w₁, tr₀ ⊆ tr ∧ Ran M (f x) w₀ tr₀ (some o) w₁

/-- The event is one of a task that ended with the outcome. -/
def Behind (M : Machine S) (f : β → Prog S α) (ev : Event S)
    (o : Except S.Exn α) : Prop :=
  ∃ x w₀ tr₀ w₁, ev ∈ tr₀ ∧ Ran M (f x) w₀ tr₀ (some o) w₁

/-- The outcomes are the tasks', place by place, and nothing else was
performed. -/
structure Collected (M : Machine S) (f : β → Prog S α) (tr : List (Event S))
    (xs : List β) (os : List (Except S.Exn α)) : Prop where
  outcomes : List.Forall₂ (Outcome M f tr) xs os
  events : ∀ ev ∈ tr, ∃ o ∈ os, Behind M f ev o

theorem Outcome.mono {tr' : List (Event S)} {x : β} {o : Except S.Exn α}
    (h : Outcome M f tr x o) (hsub : tr ⊆ tr') : Outcome M f tr' x o := by
  obtain ⟨w₀, tr₀, w₁, hin, hrun⟩ := h
  exact ⟨w₀, tr₀, w₁, fun _ he => hsub (hin he), hrun⟩

/-- One more task's outcome, put at the task's place. -/
theorem Collected.insert {tr₁ tr₂ : List (Event S)} {xs : List β}
    {os : List (Except S.Exn α)} {i : Nat} {x : β} {o : Except S.Exn α}
    {w w₁ : M.World} (hx : xs[i]? = some x)
    (hone : Ran M (f x) w tr₁ (some o) w₁)
    (h : Collected M f tr₂ (xs.eraseIdx i) os) :
    Collected M f (tr₁ ++ tr₂) xs (os.insertIdx i o) := by
  obtain ⟨hlt, -⟩ := List.getElem?_eq_some_iff.mp hx
  have hlen : i ≤ os.length := by
    rw [← h.outcomes.length_eq, List.length_eraseIdx_of_lt hlt]
    omega
  constructor
  · apply forall₂_insertIdx ?_ hx
    · exact h.outcomes.imp fun _ _ ho => ho.mono (by simp)
    · exact ⟨w, tr₁, w₁, by simp, hone⟩
  · intro ev hev
    simp only [List.mem_insertIdx hlen]
    rcases List.mem_append.mp hev with hev | hev
    · exact ⟨o, .inl rfl, x, w, tr₁, w₁, hev, hone⟩
    · obtain ⟨o', ho', hb⟩ := h.events ev hev
      exact ⟨o', .inr ho', hb⟩

theorem mapEach_attempt : ∀ {xs : List β} {w w' : M.World}
    {tr : List (Event S)} {r : Except S.Exn (List (Except S.Exn α))},
    Ran M (mapEach (fun x => (f x).attempt) xs) w tr (some r) w' →
    ∃ os, r = .ok os ∧ Collected M f tr xs os := by
  intro xs
  induction xs with
  | nil =>
      intro w w' tr r h
      obtain ⟨rfl, hr, -⟩ := ret_iff.mp h
      exact ⟨[], Option.some.inj hr, .nil, fun ev hev => nomatch hev⟩
  | cons x xs ih =>
      intro w w' tr r h
      rcases h.bind_done with ⟨o, tr₁, w₁, tr₂, rfl, hx, hrest⟩ | ⟨y, -, hx⟩
      · obtain ⟨o', ho, hrun⟩ := hx.attempt
        cases ho
        rcases hrest.bind_done with
          ⟨os, tr₃, w₂, tr₄, rfl, hxs, hret⟩ | ⟨y, -, hxs⟩
        · obtain ⟨os', hos, hall⟩ := ih hxs
          cases hos
          obtain ⟨rfl, hr, -⟩ := ret_iff.mp hret
          refine ⟨o :: os, Option.some.inj hr, ?_⟩
          rw [List.append_nil]
          exact Collected.insert (i := 0) rfl hrun hall
        · obtain ⟨os', hos, -⟩ := ih hxs
          cases hos
      · obtain ⟨o', ho, -⟩ := hx.attempt
        cases ho

/-- A pool that finishes hands out, at each element's place, an outcome
of that element's task. -/
theorem poolMap : ∀ {picks : List Nat} {xs : List β} {w w' : M.World}
    {tr : List (Event S)} {r : Except S.Exn (List (Except S.Exn α))},
    Ran M (poolMap f picks xs) w tr (some r) w' →
    ∃ os, r = .ok os ∧ Collected M f tr xs os := by
  intro picks
  induction picks with
  | nil => exact fun h => mapEach_attempt h
  | cons i picks ih =>
      intro xs w w' tr r h
      unfold Prog.poolMap at h
      cases hx : xs[i]? with
      | none =>
          rw [hx] at h
          exact ih h
      | some x =>
          rw [hx] at h
          rcases h.bind_done with ⟨o, tr₁, w₁, tr₂, rfl, hone, hrest⟩ | ⟨y, -, hone⟩
          · obtain ⟨o', ho, hrun⟩ := hone.attempt
            cases ho
            rcases hrest.bind_done with
              ⟨os, tr₃, w₂, tr₄, rfl, hxs, hret⟩ | ⟨y, -, hxs⟩
            · obtain ⟨os', hos, hall⟩ := ih hxs
              cases hos
              obtain ⟨rfl, hr, -⟩ := ret_iff.mp hret
              refine ⟨os.insertIdx i o, Option.some.inj hr, ?_⟩
              rw [List.append_nil]
              exact Collected.insert hx hrun hall
            · obtain ⟨os', hos, -⟩ := ih hxs
              cases hos
          · obtain ⟨o', ho, -⟩ := hone.attempt
            cases ho

/-- Tasks run one after another, all of which return, are a pool's. -/
theorem mapEach_ok {as : List α} {xs : List β}
    (h : Ran M (mapEach f xs) w tr (some (.ok as)) w') :
    Ran M (Prog.poolMap f [] xs) w tr (some (.ok (as.map .ok))) w' := by
  show Ran M (mapEach (fun x => (f x).attempt) xs) w tr _ w'
  induction xs generalizing as w tr with
  | nil =>
      obtain ⟨rfl, hr, rfl⟩ := ret_iff.mp h
      cases hr
      exact .ret
  | cons x xs ih =>
      obtain ⟨a, tr₁, w₁, tr₂, rfl, hx, hrest⟩ := h.bind_ok
      obtain ⟨as', tr₃, w₂, tr₄, rfl, hxs, hret⟩ := hrest.bind_ok
      obtain ⟨rfl, hr, rfl⟩ := ret_iff.mp hret
      cases hr
      exact hx.attempt_of.seq ((ih hxs).seq .ret)

end Ran

end Effect
