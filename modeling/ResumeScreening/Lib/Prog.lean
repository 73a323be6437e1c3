/-
Programs over an effect signature: the shared syntax of everything this
development executes.

A program is a well-founded tree. A node either returns, raises, or
performs one action and continues with whatever reply comes back — the
reply being an exception as often as a value. Nothing in the tree says
what an action does: that is a `Machine`, which answers an action from
a state of the world and an answer chosen outside the program (a fresh
identifier, a failure, a network reply that got lost).

# One syntax, two readings

- `Prog.run` executes a program alone, under an oracle that supplies
  the outside answers and may kill the program at any action. Claims
  about one call are read off this.
- `Lib/Interleave.lean` steps many programs over one world, one action
  at a time. Claims about concurrency are read off that.

Both consume the same tree, so a function of the source is translated
once.

# The path logic

`Prog.Follows` is the proof principle of both readings: a program
follows a protocol when each action it can perform, under each reply
that action can have, is a move of the protocol from the phase reached
so far. It is defined by recursion on the tree, so it is proved by
reading the program top to bottom, and `follows_bind` and
`follows_handle` cut that reading at function boundaries.
-/
import Mathlib.Logic.Basic

namespace Effect

-- ============================================================ signatures

/-- What a program may do: its actions, the type of each action's
reply, and the exceptions it can see. -/
structure Sig where
  Act : Type
  Ret : Act → Type
  Exn : Type

/-- A reply: the action's value, or an exception. -/
abbrev Sig.Reply (S : Sig) (e : S.Act) : Type := Except S.Exn (S.Ret e)

/-- One performed action together with the reply it got. -/
structure Event (S : Sig) where
  act : S.Act
  reply : S.Reply act

/-- A program returning `α`. -/
inductive Prog (S : Sig) (α : Type) : Type
  | ret (a : α)
  | raise (x : S.Exn)
  | act (e : S.Act) (k : S.Reply e → Prog S α)

namespace Prog

variable {S : Sig} {α β γ : Type}

/-- Sequencing: the continuation runs on a value and is skipped by an
exception. -/
def bind : Prog S α → (α → Prog S β) → Prog S β
  | .ret a, f => f a
  | .raise x, _ => .raise x
  | .act e k, f => .act e fun r => (k r).bind f

/-- Exception handling: the handler runs on an exception and is skipped
by a value. -/
def handle : Prog S α → (S.Exn → Prog S α) → Prog S α
  | .ret a, _ => .ret a
  | .raise x, h => h x
  | .act e k, h => .act e fun r => (k r).handle h

instance : Monad (Prog S) where
  pure := .ret
  bind := bind

/-- Perform one action, re-raising the exception it replies with. -/
def perform (e : S.Act) : Prog S (S.Ret e) :=
  .act e fun
    | .ok v => .ret v
    | .error x => .raise x

/-- Enter a program from a pure computation that may fail. -/
def ofExcept : Except S.Exn α → Prog S α
  | .ok a => .ret a
  | .error x => .raise x

/-- Run `f` on each element in turn, stopping at the first exception. -/
def forEach (f : β → Prog S Unit) : List β → Prog S Unit
  | [] => .ret ()
  | x :: xs => (f x).bind fun _ => forEach f xs

/-- Map `f` over a list, effects in list order. -/
def mapEach (f : β → Prog S α) : List β → Prog S (List α)
  | [] => .ret []
  | x :: xs => (f x).bind fun a => (mapEach f xs).bind fun as => .ret (a :: as)

@[simp] theorem pure_eq (a : α) : (pure a : Prog S α) = .ret a := rfl

@[simp] theorem bind_eq (p : Prog S α) (f : α → Prog S β) :
    (p >>= f) = p.bind f := rfl

@[simp] theorem ret_bind (a : α) (f : α → Prog S β) :
    (ret a : Prog S α).bind f = f a := rfl

@[simp] theorem raise_bind (x : S.Exn) (f : α → Prog S β) :
    (raise x : Prog S α).bind f = raise x := rfl

@[simp] theorem act_bind (e : S.Act) (k : S.Reply e → Prog S α)
    (f : α → Prog S β) :
    (act e k).bind f = act e fun r => (k r).bind f := rfl

@[simp] theorem ret_handle (a : α) (h : S.Exn → Prog S α) :
    (ret a : Prog S α).handle h = ret a := rfl

@[simp] theorem raise_handle (x : S.Exn) (h : S.Exn → Prog S α) :
    (raise x : Prog S α).handle h = h x := rfl

@[simp] theorem act_handle (e : S.Act) (k : S.Reply e → Prog S α)
    (h : S.Exn → Prog S α) :
    (act e k).handle h = act e fun r => (k r).handle h := rfl

theorem bind_assoc (p : Prog S α) (f : α → Prog S β)
    (g : β → Prog S γ) :
    (p.bind f).bind g = p.bind fun a => (f a).bind g := by
  induction p with
  | ret a => rfl
  | raise x => rfl
  | act e k ih =>
      simp only [act_bind]
      congr 1
      funext r
      exact ih r

/-- The action a program performs next, if it has not ended. -/
def next? : Prog S α → Option S.Act
  | .act e _ => some e
  | _ => none

end Prog

-- ============================================================== machines

/-- What the actions mean: a world, the answers each action may get from
outside, which answers a world admits, and what an answered action
replies and does to the world. -/
structure Machine (S : Sig) where
  World : Type
  Ans : S.Act → Type
  admits : World → (e : S.Act) → Ans e → Bool
  perform : (e : S.Act) → Ans e → World → S.Reply e × World

variable {S : Sig} {α β : Type}

/-- A reply some world can give. -/
def Machine.Possible (M : Machine S) (e : S.Act) (r : S.Reply e) : Prop :=
  ∃ (w : M.World) (a : M.Ans e),
    M.admits w e a = true ∧ (M.perform e a w).1 = r

theorem Machine.possible_of_admits {M : Machine S} {w : M.World}
    {e : S.Act} {a : M.Ans e} (h : M.admits w e a = true) :
    M.Possible e (M.perform e a w).1 :=
  ⟨w, a, h, rfl⟩

-- ======================================================== the path logic

variable {Φ : Type}

/-- The program follows `next` from phase `ph`: every action it can
perform, under every reply the machine can give, is a move, and it ends
in a phase and result related by `Q`. -/
def Prog.Follows (M : Machine S) (next : Φ → Event S → Φ → Prop)
    (Q : Φ → Except S.Exn α → Prop) : Φ → Prog S α → Prop
  | ph, .ret a => Q ph (.ok a)
  | ph, .raise x => Q ph (.error x)
  | ph, .act e k => ∀ r, M.Possible e r →
      ∃ ph', next ph ⟨e, r⟩ ph' ∧ (k r).Follows M next Q ph'

namespace Prog

variable {M : Machine S} {next : Φ → Event S → Φ → Prop}
  {Q Q' : Φ → Except S.Exn α → Prop} {ph : Φ}

/-- The postcondition may be weakened. -/
theorem Follows.mono {p : Prog S α} (h : p.Follows M next Q ph)
    (hq : ∀ ph r, Q ph r → Q' ph r) : p.Follows M next Q' ph := by
  induction p generalizing ph with
  | ret a => exact hq _ _ h
  | raise x => exact hq _ _ h
  | act e k ih =>
      intro r hr
      obtain ⟨ph', hmove, hrest⟩ := h r hr
      exact ⟨ph', hmove, ih r hrest⟩

/-- Cut a reading at a sequencing point: the first part may end in any
phase and value its postcondition names, and an exception goes straight
to the end. -/
theorem follows_bind {p : Prog S α} {f : α → Prog S β}
    {R : Φ → Except S.Exn β → Prop} (h : p.Follows M next Q ph)
    (hok : ∀ ph a, Q ph (.ok a) → (f a).Follows M next R ph)
    (herr : ∀ ph x, Q ph (.error x) → R ph (.error x)) :
    (p.bind f).Follows M next R ph := by
  induction p generalizing ph with
  | ret a => exact hok _ _ h
  | raise x => exact herr _ _ h
  | act e k ih =>
      intro r hr
      obtain ⟨ph', hmove, hrest⟩ := h r hr
      exact ⟨ph', hmove, ih r hrest⟩

/-- Cut a reading at an exception handler. -/
theorem follows_handle {p : Prog S α} {f : S.Exn → Prog S α}
    (h : p.Follows M next Q ph)
    (hok : ∀ ph a, Q ph (.ok a) → Q' ph (.ok a))
    (herr : ∀ ph x, Q ph (.error x) → (f x).Follows M next Q' ph) :
    (p.handle f).Follows M next Q' ph := by
  induction p generalizing ph with
  | ret a => exact hok _ _ h
  | raise x => exact herr _ _ h
  | act e k ih =>
      intro r hr
      obtain ⟨ph', hmove, hrest⟩ := h r hr
      exact ⟨ph', hmove, ih r hrest⟩

/-- One performed action: a value moves on, an exception ends the
program. -/
theorem follows_perform {e : S.Act} {Q : Φ → Except S.Exn (S.Ret e) → Prop}
    (h : ∀ r, M.Possible e r → ∃ ph', next ph ⟨e, r⟩ ph' ∧ Q ph' r) :
    (perform e).Follows M next Q ph := by
  intro r hr
  obtain ⟨ph', hmove, hq⟩ := h r hr
  refine ⟨ph', hmove, ?_⟩
  cases r with
  | ok v => exact hq
  | error x => exact hq

/-- One performed action in front of the rest of a program. -/
theorem follows_call {e : S.Act} {f : S.Ret e → Prog S β}
    {R : Φ → Except S.Exn β → Prop}
    (hok : ∀ v, M.Possible e (.ok v) →
      ∃ ph', next ph ⟨e, .ok v⟩ ph' ∧ (f v).Follows M next R ph')
    (herr : ∀ x, M.Possible e (.error x) →
      ∃ ph', next ph ⟨e, .error x⟩ ph' ∧ R ph' (.error x)) :
    ((perform e).bind f).Follows M next R ph := by
  intro r hr
  cases r with
  | ok v => exact hok v hr
  | error x => exact herr x hr

/-- A pure computation in front of the rest of a program. -/
theorem follows_ofExcept {r : Except S.Exn α} {f : α → Prog S β}
    {R : Φ → Except S.Exn β → Prop}
    (hok : ∀ a, r = .ok a → (f a).Follows M next R ph)
    (herr : ∀ x, r = .error x → R ph (.error x)) :
    ((ofExcept r).bind f).Follows M next R ph := by
  cases r with
  | ok a => exact hok a rfl
  | error x => exact herr x rfl

/-- A loop over a list follows a protocol if one pass takes the phase
the invariant gives it to the phase the invariant gives the rest. -/
theorem follows_forEach {f : β → Prog S Unit}
    {R : Φ → Except S.Exn Unit → Prop} (I : List β → Φ → Prop)
    (hstep : ∀ x xs ph, I (x :: xs) ph →
      (f x).Follows M next
        (fun ph r => (∃ u, r = .ok u ∧ I xs ph) ∨ ∃ e, r = .error e ∧ R ph r)
        ph)
    (hnil : ∀ ph, I [] ph → R ph (.ok ())) :
    ∀ xs ph, I xs ph → (forEach f xs).Follows M next R ph := by
  intro xs
  induction xs with
  | nil => intro ph h; exact hnil ph h
  | cons x xs ih =>
      intro ph h
      refine follows_bind (hstep x xs ph h) ?_ ?_
      · rintro ph' a (⟨u, -, hI⟩ | ⟨e, he, -⟩)
        · exact ih ph' hI
        · cases he
      · rintro ph' e (⟨u, hu, -⟩ | ⟨e', -, hR⟩)
        · cases hu
        · exact hR

/-- Every action of the program, under any replies, satisfies `q`. -/
def Uses (q : S.Act → Prop) : Prog S α → Prop
  | .ret _ => True
  | .raise _ => True
  | .act e k => q e ∧ ∀ r, (k r).Uses q

@[simp] theorem uses_ret (q : S.Act → Prop) (a : α) :
    (ret a : Prog S α).Uses q := trivial

@[simp] theorem uses_raise (q : S.Act → Prop) (x : S.Exn) :
    (raise x : Prog S α).Uses q := trivial

@[simp] theorem uses_perform (q : S.Act → Prop) (e : S.Act) :
    (perform e).Uses q ↔ q e := by
  refine ⟨fun h => h.1, fun h => ⟨h, fun r => ?_⟩⟩
  cases r <;> trivial

theorem uses_any (p : Prog S α) : p.Uses fun _ => True := by
  induction p with
  | ret a => trivial
  | raise x => trivial
  | act e k ih => exact ⟨trivial, ih⟩

theorem uses_bind {q : S.Act → Prop} {p : Prog S α} {f : α → Prog S β}
    (hp : p.Uses q) (hf : ∀ a, (f a).Uses q) : (p.bind f).Uses q := by
  induction p with
  | ret a => exact hf a
  | raise x => trivial
  | act e k ih => exact ⟨hp.1, fun r => ih r (hp.2 r)⟩

theorem uses_handle {q : S.Act → Prop} {p : Prog S α}
    {f : S.Exn → Prog S α} (hp : p.Uses q) (hf : ∀ x, (f x).Uses q) :
    (p.handle f).Uses q := by
  induction p with
  | ret a => trivial
  | raise x => exact hf x
  | act e k ih => exact ⟨hp.1, fun r => ih r (hp.2 r)⟩

theorem uses_ofExcept (q : S.Act → Prop) (r : Except S.Exn α) :
    (ofExcept r : Prog S α).Uses q := by
  cases r <;> trivial

theorem uses_ofExcept_bind {q : S.Act → Prop} {r : Except S.Exn α}
    {f : α → Prog S β} (hf : ∀ a, r = .ok a → (f a).Uses q) :
    ((ofExcept r).bind f).Uses q := by
  cases r with
  | ok a => exact hf a rfl
  | error x => trivial

theorem uses_mapEach {q : S.Act → Prop} {f : β → Prog S α}
    (hf : ∀ x, (f x).Uses q) : ∀ xs, (mapEach f xs).Uses q := by
  intro xs
  induction xs with
  | nil => trivial
  | cons x xs ih =>
      exact uses_bind (hf x) fun a => uses_bind ih fun as => trivial

/-- A program all of whose actions are self-moves of the protocol stays
in its phase. -/
theorem Uses.follows {q : S.Act → Prop} {p : Prog S α} (h : p.Uses q)
    (hself : ∀ e r, q e → next ph ⟨e, r⟩ ph) :
    p.Follows M next (fun ph' _ => ph' = ph) ph := by
  induction p with
  | ret a => rfl
  | raise x => rfl
  | act e k ih => exact fun r _ => ⟨ph, hself e r h.1, ih r (h.2 r)⟩

/-- Every value the program returns, under any replies, satisfies
`T`. -/
def Returns (T : α → Prop) : Prog S α → Prop
  | .ret a => T a
  | .raise _ => True
  | .act _ k => ∀ r, (k r).Returns T

theorem returns_bind {T : β → Prop} {p : Prog S α} {f : α → Prog S β}
    (hf : ∀ a, (f a).Returns T) : (p.bind f).Returns T := by
  induction p with
  | ret a => exact hf a
  | raise x => trivial
  | act e k ih => exact fun r => ih r

/-- What a program returns may be added to what its reading ends in. -/
theorem Follows.returns {p : Prog S α} {T : α → Prop}
    (h : p.Follows M next Q ph) (hT : p.Returns T) :
    p.Follows M next (fun ph r => Q ph r ∧ ∀ a, r = .ok a → T a) ph := by
  induction p generalizing ph with
  | ret a => exact ⟨h, fun b hb => by cases hb; exact hT⟩
  | raise x => exact ⟨h, fun b hb => nomatch hb⟩
  | act e k ih =>
      intro r hr
      obtain ⟨ph', hmove, hrest⟩ := h r hr
      exact ⟨ph', hmove, ih r hrest (hT r)⟩

end Prog

-- ====================================================== running one alone

/-- The outside of a run: the answer to its `n`-th action, or `none`
where the process dies there. -/
abbrev Oracle (M : Machine S) : Type :=
  Nat → (e : S.Act) → Option (M.Ans e)

namespace Prog

variable {M : Machine S}

/-- Run a program alone. The result is `none` when the oracle killed it
before it ended. -/
def run (O : Oracle M) : Prog S α → Nat → M.World →
    Option (Except S.Exn α) × M.World
  | .ret a, _, w => (some (.ok a), w)
  | .raise x, _, w => (some (.error x), w)
  | .act e k, n, w =>
      match O n e with
      | none => (none, w)
      | some a =>
          let out := M.perform e a w
          (k out.1).run O (n + 1) out.2

theorem run_act (O : Oracle M) (e : S.Act) (k : S.Reply e → Prog S α)
    (n : Nat) (w : M.World) :
    (act e k).run O n w = match O n e with
      | none => (none, w)
      | some a => (k (M.perform e a w).1).run O (n + 1)
          (M.perform e a w).2 := by
  rw [run]

/-- A run that returns through a sequencing point has returned a value
there. -/
theorem run_bind_ok {O : Oracle M} {f : α → Prog S β} {b : β} :
    ∀ {p : Prog S α} {n : Nat} {w : M.World},
      ((p.bind f).run O n w).1 = some (.ok b) →
      ∃ a n', (p.run O n w).1 = some (.ok a)
        ∧ ((f a).run O n' (p.run O n w).2).1 = some (.ok b) := by
  intro p
  induction p with
  | ret a => exact fun h => ⟨a, _, rfl, h⟩
  | raise x => exact fun h => nomatch h
  | act e k ih =>
      intro n w h
      rw [act_bind, run_act] at h
      rw [run_act]
      cases hO : O n e with
      | none => simp [hO] at h
      | some a =>
          simp only [hO] at h ⊢
          exact ih _ h

/-- A value one performed action returns is its reply. -/
theorem run_perform_ok {O : Oracle M} {e : S.Act} {n : Nat} {w : M.World}
    {v : S.Ret e} (h : ((perform e).run O n w).1 = some (.ok v)) :
    ∃ a, (M.perform e a w).1 = .ok v
      ∧ ((perform e).run O n w).2 = (M.perform e a w).2 := by
  unfold perform run at h ⊢
  cases hO : O n e with
  | none => simp [hO] at h
  | some a =>
      simp only [hO] at h ⊢
      cases hr : (M.perform e a w).1 with
      | ok u =>
          rw [hr] at h
          refine ⟨a, ?_, rfl⟩
          simp only [run, Option.some.injEq] at h
          rw [hr, h]
      | error x =>
          rw [hr] at h
          simp [run] at h

/-- Every answer the oracle gives along the run is one the world
admits. -/
def Admitted (O : Oracle M) : Prog S α → Nat → M.World → Prop
  | .ret _, _, _ => True
  | .raise _, _, _ => True
  | .act e k, n, w =>
      match O n e with
      | none => True
      | some a =>
          M.admits w e a = true ∧
            (k (M.perform e a w).1).Admitted O (n + 1) (M.perform e a w).2

/-- Whether a run is admitted can be tried out. -/
instance Admitted.decidable (O : Oracle M) :
    ∀ (p : Prog S α) (n : Nat) (w : M.World), Decidable (p.Admitted O n w)
  | .ret _, _, _ => isTrue trivial
  | .raise _, _, _ => isTrue trivial
  | .act e k, n, w =>
      match h : O n e with
      | none => isTrue (by simp [Admitted, h])
      | some a =>
          have := Admitted.decidable O (k (M.perform e a w).1) (n + 1)
            (M.perform e a w).2
          decidable_of_iff (M.admits w e a = true ∧
            (k (M.perform e a w).1).Admitted O (n + 1) (M.perform e a w).2)
            (by simp [Admitted, h])

variable {next : Φ → Event S → Φ → Prop} {O : Oracle M}
  {Q : Φ → Except S.Exn α → Prop}

/-- Behind a part that returned, a run is the rest's, from where the part
ended. That place does not depend on the rest, so two programs with one
beginning part there. -/
theorem run_bind_from {a : α} : ∀ {p : Prog S α} {n : Nat} {w : M.World},
    (p.run O n w).1 = some (.ok a) →
    ∃ n', ∀ {β : Type} (f : α → Prog S β),
      (p.bind f).run O n w = (f a).run O n' (p.run O n w).2
      ∧ ((p.bind f).Admitted O n w ↔
        p.Admitted O n w ∧ (f a).Admitted O n' (p.run O n w).2) := by
  intro p
  induction p with
  | ret b =>
      intro n w h
      cases h
      exact ⟨n, fun f => ⟨rfl, (and_iff_right trivial).symm⟩⟩
  | raise x => exact fun h => nomatch h
  | act e k ih =>
      intro n w h
      rw [run_act] at h
      cases hO : O n e with
      | none => simp [hO] at h
      | some ans =>
          simp only [hO] at h
          obtain ⟨n', hrest⟩ := ih _ h
          refine ⟨n', fun f => ?_⟩
          rw [act_bind, run_act, run_act]
          simp only [hO, Admitted]
          exact ⟨(hrest f).1, by rw [(hrest f).2, and_assoc]⟩

/-- Under an oracle that does not count, it does not matter where a run
starts to. -/
theorem run_uncounted (hO : ∀ m n e, O m e = O n e) :
    ∀ (p : Prog S α) (m n : Nat) (w : M.World),
      p.run O m w = p.run O n w ∧ (p.Admitted O m w ↔ p.Admitted O n w) := by
  intro p
  induction p with
  | ret a => exact fun m n w => ⟨rfl, Iff.rfl⟩
  | raise x => exact fun m n w => ⟨rfl, Iff.rfl⟩
  | act e k ih =>
      intro m n w
      rw [run_act, run_act]
      simp only [Admitted, hO m n e]
      cases O n e with
      | none => exact ⟨rfl, Iff.rfl⟩
      | some a =>
          obtain ⟨hrun, hadm⟩ := ih _ (m + 1) (n + 1) (M.perform e a w).2
          exact ⟨hrun, and_congr_right fun _ => hadm⟩

/-- What a followed protocol preserves along one run: an assertion on
phase and world that every admitted move keeps holds at the end, and at
the point where the oracle kills the program. -/
theorem Follows.run_invariant {I : Φ → M.World → Prop} {T : M.World → Prop}
    (hkeep : ∀ ph e a w ph', I ph w → M.admits w e a = true →
      next ph ⟨e, (M.perform e a w).1⟩ ph' → I ph' (M.perform e a w).2)
    (hcut : ∀ ph w, I ph w → T w) :
    ∀ {p : Prog S α} {ph : Φ} {n : Nat} {w : M.World},
      p.Follows M next Q ph → p.Admitted O n w → I ph w →
      T (p.run O n w).2 ∧
        ∀ r, (p.run O n w).1 = some r →
          ∃ ph', Q ph' r ∧ I ph' (p.run O n w).2 := by
  intro p
  induction p with
  | ret a =>
      intro ph n w hf _ hI
      refine ⟨hcut ph w hI, ?_⟩
      rintro r ⟨⟩
      exact ⟨ph, hf, hI⟩
  | raise x =>
      intro ph n w hf _ hI
      refine ⟨hcut ph w hI, ?_⟩
      rintro r ⟨⟩
      exact ⟨ph, hf, hI⟩
  | act e k ih =>
      intro ph n w hf hadm hI
      unfold run
      unfold Admitted at hadm
      cases hO : O n e with
      | none => exact ⟨hcut ph w hI, by rintro r ⟨⟩⟩
      | some a =>
          simp only [hO] at hadm
          obtain ⟨ph', hmove, hrest⟩ :=
            hf _ (Machine.possible_of_admits hadm.1)
          exact ih _ hrest hadm.2 (hkeep ph e a w ph' hI hadm.1 hmove)

/-- Two runs of one program under one oracle, from worlds a relation
cannot tell apart: if every move the protocol allows replies the same
in both and keeps them related, the runs end the same way and in
related worlds. The unwinding theorem of the two-run properties. -/
theorem Follows.run_agree {J : Φ → M.World → M.World → Prop}
    (hkeep : ∀ ph e a w₁ w₂, J ph w₁ w₂ →
      M.admits w₁ e a = true → M.admits w₂ e a = true →
      (∃ ph', next ph ⟨e, (M.perform e a w₁).1⟩ ph') →
      (M.perform e a w₁).1 = (M.perform e a w₂).1 ∧
        ∀ ph', next ph ⟨e, (M.perform e a w₁).1⟩ ph' →
          J ph' (M.perform e a w₁).2 (M.perform e a w₂).2) :
    ∀ {p : Prog S α} {ph : Φ} {n : Nat} {w₁ w₂ : M.World},
      p.Follows M next Q ph → J ph w₁ w₂ →
      p.Admitted O n w₁ → p.Admitted O n w₂ →
      (p.run O n w₁).1 = (p.run O n w₂).1 ∧
        ∃ ph', J ph' (p.run O n w₁).2 (p.run O n w₂).2 := by
  intro p
  induction p with
  | ret a => exact fun _ hJ _ _ => ⟨rfl, _, hJ⟩
  | raise x => exact fun _ hJ _ _ => ⟨rfl, _, hJ⟩
  | act e k ih =>
      intro ph n w₁ w₂ hf hJ h₁ h₂
      unfold run
      unfold Admitted at h₁ h₂
      cases hO : O n e with
      | none => exact ⟨rfl, ph, hJ⟩
      | some a =>
          simp only [hO] at h₁ h₂ ⊢
          obtain ⟨ph', hmove, hrest⟩ :=
            hf _ (Machine.possible_of_admits h₁.1)
          obtain ⟨hsame, hnext⟩ :=
            hkeep ph e a w₁ w₂ hJ h₁.1 h₂.1 ⟨ph', hmove⟩
          rw [← hsame] at h₂ ⊢
          exact ih _ hrest (hnext ph' hmove) h₁.2 h₂.2

/-- A program that only reads ends the same way in two worlds that answer
its reads alike. -/
theorem Uses.run_same {q : S.Act → Prop} {w₁ w₂ : M.World}
    (hread : ∀ e a, q e → (M.perform e a w₁).1 = (M.perform e a w₂).1)
    (hkeep : ∀ e a w, q e → (M.perform e a w).2 = w) :
    ∀ {p : Prog S α} {n : Nat}, p.Uses q →
      (p.run O n w₁).1 = (p.run O n w₂).1 := by
  intro p
  induction p with
  | ret a => exact fun _ => rfl
  | raise x => exact fun _ => rfl
  | act e k ih =>
      intro n hp
      unfold run
      cases hO : O n e with
      | none => rfl
      | some a =>
          simp only
          rw [hread e a hp.1, hkeep e a w₁ hp.1, hkeep e a w₂ hp.1]
          exact ih _ (hp.2 _)

end Prog

end Effect
