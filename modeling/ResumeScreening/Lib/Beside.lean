/-
Two machines side by side.

A deployment whose code reaches two stores is a program over both. An
action of the joint signature is one of the left machine, one of the
right machine, or a question about both worlds, which changes neither.
A program of either machine is one of the joint machine (`Prog.left`,
`Prog.right`).
-/
import ResumeScreening.Lib.Prog

namespace Effect

-- ============================================================== signatures

/-- An action of either side, or a question. -/
inductive Side (A B Q : Type)
  | left (a : A)
  | right (b : B)
  | ask (q : Q)
deriving DecidableEq

/-- The questions a joint program may ask, and the types of their
answers. -/
structure Asks where
  Q : Type
  Ret : Q → Type

variable {S T : Sig} {Q : Asks} {α β : Type}

/-- The type of a joint action's reply. -/
@[reducible] def Side.Ret (S T : Sig) (Q : Asks) :
    Side S.Act T.Act Q.Q → Type
  | .left e => S.Ret e
  | .right e => T.Ret e
  | .ask q => Q.Ret q

/-- Two signatures side by side. -/
abbrev Sig.beside (S T : Sig) (Q : Asks) : Sig where
  Act := Side S.Act T.Act Q.Q
  Ret := Side.Ret S T Q
  Exn := S.Exn ⊕ T.Exn

-- ================================================================ machines

variable {M : Machine S} {N : Machine T}

/-- What the outside chooses for a joint action: a question may fail. -/
@[reducible] def Side.Ans (M : Machine S) (N : Machine T) (Q : Asks) :
    Side S.Act T.Act Q.Q → Type
  | .left e => M.Ans e
  | .right e => N.Ans e
  | .ask _ => Option (S.Exn ⊕ T.Exn)

/-- How a question is answered in two worlds. -/
abbrev Sees (M : Machine S) (N : Machine T) (Q : Asks) : Type :=
  (q : Q.Q) → M.World → N.World → Except (S.Exn ⊕ T.Exn) (Q.Ret q)

/-- Two machines side by side. -/
abbrev Machine.beside (M : Machine S) (N : Machine T) (Q : Asks)
    (see : Sees M N Q) : Machine (S.beside T Q) where
  World := M.World × N.World
  Ans := Side.Ans M N Q
  admits w
    | .left e, a => M.admits w.1 e a
    | .right e, a => N.admits w.2 e a
    | .ask _, _ => true
  perform
    | .left e, a, w =>
        ((M.perform e a w.1).1.mapError .inl, (M.perform e a w.1).2, w.2)
    | .right e, a, w =>
        ((N.perform e a w.2).1.mapError .inr, w.1, (N.perform e a w.2).2)
    | .ask q, a, w =>
        match a with
        | none => (see q w.1 w.2, w)
        | some x => (.error x, w)

/-- An action that leaves the world alone, whatever the answer. -/
def Machine.Still (M : Machine S) (e : S.Act) : Prop :=
  ∀ (a : M.Ans e) (w : M.World), (M.perform e a w).2 = w

-- ================================================================ programs

namespace Prog

/-- A program of the left machine. -/
def left : Prog S α → Prog (S.beside T Q) α
  | .ret a => .ret a
  | .raise x => .raise (.inl x)
  | .act e k => .act (.left e) fun
      | .ok v => (k (.ok v)).left
      | .error (.inl x) => (k (.error x)).left
      | .error (.inr y) => .raise (.inr y)

/-- A program of the right machine. -/
def right : Prog T α → Prog (S.beside T Q) α
  | .ret a => .ret a
  | .raise x => .raise (.inr x)
  | .act e k => .act (.right e) fun
      | .ok v => (k (.ok v)).right
      | .error (.inr x) => (k (.error x)).right
      | .error (.inl y) => .raise (.inl y)

/-- A question alone. -/
def ask (q : Q.Q) : Prog (S.beside T Q) (Q.Ret q) :=
  .perform (S := S.beside T Q) (.ask q)

@[simp] theorem left_ret (a : α) :
    ((ret a : Prog S α).left : Prog (S.beside T Q) α) = .ret a := rfl

@[simp] theorem left_raise (x : S.Exn) :
    ((raise x : Prog S α).left : Prog (S.beside T Q) α) = .raise (.inl x) :=
  rfl

@[simp] theorem right_ret (a : α) :
    ((ret a : Prog T α).right : Prog (S.beside T Q) α) = .ret a := rfl

@[simp] theorem right_raise (x : T.Exn) :
    ((raise x : Prog T α).right : Prog (S.beside T Q) α) = .raise (.inr x) :=
  rfl

theorem left_act (e : S.Act) (k : S.Reply e → Prog S α) :
    ((act e k).left : Prog (S.beside T Q) α) = .act (.left e) fun
      | .ok v => (k (.ok v)).left
      | .error (.inl x) => (k (.error x)).left
      | .error (.inr y) => .raise (.inr y) := by
  rw [left]

theorem right_act (e : T.Act) (k : T.Reply e → Prog T α) :
    ((act e k).right : Prog (S.beside T Q) α) = .act (.right e) fun
      | .ok v => (k (.ok v)).right
      | .error (.inr x) => (k (.error x)).right
      | .error (.inl y) => .raise (.inl y) := by
  rw [right]

theorem left_bind (p : Prog S α) (f : α → Prog S β) :
    ((p.bind f).left : Prog (S.beside T Q) β)
      = p.left.bind fun a => (f a).left := by
  induction p with
  | ret a => rfl
  | raise x => rfl
  | act e k ih =>
      have hbind : (act e k).bind f = act e fun r => (k r).bind f := rfl
      rw [hbind, left_act, left_act]
      show act (S := S.beside T Q) _ _ = act _ _
      congr 1
      funext r
      rcases r with (x | y) | v
      · exact ih _
      · rfl
      · exact ih _

theorem right_bind (p : Prog T α) (f : α → Prog T β) :
    ((p.bind f).right : Prog (S.beside T Q) β)
      = p.right.bind fun a => (f a).right := by
  induction p with
  | ret a => rfl
  | raise x => rfl
  | act e k ih =>
      have hbind : (act e k).bind f = act e fun r => (k r).bind f := rfl
      rw [hbind, right_act, right_act]
      show act (S := S.beside T Q) _ _ = act _ _
      congr 1
      funext r
      rcases r with (x | y) | v
      · rfl
      · exact ih _
      · exact ih _

/-- A left program performs left actions only. -/
theorem uses_left {q : S.Act → Prop} {q' : Side S.Act T.Act Q.Q → Prop}
    (hq : ∀ e, q e → q' (.left e)) {p : Prog S α} (h : p.Uses q) :
    (p.left : Prog (S.beside T Q) α).Uses q' := by
  induction p with
  | ret a => trivial
  | raise x => trivial
  | act e k ih =>
      rw [left_act]
      refine ⟨hq e h.1, fun r => ?_⟩
      rcases r with (x | y) | v
      · exact ih _ (h.2 _)
      · trivial
      · exact ih _ (h.2 _)

theorem uses_right {q : T.Act → Prop} {q' : Side S.Act T.Act Q.Q → Prop}
    (hq : ∀ e, q e → q' (.right e)) {p : Prog T α} (h : p.Uses q) :
    (p.right : Prog (S.beside T Q) α).Uses q' := by
  induction p with
  | ret a => trivial
  | raise x => trivial
  | act e k ih =>
      rw [right_act]
      refine ⟨hq e h.1, fun r => ?_⟩
      rcases r with (x | y) | v
      · trivial
      · exact ih _ (h.2 _)
      · exact ih _ (h.2 _)

end Prog

-- ============================================================ still actions

variable {see : Sees M N Q}

theorem still_left {e : S.Act} (h : M.Still e) :
    (M.beside N Q see).Still (.left e) := by
  intro a w
  show ((M.perform e a w.1).2, w.2) = w
  rw [h]

theorem still_right {e : T.Act} (h : N.Still e) :
    (M.beside N Q see).Still (.right e) := by
  intro a w
  show (w.1, (N.perform e a w.2).2) = w
  rw [h]

theorem still_ask (q : Q.Q) : (M.beside N Q see).Still (.ask q) := by
  intro a w
  cases a <;> rfl

end Effect
