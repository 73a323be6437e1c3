/-
What an operation may do, whatever it has done.

Where an operation's program only performs actions it is permitted, in
whatever order and after whatever replies, so does its thread in every
run: also a thread that starts over. An assertion on world, log and
operations that every permitted action keeps is then an invariant
(`Permitted.invariant`).
-/
import ResumeScreening.Lib.Own

namespace Effect

variable {S : Sig} {M : Machine S} {V : Service M} {may : V.Op → S.Act → Prop}
  {I : M.World → Log S → List V.Op → Prop} {ok : Guard V} {s t : Sys V}
  {i : Nat} {op : V.Op} {p : Prog S V.Resp}

namespace Prog

variable {q q' : S.Act → Prop} {α β : Type} {T : α → Prop} {p : Prog S α}

theorem Uses.imp (h : p.Uses q) (himp : ∀ e, q e → q' e) : p.Uses q' := by
  induction p with
  | ret a => trivial
  | raise x => trivial
  | act e k ih => exact ⟨himp e h.1, fun r => ih r (h.2 r)⟩

/-- What follows a program need only do well with what it returns. -/
theorem uses_bind_returns {f : α → Prog S β} (hp : p.Uses q)
    (hret : p.Returns T) (hf : ∀ a, T a → (f a).Uses q) :
    (p.bind f).Uses q := by
  induction p with
  | ret a => exact hf a hret
  | raise x => trivial
  | act e k ih => exact ⟨hp.1, fun r => ih r (hp.2 r) (hret r)⟩

theorem uses_forEach {f : β → Prog S Unit} (hf : ∀ x, (f x).Uses q)
    (xs : List β) : (forEach f xs).Uses q := by
  induction xs with
  | nil => trivial
  | cons x xs ih => exact uses_bind (hf x) fun _ => ih

end Prog

-- ================================================== what is left of a program

/-- A property of every operation's program that what is left of it
keeps. -/
structure Residual (V : Service M) (P : V.Op → Prog S V.Resp → Prop) :
    Prop where
  body : ∀ op, P op (V.body op)
  act : ∀ {op} {e : S.Act} {k : S.Reply e → Prog S V.Resp},
    P op (.act e k) → ∀ r, P op (k r)

/-- What is left of every thread has the property. -/
def Sys.Within (P : V.Op → Prog S V.Resp → Prop) (s : Sys V) : Prop :=
  ∀ {i : Nat} {op : V.Op} {p : Prog S V.Resp},
    s.threads[i]? = some ⟨op, some p⟩ → P op p

variable {P : V.Op → Prog S V.Resp → Prop}

theorem Sys.Within.set (h : s.Within P) {x : Thread V}
    (hx : ∀ {p}, x.prog = some p → P x.op p) {j : Nat}
    (hj : (s.threads.set i x)[j]? = some ⟨op, some p⟩) : P op p := by
  rcases roster_set hj with ⟨-, heq⟩ | ⟨-, hold⟩
  · subst heq
    exact hx rfl
  · exact h hold

theorem Residual.step (h : Residual V P) (hin : s.Within P) {l : Label V}
    (hstep : s.step l = some t) : t.Within P := by
  intro j op' p' hj
  cases Sys.stepped hstep with
  | spawn op₀ =>
      rcases roster_append hj with ⟨-, heq⟩ | hold
      · cases heq
        exact h.body op'
      · exact hin hold
  | act ht _ =>
      refine hin.set (fun hp => ?_) hj
      cases hp
      exact h.act (hin ht) _
  | crash ht => exact hin.set (fun hp => by cases hp) hj
  | @restart i op x ht _ =>
      refine hin.set (fun hp => ?_) hj
      cases hp
      exact h.body op
  | env _ => exact hin hj

/-- In every system a run reaches, what is left of every thread has the
property. -/
theorem Residual.run (h : Residual V P) {w : M.World}
    (hrun : Run ok (Sys.start V w) s) : s.Within P := by
  induction hrun with
  | refl =>
      intro i op p ht
      cases ht
  | step l _ _ hstep ih => exact h.step ih hstep

/-- What every program of an operation returns, its threads return. -/
theorem Run.returns {T : V.Op → V.Resp → Prop}
    (h : ∀ op, (V.body op).Returns (T op)) {w : M.World}
    (hrun : Run ok (Sys.start V w) s) {a : V.Resp}
    (hend : s.Ended i op (.ok a)) : T op a :=
  Residual.run (P := fun op p => p.Returns (T op))
    ⟨h, fun hact r => hact r⟩ hrun hend

-- ================================================================== permits

/-- Every operation's program performs permitted actions only. -/
def Permitted (V : Service M) (may : V.Op → S.Act → Prop) : Prop :=
  ∀ op, (V.body op).Uses (may op)

namespace Permitted

theorem residual (h : Permitted V may) :
    Residual V fun op p => p.Uses (may op) :=
  ⟨h, fun hact r => hact.2 r⟩

/-- What each kind of step must keep for an assertion to be an
invariant. -/
structure Keeps (may : V.Op → S.Act → Prop)
    (I : M.World → Log S → List V.Op → Prop) : Prop where
  spawn : ∀ {w log ops} (op : V.Op), I w log ops → I w log (ops ++ [op])
  act : ∀ {w log ops i op} {e : S.Act} {a : M.Ans e}, I w log ops →
    ops[i]? = some op → M.admits w e a = true → may op e →
    I (M.perform e a w).2 ((i, ⟨e, (M.perform e a w).1⟩) :: log) ops
  env : ∀ {w w' log ops} (k : V.Env), I w log ops → V.env k w = some w' →
    I w' log ops

theorem step_keeps (hk : Keeps may I)
    (hin : s.Within fun op p => p.Uses (may op))
    (hI : I s.world s.log s.ops) {l : Label V} (hstep : s.step l = some t) :
    I t.world t.log t.ops := by
  -- a thread that moves serves the operation it served
  have hops : ∀ {i : Nat} {op : V.Op} {p p' : Option (Prog S V.Resp)},
      s.threads[i]? = some ⟨op, p⟩ →
      (s.threads.set i ⟨op, p'⟩).map Thread.op = s.ops :=
    fun ht => map_set ht rfl
  have hop : ∀ {i : Nat} {op : V.Op} {p : Option (Prog S V.Resp)},
      s.threads[i]? = some ⟨op, p⟩ → s.ops[i]? = some op := by
    intro i op p ht
    unfold Sys.ops
    rw [List.getElem?_map, ht]
    rfl
  cases Sys.stepped hstep with
  | spawn op =>
      show I s.world s.log ((s.threads ++ [_]).map Thread.op)
      rw [List.map_append]
      exact hk.spawn op hI
  | @act i ans op e k ht hadm =>
      show I _ _ ((s.threads.set i _).map Thread.op)
      rw [hops ht]
      exact hk.act hI (hop ht) hadm (hin ht).1
  | crash ht =>
      show I s.world s.log ((s.threads.set _ _).map Thread.op)
      rw [hops ht]
      exact hI
  | restart ht _ =>
      show I s.world s.log ((s.threads.set _ _).map Thread.op)
      rw [hops ht]
      exact hI
  | env hw => exact hk.env _ hI hw

/-- The invariant rule: an assertion every permitted action keeps holds
of every system a run reaches. -/
theorem invariant (h : Permitted V may) (hk : Keeps may I) {w : M.World}
    (hinit : I w [] []) (hrun : Run ok (Sys.start V w) s) :
    I s.world s.log s.ops := by
  induction hrun with
  | refl => exact hinit
  | step l hprev _ hstep ih =>
      exact step_keeps hk (h.residual.run hprev) ih hstep

end Permitted

end Effect
