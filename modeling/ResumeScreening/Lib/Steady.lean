/-
Programs under an outside that answers each action in one way.

`Prog.eval` runs a program with one answer for each action. It is the run
under the constant oracle (`run_steady`), and it is read off the program's
text: a part is replaced by what it left, and a sequencing point or a
handler goes where the part's end sends it.
-/
import ResumeScreening.Lib.Prog

namespace Effect.Prog

variable {S : Sig} {M : Machine S} {α β : Type}

/-- Run a program, each action answered as `A` says. -/
def eval (A : (e : S.Act) → M.Ans e) :
    Prog S α → M.World → Except S.Exn α × M.World
  | .ret a, w => (.ok a, w)
  | .raise x, w => (.error x, w)
  | .act e k, w =>
      let out := M.perform e (A e) w
      (k out.1).eval A out.2

variable {A : (e : S.Act) → M.Ans e}

/-- It is what the constant oracle makes of the program. -/
theorem run_steady : ∀ (p : Prog S α) (n : Nat) (w : M.World),
    p.run (fun _ e => some (A e)) n w
      = (some (p.eval A w).1, (p.eval A w).2) := by
  intro p
  induction p with
  | ret a => exact fun _ _ => rfl
  | raise x => exact fun _ _ => rfl
  | act e k ih => exact fun n w => ih _ (n + 1) _

section

variable {p : Prog S α} {f : α → Prog S β} {w w₁ : M.World}

theorem eval_bind_ok {a : α} (h : p.eval A w = (.ok a, w₁)) :
    (p.bind f).eval A w = (f a).eval A w₁ := by
  induction p generalizing w with
  | ret b =>
      cases h
      rfl
  | raise x => cases h
  | act e k ih => exact ih _ h

theorem eval_bind_error {x : S.Exn} (h : p.eval A w = (.error x, w₁)) :
    (p.bind f).eval A w = (.error x, w₁) := by
  induction p generalizing w with
  | ret b => cases h
  | raise y =>
      cases h
      rfl
  | act e k ih => exact ih _ h

theorem eval_handle_ok {a : α} {q : S.Exn → Prog S α}
    (h : p.eval A w = (.ok a, w₁)) : (p.handle q).eval A w = (.ok a, w₁) := by
  induction p generalizing w with
  | ret b => exact h
  | raise x => cases h
  | act e k ih => exact ih _ h

theorem eval_handle_error {x : S.Exn} {q : S.Exn → Prog S α}
    (h : p.eval A w = (.error x, w₁)) :
    (p.handle q).eval A w = (q x).eval A w₁ := by
  induction p generalizing w with
  | ret b => cases h
  | raise y =>
      cases h
      rfl
  | act e k ih => exact ih _ h

/-- One action alone. -/
theorem eval_perform (e : S.Act) (w : M.World) :
    (perform e).eval A w = M.perform e (A e) w := by
  unfold perform eval
  cases M.perform e (A e) w with
  | mk r w₁ => cases r <;> rfl

/-- One action in front, answered with a value. -/
theorem eval_call {e : S.Act} {g : S.Ret e → Prog S β} {v : S.Ret e}
    (h : M.perform e (A e) w = (.ok v, w₁)) :
    ((perform e).bind g).eval A w = (g v).eval A w₁ :=
  eval_bind_ok ((eval_perform e w).trans h)

theorem eval_call_error {e : S.Act} {g : S.Ret e → Prog S β} {x : S.Exn}
    (h : M.perform e (A e) w = (.error x, w₁)) :
    ((perform e).bind g).eval A w = (.error x, w₁) :=
  eval_bind_error ((eval_perform e w).trans h)

end

end Effect.Prog
