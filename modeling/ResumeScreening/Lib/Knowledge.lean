/-
What a program may do given what it has been told.

A `Discipline` reads facts off replies and says, for each action, which
facts entitle a program to perform it. The protocol it induces has the
facts learned so far for a phase: they only grow, and every action must
be allowed by those learned before it. A program `Obeys` a discipline
from some facts if it follows that protocol; each rule below says what
it has learned where it returns.
-/
import ResumeScreening.Lib.Interleave

namespace Effect

variable {S : Sig} {M : Machine S} {F : Type} {α β : Type}

/-- What replies teach, and which actions known facts allow. -/
structure Discipline (S : Sig) (F : Type) where
  learned : Event S → List F
  allows : List F → S.Act → Prop

namespace Discipline

variable (D : Discipline S F)

/-- One action: allowed by what is known, and its reply learned from. -/
def Next (K : List F) (ev : Event S) (K' : List F) : Prop :=
  D.allows K ev.act ∧ K' = D.learned ev ++ K

/-- The program obeys the discipline from these facts on, and where it
returns it knows what `T` says. -/
def Obeys (M : Machine S) (K : List F) (p : Prog S α)
    (T : α → List F → Prop := fun _ _ => True) : Prop :=
  p.Follows M D.Next
    (fun K' r => K ⊆ K' ∧ ∀ a, r = .ok a → T a K') K

variable {D} {K K' : List F} {T T' : α → List F → Prop} {p : Prog S α}

/-- More is known, and no less is promised. -/
theorem Obeys.mono (h : D.Obeys M K p T)
    (hT : ∀ a K', K ⊆ K' → T a K' → T' a K') : D.Obeys M K p T' := by
  refine Prog.Follows.mono h fun K' r hq => ⟨hq.1, fun a ha => ?_⟩
  exact hT a K' hq.1 (hq.2 a ha)

theorem obeys_ret {a : α} (h : T a K) : D.Obeys M K (.ret a) T := by
  refine ⟨List.Subset.refl K, fun b hb => ?_⟩
  cases hb
  exact h

theorem obeys_raise {x : S.Exn} : D.Obeys M K (.raise x) T :=
  ⟨List.Subset.refl K, fun _ h => nomatch h⟩

/-- What is shown from more facts counts from fewer. -/
theorem Obeys.of_learned {L : List F}
    (h : D.Obeys M (L ++ K) p T) :
    p.Follows M D.Next (fun K' r => K ⊆ K' ∧ ∀ a, r = .ok a → T a K')
      (L ++ K) := by
  refine Prog.Follows.mono h fun K' r hq => ⟨?_, hq.2⟩
  exact fun x hx => hq.1 (List.mem_append_right L hx)

/-- One action in front of the rest: it must be allowed, and the rest may
use what its reply teaches. -/
theorem obeys_call {e : S.Act} {f : S.Ret e → Prog S β}
    {T : β → List F → Prop} (hallow : D.allows K e)
    (hok : ∀ v, M.Possible e (.ok v) →
      D.Obeys M (D.learned ⟨e, .ok v⟩ ++ K) (f v) T) :
    D.Obeys M K ((Prog.perform e).bind f) T := by
  refine Prog.follows_call
    (fun v hv => ⟨_, ⟨hallow, rfl⟩, (hok v hv).of_learned⟩)
    fun x _ => ⟨_, ⟨hallow, rfl⟩, ?_⟩
  exact ⟨List.subset_append_right _ K, fun _ h => nomatch h⟩

/-- One action alone. -/
theorem obeys_perform {e : S.Act} {T : S.Ret e → List F → Prop}
    (hallow : D.allows K e)
    (hok : ∀ v, M.Possible e (.ok v) → T v (D.learned ⟨e, .ok v⟩ ++ K)) :
    D.Obeys M K (Prog.perform e) T := by
  refine Prog.follows_perform fun r hr => ⟨_, ⟨hallow, rfl⟩, ?_⟩
  refine ⟨List.subset_append_right _ K, fun a ha => ?_⟩
  subst ha
  exact hok a hr

theorem obeys_bind {f : α → Prog S β} {T' : β → List F → Prop}
    (h : D.Obeys M K p T)
    (hf : ∀ a K', K ⊆ K' → T a K' → D.Obeys M K' (f a) T') :
    D.Obeys M K (p.bind f) T' := by
  refine Prog.follows_bind h (fun K' a hq => ?_) fun K' x hq =>
    ⟨hq.1, fun _ h => nomatch h⟩
  refine Prog.Follows.mono (hf a K' hq.1 (hq.2 a rfl)) fun K'' r hq' => ?_
  exact ⟨fun x hx => hq'.1 (hq.1 hx), hq'.2⟩

theorem obeys_handle {f : S.Exn → Prog S α} (h : D.Obeys M K p T)
    (hf : ∀ x K', K ⊆ K' → D.Obeys M K' (f x) T) :
    D.Obeys M K (p.handle f) T := by
  refine Prog.follows_handle h (fun K' a hq => hq) fun K' x hq => ?_
  refine Prog.Follows.mono (hf x K' hq.1) fun K'' r hq' => ?_
  exact ⟨fun y hy => hq'.1 (hq.1 hy), hq'.2⟩

theorem obeys_ofExcept {r : Except S.Exn α}
    (h : ∀ a, r = .ok a → T a K) : D.Obeys M K (Prog.ofExcept r) T := by
  cases r with
  | ok a => exact obeys_ret (h a rfl)
  | error x => exact obeys_raise

/-- A program that only performs actions allowed without facts. -/
theorem obeys_of_uses {q : S.Act → Prop} (h : p.Uses q)
    (hq : ∀ K e, q e → D.allows K e) : D.Obeys M K p := by
  induction p generalizing K with
  | ret a => exact obeys_ret trivial
  | raise x => exact obeys_raise
  | act e k ih =>
      exact fun r _ => ⟨_, ⟨hq K e h.1, rfl⟩, (ih r (h.2 r)).of_learned⟩

/-- A loop that obeys from whatever is known obeys. -/
theorem obeys_forEach {f : β → Prog S Unit} {xs : List β}
    (h : ∀ x ∈ xs, ∀ K', K ⊆ K' → D.Obeys M K' (f x)) :
    D.Obeys M K (Prog.forEach f xs) := by
  induction xs generalizing K with
  | nil => exact obeys_ret trivial
  | cons x xs ih =>
      have hhead := h x (List.mem_cons_self ..) K (List.Subset.refl K)
      refine obeys_bind hhead fun _ K' hK _ => ih fun y hy K'' hK' => ?_
      exact h y (List.mem_cons_of_mem x hy) K'' fun z hz => hK' (hK hz)

theorem obeys_mapEach {f : β → Prog S α} {xs : List β}
    {T : α → Prop} (h : ∀ x ∈ xs, ∀ K', K ⊆ K' →
      D.Obeys M K' (f x) fun a _ => T a) :
    D.Obeys M K (Prog.mapEach f xs) fun as _ => ∀ a ∈ as, T a := by
  induction xs generalizing K with
  | nil => exact obeys_ret fun _ h => nomatch h
  | cons x xs ih =>
      have hhead := h x (List.mem_cons_self ..) K (List.Subset.refl K)
      refine obeys_bind hhead fun a K' hK ha => ?_
      refine obeys_bind (ih fun y hy K'' hK' => ?_) fun as K'' _ has => ?_
      · exact h y (List.mem_cons_of_mem x hy) K'' fun z hz => hK' (hK hz)
      · refine obeys_ret fun b hb => ?_
        rcases List.mem_cons.mp hb with rfl | hb
        · exact ha
        · exact has b hb

/-- A discipline that allows more is obeyed too. -/
theorem Obeys.relax {D' : Discipline S F}
    (h : D.Obeys M K p T) (hlearn : D'.learned = D.learned)
    (hallow : ∀ K e, D.allows K e → D'.allows K e) : D'.Obeys M K p T := by
  unfold Obeys at h ⊢
  generalize (fun (K' : List F) (r : Except S.Exn α) =>
    K ⊆ K' ∧ ∀ a, r = .ok a → T a K') = Q at h ⊢
  induction p generalizing K with
  | ret a => exact h
  | raise x => exact h
  | act e k ih =>
      intro r hr
      obtain ⟨K', ⟨hact, hK'⟩, hrest⟩ := h r hr
      refine ⟨K', ⟨hallow _ _ hact, ?_⟩, ih r hrest⟩
      rw [hlearn]
      exact hK'

end Discipline

end Effect
