/-
A program run alone, as a relation.

`Ran` says how a program can go: the events it performs, the result it
ends with (none where its process dies), and the world it leaves. What
`Prog.run` computes under one oracle is one of these (`Ran.of_run`), so a
statement about all of them is one about every oracle.

The inversion lemmas read a run off the program's text: at a sequencing
point it splits into a run of the first part and, where that returned a
value, a run of the rest (`Ran.bind`); at an action it got an admitted
answer (`Ran.perform`).
-/
import ResumeScreening.Lib.Prog

namespace Effect

variable {S : Sig} {α β : Type}

/-- One way a program can go. -/
inductive Ran (M : Machine S) : Prog S α → M.World → List (Event S) →
    Option (Except S.Exn α) → M.World → Prop
  | ret {a w} : Ran M (.ret a) w [] (some (.ok a)) w
  | raise {x w} : Ran M (.raise x) w [] (some (.error x)) w
  | dies {e k w} : Ran M (.act e k) w [] none w
  | act {e k w a tr r w'} : M.admits w e a = true →
      Ran M (k (M.perform e a w).1) (M.perform e a w).2 tr r w' →
      Ran M (.act e k) w (⟨e, (M.perform e a w).1⟩ :: tr) r w'

variable {M : Machine S} {w w' : M.World} {tr : List (Event S)}

namespace Ran

@[simp] theorem ret_iff {a : α} {r : Option (Except S.Exn α)} :
    Ran M (.ret a) w tr r w' ↔ tr = [] ∧ r = some (.ok a) ∧ w' = w := by
  constructor
  · intro h
    cases h
    exact ⟨rfl, rfl, rfl⟩
  · rintro ⟨rfl, rfl, rfl⟩
    exact .ret

@[simp] theorem raise_iff {x : S.Exn} {r : Option (Except S.Exn α)} :
    Ran M (.raise x) w tr r w' ↔ tr = [] ∧ r = some (.error x) ∧ w' = w := by
  constructor
  · intro h
    cases h
    exact ⟨rfl, rfl, rfl⟩
  · rintro ⟨rfl, rfl, rfl⟩
    exact .raise

/-- A run through a sequencing point. -/
theorem bind {p : Prog S α} {f : α → Prog S β} {r : Option (Except S.Exn β)}
    (h : Ran M (p.bind f) w tr r w') :
    (∃ a tr₁ w₁ tr₂, tr = tr₁ ++ tr₂ ∧ Ran M p w tr₁ (some (.ok a)) w₁
        ∧ Ran M (f a) w₁ tr₂ r w')
      ∨ (∃ x, r = some (.error x) ∧ Ran M p w tr (some (.error x)) w')
      ∨ (r = none ∧ Ran M p w tr none w') := by
  induction p generalizing w tr with
  | ret a => exact .inl ⟨a, [], w, tr, rfl, .ret, h⟩
  | raise x =>
      obtain ⟨rfl, rfl, rfl⟩ := raise_iff.mp h
      exact .inr (.inl ⟨x, rfl, .raise⟩)
  | act e k ih =>
      cases h with
      | dies => exact .inr (.inr ⟨rfl, .dies⟩)
      | act hadm hrest =>
          rcases ih _ hrest with
            ⟨a, tr₁, w₁, tr₂, rfl, hp, hf⟩ | ⟨x, rfl, hp⟩ | ⟨rfl, hp⟩
          · exact .inl ⟨a, _, w₁, tr₂, rfl, .act hadm hp, hf⟩
          · exact .inr (.inl ⟨x, rfl, .act hadm hp⟩)
          · exact .inr (.inr ⟨rfl, .act hadm hp⟩)

/-- A run that returns has returned at the sequencing point. -/
theorem bind_ok {p : Prog S α} {f : α → Prog S β} {b : β}
    (h : Ran M (p.bind f) w tr (some (.ok b)) w') :
    ∃ a tr₁ w₁ tr₂, tr = tr₁ ++ tr₂ ∧ Ran M p w tr₁ (some (.ok a)) w₁
      ∧ Ran M (f a) w₁ tr₂ (some (.ok b)) w' := by
  rcases h.bind with hok | ⟨x, hx, -⟩ | ⟨hx, -⟩
  · exact hok
  · cases hx
  · cases hx

/-- A run through a sequencing point that comes to an end. -/
theorem bind_done {p : Prog S α} {f : α → Prog S β} {r : Except S.Exn β}
    (h : Ran M (p.bind f) w tr (some r) w') :
    (∃ a tr₁ w₁ tr₂, tr = tr₁ ++ tr₂ ∧ Ran M p w tr₁ (some (.ok a)) w₁
        ∧ Ran M (f a) w₁ tr₂ (some r) w')
      ∨ ∃ x, r = .error x ∧ Ran M p w tr (some (.error x)) w' := by
  rcases h.bind with hok | ⟨x, hx, hp⟩ | ⟨hx, -⟩
  · exact .inl hok
  · exact .inr ⟨x, Option.some.inj hx, hp⟩
  · cases hx

/-- Sequencing two runs. -/
theorem seq {p : Prog S α} {f : α → Prog S β} {r : Option (Except S.Exn β)}
    {a : α} {tr₁ tr₂ : List (Event S)} {w₁ : M.World}
    (hp : Ran M p w tr₁ (some (.ok a)) w₁) (hf : Ran M (f a) w₁ tr₂ r w') :
    Ran M (p.bind f) w (tr₁ ++ tr₂) r w' := by
  induction p generalizing w tr₁ with
  | ret b =>
      obtain ⟨rfl, heq, rfl⟩ := ret_iff.mp hp
      cases heq
      exact hf
  | raise x =>
      obtain ⟨-, heq, -⟩ := raise_iff.mp hp
      cases heq
  | act e k ih =>
      cases hp with
      | act hadm hrest => exact .act hadm (ih _ hrest)

/-- An exception passes a sequencing point by. -/
theorem seq_error {p : Prog S α} {f : α → Prog S β} {x : S.Exn}
    (hp : Ran M p w tr (some (.error x)) w') :
    Ran M (p.bind f) w tr (some (.error x)) w' := by
  induction p generalizing w tr with
  | ret b =>
      obtain ⟨-, heq, -⟩ := ret_iff.mp hp
      cases heq
  | raise y =>
      obtain ⟨rfl, heq, rfl⟩ := raise_iff.mp hp
      cases heq
      exact .raise
  | act e k ih =>
      cases hp with
      | act hadm hrest => exact .act hadm (ih _ hrest)

/-- A run through a handler. -/
theorem handle {p : Prog S α} {f : S.Exn → Prog S α}
    {r : Option (Except S.Exn α)} (h : Ran M (p.handle f) w tr r w') :
    (∃ a, r = some (.ok a) ∧ Ran M p w tr (some (.ok a)) w')
      ∨ (∃ x tr₁ w₁ tr₂, tr = tr₁ ++ tr₂ ∧ Ran M p w tr₁ (some (.error x)) w₁
        ∧ Ran M (f x) w₁ tr₂ r w')
      ∨ (r = none ∧ Ran M p w tr none w') := by
  induction p generalizing w tr with
  | ret a =>
      obtain ⟨rfl, rfl, rfl⟩ := ret_iff.mp h
      exact .inl ⟨a, rfl, .ret⟩
  | raise x => exact .inr (.inl ⟨x, [], w, tr, rfl, .raise, h⟩)
  | act e k ih =>
      cases h with
      | dies => exact .inr (.inr ⟨rfl, .dies⟩)
      | act hadm hrest =>
          rcases ih _ hrest with
            ⟨a, rfl, hp⟩ | ⟨x, tr₁, w₁, tr₂, rfl, hp, hf⟩ | ⟨rfl, hp⟩
          · exact .inl ⟨a, rfl, .act hadm hp⟩
          · exact .inr (.inl ⟨x, _, w₁, tr₂, rfl, .act hadm hp, hf⟩)
          · exact .inr (.inr ⟨rfl, .act hadm hp⟩)

/-- A run of one action. -/
theorem perform {e : S.Act} {r : Option (S.Reply e)}
    (h : Ran M (.perform e) w tr r w') :
    (tr = [] ∧ r = none ∧ w' = w) ∨ ∃ a, M.admits w e a = true
      ∧ tr = [⟨e, (M.perform e a w).1⟩] ∧ r = some (M.perform e a w).1
      ∧ w' = (M.perform e a w).2 := by
  cases h with
  | dies => exact .inl ⟨rfl, rfl, rfl⟩
  | @act _ _ _ a tr r w' hadm hrest =>
      refine .inr ⟨a, hadm, ?_⟩
      cases hr : (M.perform e a w).1 with
      | ok v =>
          rw [hr] at hrest
          obtain ⟨rfl, rfl, rfl⟩ := ret_iff.mp hrest
          exact ⟨rfl, rfl, rfl⟩
      | error x =>
          rw [hr] at hrest
          obtain ⟨rfl, rfl, rfl⟩ := raise_iff.mp hrest
          exact ⟨rfl, rfl, rfl⟩

/-- One action answered with a value. -/
theorem performed {e : S.Act} {a : M.Ans e} {v : S.Ret e}
    (hadm : M.admits w e a = true) (hr : (M.perform e a w).1 = .ok v) :
    Ran M (.perform e) w [⟨e, .ok v⟩] (some (.ok v)) (M.perform e a w).2 := by
  rw [← hr]
  refine .act hadm ?_
  rw [hr]
  exact .ret

/-- A run of one action that returned. -/
theorem perform_ok {e : S.Act} {v : S.Ret e}
    (h : Ran M (.perform e) w tr (some (.ok v)) w') :
    ∃ a, M.admits w e a = true ∧ tr = [⟨e, .ok v⟩]
      ∧ (M.perform e a w).1 = .ok v ∧ w' = (M.perform e a w).2 := by
  rcases h.perform with ⟨-, hr, -⟩ | ⟨a, hadm, htr, hr, hw⟩
  · cases hr
  · rw [Option.some.injEq] at hr
    exact ⟨a, hadm, by rw [htr, hr], hr.symm, hw⟩

@[simp] theorem ofExcept_iff {x : Except S.Exn α}
    {r : Option (Except S.Exn α)} :
    Ran M (.ofExcept x) w tr r w' ↔ tr = [] ∧ r = some x ∧ w' = w := by
  cases x with
  | ok a => exact ret_iff
  | error x => exact raise_iff

/-- The actions a run performs are the program's. -/
theorem uses {q : S.Act → Prop} {p : Prog S α} {r : Option (Except S.Exn α)}
    (h : Ran M p w tr r w') (hp : p.Uses q) : ∀ ev ∈ tr, q ev.act := by
  induction h with
  | ret => exact fun ev hev => nomatch hev
  | raise => exact fun ev hev => nomatch hev
  | dies => exact fun ev hev => nomatch hev
  | act _ _ ih =>
      intro ev hev
      rcases List.mem_cons.mp hev with rfl | hev
      · exact hp.1
      · exact ih (hp.2 _) ev hev

/-- A value a run returns is one the program returns. -/
theorem returns {T : α → Prop} {p : Prog S α} {a : α}
    (h : Ran M p w tr (some (.ok a)) w') (hp : p.Returns T) : T a := by
  generalize hr : some (Except.ok a) = r at h
  induction h with
  | ret =>
      cases hr
      exact hp
  | raise => cases hr
  | dies => cases hr
  | act _ _ ih => exact ih (hp _) hr

/-- A measure no action lowers, no run lowers. -/
theorem grows {f : M.World → Nat} {p : Prog S α}
    {r : Option (Except S.Exn α)} (h : Ran M p w tr r w')
    (hf : ∀ e a w, M.admits w e a = true → f w ≤ f (M.perform e a w).2) :
    f w ≤ f w' := by
  induction h with
  | ret => exact Nat.le_refl _
  | raise => exact Nat.le_refl _
  | dies => exact Nat.le_refl _
  | act hadm _ ih => exact Nat.le_trans (hf _ _ _ hadm) ih

/-- What every action of a run keeps, the run keeps. -/
theorem kept {I : M.World → Prop} {q : S.Act → Prop} {p : Prog S α}
    {r : Option (Except S.Exn α)} (h : Ran M p w tr r w')
    (htr : ∀ ev ∈ tr, q ev.act)
    (hq : ∀ e a w, q e → I w → I (M.perform e a w).2) (hw : I w) : I w' := by
  induction h with
  | ret => exact hw
  | raise => exact hw
  | dies => exact hw
  | act _ _ ih =>
      exact ih (fun ev hev => htr ev (List.mem_cons_of_mem _ hev))
        (hq _ _ _ (htr _ List.mem_cons_self) hw)

/-- What every action of the program keeps, a run keeps. -/
theorem keeps {I : M.World → Prop} {q : S.Act → Prop} {p : Prog S α}
    {r : Option (Except S.Exn α)} (h : Ran M p w tr r w') (hp : p.Uses q)
    (hq : ∀ e a w, q e → I w → I (M.perform e a w).2) (hw : I w) : I w' :=
  h.kept (h.uses hp) hq hw

/-- A run of actions that leave the world alone leaves the world alone. -/
theorem same_world {q : S.Act → Prop} {p : Prog S α}
    {r : Option (Except S.Exn α)} (h : Ran M p w tr r w') (hp : p.Uses q)
    (hq : ∀ e a w, q e → (M.perform e a w).2 = w) : w' = w :=
  h.keeps (I := fun u => u = w) hp
    (fun e a u he hu => (hq e a u he).trans hu) rfl

/-- What an oracle makes of a program is one way it can go. -/
theorem of_run {O : Oracle M} :
    ∀ {p : Prog S α} {n : Nat} {w : M.World}, p.Admitted O n w →
      ∃ tr, Ran M p w tr (p.run O n w).1 (p.run O n w).2 := by
  intro p
  induction p with
  | ret a => exact fun _ => ⟨[], .ret⟩
  | raise x => exact fun _ => ⟨[], .raise⟩
  | act e k ih =>
      intro n w hadm
      unfold Prog.run
      unfold Prog.Admitted at hadm
      cases hO : O n e with
      | none => exact ⟨[], .dies⟩
      | some a =>
          simp only [hO] at hadm
          obtain ⟨tr, htr⟩ := ih _ hadm.2
          exact ⟨_, .act hadm.1 htr⟩

/-- The result an oracle leads to is one a run has. -/
theorem exists_of_run {O : Oracle M} {p : Prog S α} {n : Nat}
    {r : Except S.Exn α} (hadm : p.Admitted O n w)
    (h : (p.run O n w).1 = some r) :
    ∃ tr w', Ran M p w tr (some r) w' := by
  obtain ⟨tr, hran⟩ := of_run hadm
  rw [h] at hran
  exact ⟨tr, _, hran⟩

end Ran

end Effect
