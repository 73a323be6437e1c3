/-
A read, between its call and its answer.

An operation that performs one action and answers with what it was told
(`Prog.OneRead`) is answered from one state of the run, somewhere between
the state it arrived after and the state it has ended in (`Run.read`).
So whatever every state from the first on has, its answer shows.
-/
import ResumeScreening.Lib.Interleave

namespace Effect

variable {S : Sig} {M : Machine S} {V : Service M} {α : Type}

/-- A program that answers with what one action tells. -/
def Prog.OneRead (p : Prog S α) (e : S.Act)
    (f : S.Reply e → Except S.Exn α) : Prop :=
  p = .act e fun r => .ofExcept (f r)

theorem Prog.reads_act {e : S.Act} {k : S.Reply e → Prog S α}
    {f : S.Reply e → Except S.Exn α} (h : ∀ r, k r = .ofExcept (f r)) :
    (Prog.act e k).OneRead e f := by
  show Prog.act e k = Prog.act e _
  congr 1
  funext r
  exact h r

namespace Run

variable {ok : Guard V} {s₀ s : Sys V} {op : V.Op} {e : S.Act}
  {f : S.Reply e → Except S.Exn V.Resp} {i : Nat}

/-- A thread that started after `s₀` and serves a read is still to perform
it, or has been told what a state after `s₀` tells. -/
private theorem reading (h : Run ok s₀ s) (hbody : (V.body op).OneRead e f)
    (hloop : V.loops op = false) (hi : s₀.threads.length ≤ i) :
    ∀ p, s.threads[i]? = some ⟨op, some p⟩ → p = V.body op
      ∨ ∃ u a, Run ok s₀ u ∧ Run ok u s ∧ M.admits u.world e a = true
        ∧ p = .ofExcept (f (M.perform e a u.world).1) := by
  induction h with
  | refl =>
      intro p hp
      rw [List.getElem?_eq_none hi] at hp
      cases hp
  | @step t u l hrun hok hstep ih =>
      intro p hp
      -- what was known of the thread before stays true
      have hold : t.threads[i]? = some ⟨op, some p⟩ → p = V.body op
          ∨ ∃ u' a, Run ok s₀ u' ∧ Run ok u' u ∧ M.admits u'.world e a = true
            ∧ p = .ofExcept (f (M.perform e a u'.world).1) := by
        intro ht
        rcases ih p ht with hb | ⟨u', a, hu, hu', hadm, hp'⟩
        · exact .inl hb
        · exact .inr ⟨u', a, hu, .step l hu' hok hstep, hadm, hp'⟩
      cases Sys.stepped hstep with
      | spawn op' =>
          by_cases hlt : i < t.threads.length
          · rw [List.getElem?_append_left hlt] at hp
            exact hold hp
          · obtain ⟨hle, hthread⟩ := List.getElem?_eq_some_iff.mp hp
            rw [List.length_append, List.length_singleton] at hle
            obtain rfl : i = t.threads.length := by omega
            rw [List.getElem_append_right (Nat.le_refl _)] at hthread
            simp only [Nat.sub_self, List.getElem_cons_zero] at hthread
            cases hthread
            exact .inl rfl
      | @act j ans op' e' k ht hadm =>
          rw [List.getElem?_set] at hp
          by_cases hij : j = i
          · subst hij
            rw [if_pos rfl, if_pos (List.getElem?_eq_some_iff.mp ht).1] at hp
            cases hp
            rcases ih _ ht with hb | ⟨u', a, -, -, -, hp'⟩
            · have hread := hb.trans hbody
              cases hread
              exact .inr ⟨t, _, hrun, .step _ .refl hok hstep, hadm, rfl⟩
            · cases hf : f (M.perform e a u'.world).1 with
              | error x => rw [hf] at hp'; cases hp'
              | ok v => rw [hf] at hp'; cases hp'
          · rw [if_neg hij] at hp
            exact hold hp
      | @crash j op' e' k ht =>
          rw [List.getElem?_set] at hp
          by_cases hij : j = i
          · rw [if_pos hij] at hp
            split at hp <;> cases hp
          · rw [if_neg hij] at hp
            exact hold hp
      | @restart j op' x ht hlo =>
          rw [List.getElem?_set] at hp
          by_cases hij : j = i
          · subst hij
            rw [if_pos rfl, if_pos (List.getElem?_eq_some_iff.mp ht).1] at hp
            cases hp
            rw [hloop] at hlo
            cases hlo
          · rw [if_neg hij] at hp
            exact hold hp
      | env hw => exact hold hp

/-- A read that started after `s₀` was answered from a state between `s₀`
and the one it has ended in. -/
theorem read (h : Run ok s₀ s) (hbody : (V.body op).OneRead e f)
    (hloop : V.loops op = false) (hi : s₀.threads.length ≤ i)
    {x : Except S.Exn V.Resp} (hend : s.Ended i op x) :
    ∃ u a, Run ok s₀ u ∧ Run ok u s ∧ M.admits u.world e a = true
      ∧ x = f (M.perform e a u.world).1 := by
  have hbody' : V.body op = .act e fun r => .ofExcept (f r) := hbody
  rcases reading h hbody hloop hi _ hend with hb | ⟨u, a, hu, hu', hadm, hp⟩
  · rw [hbody'] at hb
    cases x <;> cases hb
  · refine ⟨u, a, hu, hu', hadm, ?_⟩
    cases x with
    | error y =>
        cases hf : f (M.perform e a u.world).1 with
        | error z => rw [hf] at hp; cases hp; rfl
        | ok v => rw [hf] at hp; cases hp
    | ok y =>
        cases hf : f (M.perform e a u.world).1 with
        | error z => rw [hf] at hp; cases hp
        | ok v => rw [hf] at hp; cases hp; rfl

/-- A test that two states of an executed list of labels pass is passed by
two states of a run. -/
theorem exists_later_of_exec [∀ s l, Decidable (ok s l)]
    {ls ls' : List (Label V)} {p : Sys V → Sys V → Bool}
    (h : ((s₀.exec ok ls).bind fun t => (t.exec ok ls').map (p t))
      = some true) :
    ∃ t u, Run ok s₀ t ∧ Run ok t u ∧ p t u = true := by
  cases ht : s₀.exec ok ls with
  | none => simp [ht] at h
  | some t =>
      simp only [ht, Option.bind_some] at h
      obtain ⟨u, hu, hp⟩ := exists_of_exec h
      exact ⟨t, u, of_exec ht, hu, hp⟩

end Run

end Effect
