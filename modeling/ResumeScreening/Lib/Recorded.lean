/-
Runs with the answers they got.

A trace records replies, and a reply does not tell a write that failed
from one that took effect and lost its reply. `Machine.recorded` is the
machine with the answers kept beside its world, in the order given. Its
runs are the machine's own (`Ran.recorded`, `Ran.forget`), so a condition
on what the outside did at each step can be put on them.
-/
import ResumeScreening.Lib.Outcome

namespace Effect

variable {S : Sig} {M : Machine S} {α β : Type}

/-- An action with the answer it got. -/
structure Given (M : Machine S) where
  act : S.Act
  ans : M.Ans act

/-- An answer of a kind was given. -/
def Saw (p : Given M → Bool) (as : List (Given M)) : Prop :=
  ∃ g ∈ as, p g = true

section

variable {p : Given M → Bool} {as : List (Given M)}

@[simp] theorem saw_cons (g : Given M) :
    Saw p (g :: as) ↔ p g = true ∨ Saw p as := by
  simp [Saw]

@[simp] theorem saw_append (as' : List (Given M)) :
    Saw p (as ++ as') ↔ Saw p as ∨ Saw p as' := by
  simp [Saw, or_and_right, exists_or]

@[simp] theorem not_saw_nil : ¬ Saw p [] := by
  simp [Saw]

end

/-- The machine, keeping the answers it gave. -/
abbrev Machine.recorded (M : Machine S) : Machine S where
  World := M.World × List (Given M)
  Ans := M.Ans
  admits w := M.admits w.1
  perform e a w :=
    ((M.perform e a w.1).1, (M.perform e a w.1).2, w.2 ++ [⟨e, a⟩])

/-- One way a program can go, with the answers it got. -/
def Went (M : Machine S) (p : Prog S α) (w : M.World) (as : List (Given M))
    (r : Option (Except S.Exn α)) (w' : M.World) : Prop :=
  ∃ tr, Ran M.recorded p (w, []) tr r (w', as)

variable {p : Prog S α} {f : α → Prog S β} {tr : List (Event S)}

namespace Ran

/-- The answers of a run can be kept. -/
theorem recorded {w w' : M.World} {r : Option (Except S.Exn α)}
    (h : Ran M p w tr r w') (as : List (Given M)) :
    ∃ as', Ran M.recorded p (w, as) tr r (w', as ++ as') := by
  induction h generalizing as with
  | ret => exact ⟨[], by rw [List.append_nil]; exact .ret⟩
  | raise => exact ⟨[], by rw [List.append_nil]; exact .raise⟩
  | dies => exact ⟨[], by rw [List.append_nil]; exact .dies⟩
  | @act e k w a tr r w' hadm _ ih =>
      obtain ⟨as', h'⟩ := ih (as ++ [⟨e, a⟩])
      rw [List.append_assoc] at h'
      exact ⟨_, .act (M := M.recorded) (a := a) hadm h'⟩

/-- They can be forgotten. -/
theorem forget {x x' : M.recorded.World} {r : Option (Except S.Exn α)}
    (h : Ran M.recorded p x tr r x') : Ran M p x.1 tr r x'.1 := by
  induction h with
  | ret => exact .ret
  | raise => exact .raise
  | dies => exact .dies
  | act hadm _ ih => exact .act hadm ih

/-- A run adds its answers at the end, and adds the same ones behind any
others. -/
theorem shift_from {x x' : M.recorded.World} {r : Option (Except S.Exn α)}
    (h : Ran M.recorded p x tr r x') (before : List (Given M)) :
    ∃ new, x'.2 = x.2 ++ new
      ∧ Ran M.recorded p (x.1, before) tr r (x'.1, before ++ new) := by
  induction h generalizing before with
  | ret =>
      refine ⟨[], (List.append_nil _).symm, ?_⟩
      rw [List.append_nil]
      exact .ret
  | raise =>
      refine ⟨[], (List.append_nil _).symm, ?_⟩
      rw [List.append_nil]
      exact .raise
  | dies =>
      refine ⟨[], (List.append_nil _).symm, ?_⟩
      rw [List.append_nil]
      exact .dies
  | @act e k w a tr r w' hadm _ ih =>
      obtain ⟨new, has, hrun⟩ := ih (before ++ [⟨e, a⟩])
      refine ⟨⟨e, a⟩ :: new, ?_, ?_⟩
      · rw [has, List.append_assoc]
        rfl
      · rw [List.append_assoc] at hrun
        exact .act (M := M.recorded) (a := a) hadm hrun

/-- The answers a run adds are to actions of the program. -/
theorem answered {q : S.Act → Prop} {x x' : M.recorded.World}
    {r : Option (Except S.Exn α)} (h : Ran M.recorded p x tr r x')
    (hp : p.Uses q) (hx : ∀ g ∈ x.2, q g.act) : ∀ g ∈ x'.2, q g.act := by
  induction h with
  | ret => exact hx
  | raise => exact hx
  | dies => exact hx
  | act _ _ ih =>
      refine ih (hp.2 _) fun g hg => ?_
      rcases List.mem_append.mp hg with hg | hg
      · exact hx g hg
      · rw [List.mem_singleton.mp hg]
        exact hp.1

/-- The answers a run adds are to the actions of its trace. -/
theorem acts {x x' : M.recorded.World} {r : Option (Except S.Exn α)}
    (h : Ran M.recorded p x tr r x') :
    x'.2.map Given.act = x.2.map Given.act ++ tr.map Event.act := by
  induction h with
  | ret => exact (List.append_nil _).symm
  | raise => exact (List.append_nil _).symm
  | dies => exact (List.append_nil _).symm
  | act _ _ ih =>
      rw [ih, List.map_append, List.append_assoc]
      rfl

/-- The answers and the trace of a run are to the same actions. -/
theorem forall_acts {q : S.Act → Prop} {w : M.World} {x' : M.recorded.World}
    {r : Option (Except S.Exn α)} (h : Ran M.recorded p (w, []) tr r x') :
    (∀ g ∈ x'.2, q g.act) ↔ ∀ ev ∈ tr, q ev.act := by
  have hacts : x'.2.map Given.act = tr.map Event.act := h.acts
  rw [← List.forall_mem_map, hacts, List.forall_mem_map]

/-- What happened before does not matter to a run. -/
theorem shift {w w' : M.World} {as as' : List (Given M)}
    {r : Option (Except S.Exn α)}
    (h : Ran M.recorded p (w, as) tr r (w', as')) :
    ∃ new, as' = as ++ new ∧ Ran M.recorded p (w, []) tr r (w', new) :=
  h.shift_from []

end Ran

/-- The protocol whose phase is the action performed last. -/
def LastAct (q : S.Act → Prop) (_ : Option S.Act) (ev : Event S)
    (last : Option S.Act) : Prop :=
  q ev.act ∧ last = some ev.act

/-- A program's own actions, with nothing said about its end. -/
theorem Prog.Uses.lastAct {q : S.Act → Prop} (h : p.Uses q) :
    ∀ last, p.Follows M (LastAct q) (fun _ _ => True) last := by
  induction p with
  | ret a => exact fun _ => trivial
  | raise x => exact fun _ => trivial
  | act e k ih =>
      exact fun _ r _ => ⟨some e, ⟨h.1, rfl⟩, ih r (h.2 r) _⟩

theorem Ran.last {q : S.Act → Prop}
    {Q : Option S.Act → Except S.Exn α → Prop} {first : Option S.Act}
    {w w' : M.World} {r : Option (Except S.Exn α)} (h : Ran M p w tr r w')
    (hp : p.Follows M (LastAct q) Q first) :
    (∀ ev ∈ tr, q ev.act)
      ∧ ∀ x, r = some x → Q ((tr.getLast?.map Event.act).or first) x := by
  induction h generalizing first with
  | ret => exact ⟨fun _ hev => (nomatch hev), fun _ hx => by cases hx; exact hp⟩
  | raise =>
      exact ⟨fun _ hev => (nomatch hev), fun _ hx => by cases hx; exact hp⟩
  | dies => exact ⟨fun _ hev => (nomatch hev), fun _ hx => nomatch hx⟩
  | act hadm _ ih =>
      obtain ⟨_, ⟨hq, rfl⟩, hrest⟩ := hp _ (Machine.possible_of_admits hadm)
      obtain ⟨hall, hend⟩ := ih hrest
      constructor
      · intro ev hev
        rcases List.mem_cons.mp hev with rfl | hev
        · exact hq
        · exact hall ev hev
      · intro x hx
        have hQ := hend x hx
        rw [List.getLast?_cons]
        cases hlast : List.getLast? _ with
        | none =>
            rw [hlast] at hQ
            exact hQ
        | some ev =>
            rw [hlast] at hQ
            exact hQ

namespace Went

variable {w w' : M.World} {as : List (Given M)}

@[simp] theorem ret_iff {a : α} {r : Option (Except S.Exn α)} :
    Went M (.ret a) w as r w' ↔ as = [] ∧ r = some (.ok a) ∧ w' = w := by
  constructor
  · rintro ⟨tr, h⟩
    obtain ⟨-, hr, hw⟩ := Ran.ret_iff.mp h
    cases hw
    exact ⟨rfl, hr, rfl⟩
  · rintro ⟨rfl, rfl, rfl⟩
    exact ⟨[], .ret⟩

@[simp] theorem raise_iff {x : S.Exn} {r : Option (Except S.Exn α)} :
    Went M (.raise x) w as r w' ↔ as = [] ∧ r = some (.error x) ∧ w' = w := by
  constructor
  · rintro ⟨tr, h⟩
    obtain ⟨-, hr, hw⟩ := Ran.raise_iff.mp h
    cases hw
    exact ⟨rfl, hr, rfl⟩
  · rintro ⟨rfl, rfl, rfl⟩
    exact ⟨[], .raise⟩

theorem bind {r : Option (Except S.Exn β)} (h : Went M (p.bind f) w as r w') :
    (∃ a as₁ w₁ as₂, as = as₁ ++ as₂ ∧ Went M p w as₁ (some (.ok a)) w₁
        ∧ Went M (f a) w₁ as₂ r w')
      ∨ (∃ x, r = some (.error x) ∧ Went M p w as (some (.error x)) w')
      ∨ (r = none ∧ Went M p w as none w') := by
  obtain ⟨tr, h⟩ := h
  rcases h.bind with ⟨a, tr₁, ⟨w₁, as₁⟩, tr₂, -, hp, hf⟩ | ⟨x, hr, hp⟩ | ⟨hr, hp⟩
  · obtain ⟨as₂, rfl, hf'⟩ := hf.shift
    exact .inl ⟨a, as₁, w₁, as₂, rfl, ⟨tr₁, hp⟩, ⟨tr₂, hf'⟩⟩
  · exact .inr (.inl ⟨x, hr, tr, hp⟩)
  · exact .inr (.inr ⟨hr, tr, hp⟩)

theorem handle {q : S.Exn → Prog S α} {r : Option (Except S.Exn α)}
    (h : Went M (p.handle q) w as r w') :
    (∃ a, r = some (.ok a) ∧ Went M p w as (some (.ok a)) w')
      ∨ (∃ x as₁ w₁ as₂, as = as₁ ++ as₂ ∧ Went M p w as₁ (some (.error x)) w₁
        ∧ Went M (q x) w₁ as₂ r w')
      ∨ (r = none ∧ Went M p w as none w') := by
  obtain ⟨tr, h⟩ := h
  rcases h.handle with ⟨a, hr, hp⟩ | ⟨x, tr₁, ⟨w₁, as₁⟩, tr₂, -, hp, hq⟩ | ⟨hr, hp⟩
  · exact .inl ⟨a, hr, tr, hp⟩
  · obtain ⟨as₂, rfl, hq'⟩ := hq.shift
    exact .inr (.inl ⟨x, as₁, w₁, as₂, rfl, ⟨tr₁, hp⟩, ⟨tr₂, hq'⟩⟩)
  · exact .inr (.inr ⟨hr, tr, hp⟩)

theorem perform {e : S.Act} {r : Option (S.Reply e)}
    (h : Went M (.perform e) w as r w') :
    (as = [] ∧ r = none ∧ w' = w) ∨ ∃ a, M.admits w e a = true
      ∧ as = [⟨e, a⟩] ∧ r = some (M.perform e a w).1
      ∧ w' = (M.perform e a w).2 := by
  obtain ⟨tr, h⟩ := h
  rcases h.perform with ⟨-, hr, hw⟩ | ⟨a, hadm, -, hr, hw⟩
  · cases hw
    exact .inl ⟨rfl, hr, rfl⟩
  · cases hw
    exact .inr ⟨a, hadm, rfl, hr, rfl⟩

/-- One action in front of the rest of a program: the process dies there,
the action raises, or the rest runs. -/
theorem call {e : S.Act} {f : S.Ret e → Prog S β}
    {r : Option (Except S.Exn β)}
    (h : Went M ((Prog.perform e).bind f) w as r w') :
    (r = none ∧ as = [] ∧ w' = w)
      ∨ ∃ a as₂, M.admits w e a = true ∧ as = ⟨e, a⟩ :: as₂
        ∧ ((∃ x, (M.perform e a w).1 = .error x ∧ r = some (.error x)
              ∧ as₂ = [] ∧ w' = (M.perform e a w).2)
            ∨ ∃ v, (M.perform e a w).1 = .ok v
              ∧ Went M (f v) (M.perform e a w).2 as₂ r w') := by
  rcases h.bind with
    ⟨v, as₁, w₁, as₂, rfl, hp, hf⟩ | ⟨x, rfl, hp⟩ | ⟨rfl, hp⟩
  · rcases hp.perform with ⟨-, hr, -⟩ | ⟨a, hadm, rfl, hr, rfl⟩
    · cases hr
    · exact .inr ⟨a, as₂, hadm, rfl, .inr ⟨v, (Option.some.inj hr).symm, hf⟩⟩
  · rcases hp.perform with ⟨-, hr, -⟩ | ⟨a, hadm, rfl, hr, rfl⟩
    · cases hr
    · exact .inr ⟨a, [], hadm, rfl,
        .inl ⟨x, (Option.some.inj hr).symm, rfl, rfl, rfl⟩⟩
  · rcases hp.perform with ⟨rfl, -, rfl⟩ | ⟨a, -, -, hr, -⟩
    · exact .inl ⟨rfl, rfl, rfl⟩
    · cases hr

/-- A program that returned returned a value at the sequencing point. -/
theorem bind_ok {b : β} (h : Went M (p.bind f) w as (some (.ok b)) w') :
    ∃ a as₁ w₁ as₂, as = as₁ ++ as₂ ∧ Went M p w as₁ (some (.ok a)) w₁
      ∧ Went M (f a) w₁ as₂ (some (.ok b)) w' := by
  rcases h.bind with hok | ⟨x, hr, -⟩ | ⟨hr, -⟩
  · exact hok
  · cases hr
  · cases hr

/-- One action in front of a program that returned: it was answered. -/
theorem call_ok {e : S.Act} {f : S.Ret e → Prog S β} {b : β}
    (h : Went M ((Prog.perform e).bind f) w as (some (.ok b)) w') :
    ∃ a v as₂, as = ⟨e, a⟩ :: as₂ ∧ (M.perform e a w).1 = .ok v
      ∧ Went M (f v) (M.perform e a w).2 as₂ (some (.ok b)) w' := by
  rcases h.call with ⟨hr, -⟩ | ⟨a, as₂, -, has, ⟨x, -, hr, -⟩ | ⟨v, hv, h⟩⟩
  · cases hr
  · cases hr
  · exact ⟨a, v, as₂, has, hv, h⟩

/-- The actions a program is answered for are its own. -/
theorem uses {q : S.Act → Prop} {r : Option (Except S.Exn α)}
    (h : Went M p w as r w') (hp : p.Uses q) : ∀ g ∈ as, q g.act := by
  obtain ⟨tr, h⟩ := h
  exact h.answered hp fun g hg => nomatch hg

/-- Answers of a kind the program does not ask for are not seen. -/
theorem not_saw {q : S.Act → Prop} {k : Given M → Bool}
    {r : Option (Except S.Exn α)} (h : Went M p w as r w') (hp : p.Uses q)
    (hk : ∀ g, q g.act → k g = false) : ¬ Saw k as := by
  rintro ⟨g, hg, hyes⟩
  rw [hk g (h.uses hp g hg)] at hyes
  cases hyes

/-- A value a program ends with is one it returns. -/
theorem returns {T : α → Prop} {a : α}
    (h : Went M p w as (some (.ok a)) w') (hp : p.Returns T) : T a := by
  obtain ⟨tr, h⟩ := h
  exact h.returns hp

/-- A program of actions that leave the world alone leaves it alone. -/
theorem same_world {q : S.Act → Prop} {r : Option (Except S.Exn α)}
    (h : Went M p w as r w') (hp : p.Uses q)
    (hq : ∀ e a w, q e → (M.perform e a w).2 = w) : w' = w := by
  obtain ⟨tr, h⟩ := h
  exact h.forget.same_world hp hq

/-- The answers a program gets are to actions its reading allows, and the
last one of them is where the reading ends. -/
theorem last {q : S.Act → Prop} {Q : Option S.Act → Except S.Exn α → Prop}
    {r : Option (Except S.Exn α)} (h : Went M p w as r w')
    (hp : p.Follows M (LastAct q) Q none) :
    (∀ g ∈ as, q g.act)
      ∧ ∀ x, r = some x → Q (as.getLast?.map Given.act) x := by
  obtain ⟨tr, h⟩ := h
  obtain ⟨hall, hend⟩ := h.forget.last hp
  refine ⟨h.forall_acts.mpr hall, fun x hx => ?_⟩
  have hacts : as.map Given.act = tr.map Event.act := h.acts
  have hQ := hend x hx
  rw [Option.or_none, ← List.getLast?_map, ← hacts, List.getLast?_map] at hQ
  exact hQ

/-- What every answered action of a run keeps, the run keeps. -/
theorem kept {I : M.World → Prop} {q : S.Act → Prop}
    {r : Option (Except S.Exn α)} (h : Went M p w as r w')
    (has : ∀ g ∈ as, q g.act)
    (hq : ∀ e a w, q e → I w → I (M.perform e a w).2) (hw : I w) : I w' := by
  obtain ⟨tr, h⟩ := h
  exact h.forget.kept (h.forall_acts.mp has) hq hw

/-- What an oracle leads to is one way a program can go. -/
theorem of_run {O : Oracle M.recorded} {n : Nat}
    {r : Option (Except S.Exn α)}
    (hadm : p.Admitted (M := M.recorded) O n (w, []))
    (hr : (p.run (M := M.recorded) O n (w, [])).1 = r) :
    Went M p w (p.run (M := M.recorded) O n (w, [])).2.2 r
      (p.run (M := M.recorded) O n (w, [])).2.1 := by
  obtain ⟨tr, h⟩ := Ran.of_run hadm
  rw [hr] at h
  exact ⟨tr, h⟩

end Went

end Effect
