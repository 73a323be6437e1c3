/-
Services chained: one lets a request in, the other serves it.

`V` runs on the left machine, `W` on the right one. An operation of a
`Chain` starts as one of `V`, whose answer either ends it or turns it
into an operation of `W`; or it starts as one of `W`; or it is a program
of its own, over both machines.

# The refinement

A run of the chain is a run of `V` and a run of `W` at once, over the
same worlds (`Chain.refines`), as long as the programs of their own
leave the worlds alone. A request is then up to two threads, one in each
service, and `Stage` says what is left of it by what is left of them.
The numbers differ: a request of the chain gets its thread of `W` when
`V` has answered it, so `Half` keeps, for each service, which of its
threads a request has.

What is known of every reachable state of `W` therefore holds of the
chain, and a thread of `W` stands for a request `V` let in (`Entered`).
-/
import ResumeScreening.Lib.Beside
import ResumeScreening.Lib.Interleave
import Mathlib.Logic.Function.Basic

namespace Effect

variable {S T : Sig} {M : Machine S} {N : Machine T} {Q : Asks}

-- ==================================================================== steps

section

variable {V : Service M} {s s' : Sys V} {i : Nat} {t t₀ : Thread V}
  {op : V.Op} {e : S.Act} {k : S.Reply e → Prog S V.Resp}

/-- The state behind an action of thread `i`. -/
abbrev Sys.acted (s : Sys V) (i : Nat) (op : V.Op) (e : S.Act)
    (k : S.Reply e → Prog S V.Resp) (a : M.Ans e) : Sys V where
  world := (M.perform e a s.world).2
  threads := s.threads.set i ⟨op, some (k (M.perform e a s.world).1)⟩
  log := (i, ⟨e, (M.perform e a s.world).1⟩) :: s.log

/-- The state with another thread `i`. -/
abbrev Sys.put (s : Sys V) (i : Nat) (t : Thread V) : Sys V :=
  { s with threads := s.threads.set i t }

/-- The state with one more thread. -/
abbrev Sys.spawned (s : Sys V) (op : V.Op) : Sys V :=
  { s with threads := s.threads ++ [⟨op, some (V.body op)⟩] }

theorem Sys.step_acted {ans : (e : S.Act) → M.Ans e}
    (ht : s.threads[i]? = some ⟨op, some (.act e k)⟩)
    (hadm : M.admits s.world e (ans e) = true) :
    s.step (.act i ans) = some (s.acted i op e k (ans e)) := by
  simp only [Sys.step, ht]
  rw [if_pos hadm]

/-- One thread moves, to `t`, and the others stay. -/
structure Shifts (s s' : Sys V) (i : Nat) (t : Thread V) : Prop where
  len : s.threads.length ≤ s'.threads.length
  self : s'.threads[i]? = some t
  others : ∀ {j}, j ≠ i → s'.threads[j]? = s.threads[j]?
  log : ∀ x, x ∈ s.log → x ∈ s'.log
  logged : ∀ {j ev}, j ≠ i → (j, ev) ∈ s'.log → (j, ev) ∈ s.log

theorem shifts_spawned (s : Sys V) (op : V.Op) :
    Shifts s (s.spawned op) s.threads.length ⟨op, some (V.body op)⟩ where
  len := by simp
  self := by simp
  others {j} hj := by
    by_cases hlt : j < s.threads.length
    · exact List.getElem?_append_left hlt
    · rw [List.getElem?_eq_none (by simp; omega),
        List.getElem?_eq_none (by omega)]
  log _ hx := hx
  logged _ hx := hx

theorem shifts_put (ht : s.threads[i]? = some t₀) : Shifts s (s.put i t) i t where
  len := Nat.le_of_eq List.length_set.symm
  self := roster_set_self ht
  others hj := roster_set_ne hj
  log _ hx := hx
  logged _ hx := hx

theorem shifts_acted (op : V.Op) (k : S.Reply e → Prog S V.Resp)
    (ht : s.threads[i]? = some t₀) (a : M.Ans e) :
    Shifts s (s.acted i op e k a) i
      ⟨op, some (k (M.perform e a s.world).1)⟩ where
  len := Nat.le_of_eq List.length_set.symm
  self := roster_set_self ht
  others hj := roster_set_ne hj
  log _ hx := List.mem_cons_of_mem _ hx
  logged hj hx := by
    rcases List.mem_cons.mp hx with heq | hold
    · exact absurd (congrArg Prod.fst heq) hj
    · exact hold

end

-- ================================================================ numberings

section

variable {B : Sig} {lift : Event S → Event B} {n n' m : Nat}
  {log log' : Log B} {own : Log S} {f : Nat → Option Nat} {i j k : Nat}

/-- Which of `m` threads of a service each of `n` requests has, and that
what these threads did is among what the requests did. -/
structure Half (lift : Event S → Event B) (n : Nat) (log : Log B) (m : Nat)
    (own : Log S) (f : Nat → Option Nat) : Prop where
  fresh : ∀ {j}, n ≤ j → f j = none
  bound : ∀ {j k}, f j = some k → k < m
  inj : ∀ {i j k}, f i = some k → f j = some k → i = j
  onto : ∀ {k}, k < m → ∃ j, f j = some k
  logged : ∀ {k ev}, (k, ev) ∈ own → ∃ j, f j = some k ∧ (j, lift ev) ∈ log

namespace Half

theorem start : Half lift 0 [] 0 [] fun _ => none where
  fresh _ := rfl
  bound h := by cases h
  inj h := by cases h
  onto h := absurd h (Nat.not_lt_zero _)
  logged h := by cases h

/-- More requests, which did more. -/
theorem mono (h : Half lift n log m own f) (hn : n ≤ n')
    (hlog : ∀ x ∈ log, x ∈ log') : Half lift n' log' m own f where
  fresh hj := h.fresh (Nat.le_trans hn hj)
  bound := h.bound
  inj := h.inj
  onto := h.onto
  logged hev := by
    obtain ⟨j, hj, hmem⟩ := h.logged hev
    exact ⟨j, hj, hlog _ hmem⟩

/-- A request gets a thread. -/
theorem enter (h : Half lift n log m own f) (hi : f i = none) (hlt : i < n) :
    Half lift n log (m + 1) own (Function.update f i (some m)) where
  fresh {j} hj := by
    rw [Function.update_of_ne (by omega)]
    exact h.fresh hj
  bound {j k} hj := by
    by_cases hji : j = i
    · subst hji
      rw [Function.update_self] at hj
      cases hj
      exact Nat.lt_succ_self m
    · rw [Function.update_of_ne hji] at hj
      exact Nat.lt_succ_of_lt (h.bound hj)
  inj {j j' k} hj hj' := by
    -- the new number is no old one
    by_cases hji : j = i <;> by_cases hji' : j' = i
    · exact hji.trans hji'.symm
    · subst hji
      rw [Function.update_self] at hj
      rw [Function.update_of_ne hji'] at hj'
      cases hj
      exact absurd (h.bound hj') (Nat.lt_irrefl m)
    · subst hji'
      rw [Function.update_self] at hj'
      rw [Function.update_of_ne hji] at hj
      cases hj'
      exact absurd (h.bound hj) (Nat.lt_irrefl m)
    · rw [Function.update_of_ne hji] at hj
      rw [Function.update_of_ne hji'] at hj'
      exact h.inj hj hj'
  onto {k} hk := by
    rcases Nat.lt_succ_iff_lt_or_eq.mp hk with hold | rfl
    · obtain ⟨j, hj⟩ := h.onto hold
      refine ⟨j, ?_⟩
      rw [Function.update_of_ne, hj]
      rintro rfl
      rw [hi] at hj
      cases hj
    · exact ⟨i, Function.update_self ..⟩
  logged {k ev} hev := by
    obtain ⟨j, hj, hmem⟩ := h.logged hev
    refine ⟨j, ?_, hmem⟩
    rw [Function.update_of_ne, hj]
    rintro rfl
    rw [hi] at hj
    cases hj

/-- A request's thread acts. -/
theorem act (h : Half lift n log m own f) (hi : f i = some k) (ev : Event S) :
    Half lift n ((i, lift ev) :: log) m ((k, ev) :: own) f where
  fresh := h.fresh
  bound := h.bound
  inj := h.inj
  onto := h.onto
  logged {k' ev'} hev := by
    rcases List.mem_cons.mp hev with heq | hold
    · cases heq
      exact ⟨i, hi, List.mem_cons_self⟩
    · obtain ⟨j, hj, hmem⟩ := h.logged hold
      exact ⟨j, hj, List.mem_cons_of_mem _ hmem⟩

end Half

variable {V : Service M} {ts : List (Thread V)} {t : Thread V}

/-- The thread of a request. -/
def view (f : Nat → Option Nat) (ts : List (Thread V)) (j : Nat) :
    Option (Thread V) := (f j).bind fun k => ts[k]?

theorem view_eq_some : view f ts j = some t ↔
    ∃ k, f j = some k ∧ ts[k]? = some t := by
  unfold view
  rw [Option.bind_eq_some_iff]

theorem view_enter_self :
    view (Function.update f i (some ts.length)) (ts ++ [t]) i = some t := by
  simp [view]

/-- A service moves for request `i`, of `n'` that did `log'`, and its
threads of the others stay. -/
structure Moves (lift : Event S → Event B) (n' : Nat) (log' : Log B) (i : Nat)
    (v v' : Sys V) (f f' : Nat → Option Nat) : Prop where
  run : Run (fun _ _ => True) v v'
  half : Half lift n' log' v'.threads.length v'.log f'
  others : ∀ {j}, j ≠ i →
    f' j = f j ∧ view f' v'.threads j = view f v.threads j

namespace Half

variable {v v' : Sys V} {op : V.Op} {e : S.Act}
  {c : S.Reply e → Prog S V.Resp}

theorem view_eq_none (h : Half lift n log ts.length own f) :
    view f ts j = none ↔ f j = none := by
  unfold view
  cases hj : f j with
  | none => simp
  | some k => simp [Nat.not_le.mpr (h.bound hj)]

theorem view_set_self (h : Half lift n log ts.length own f)
    (hi : f i = some k) : view f (ts.set k t) i = some t := by
  simp [view, hi, h.bound hi]

theorem view_set (h : Half lift n log ts.length own f)
    (hi : f i = some k) (hji : j ≠ i) :
    view f (ts.set k t) j = view f ts j := by
  unfold view
  cases hj : f j with
  | none => rfl
  | some k' =>
      refine roster_set_ne ?_
      rintro rfl
      exact hji (h.inj hj hi)

/-- The service does nothing. -/
theorem stays (h : Half lift n log v.threads.length v.log f) (hn : n ≤ n')
    (hlog : ∀ x ∈ log, x ∈ log') : Moves lift n' log' i v v f f where
  run := .refl
  half := h.mono hn hlog
  others _ := ⟨rfl, rfl⟩

/-- The request gets a thread. -/
theorem enters (h : Half lift n log v.threads.length v.log f) (op : V.Op)
    (hn : n ≤ n')
    (hlog : ∀ x ∈ log, x ∈ log') (hi : f i = none) (hlt : i < n') :
    Moves lift n' log' i v (v.spawned op) f
      (Function.update f i (some v.threads.length)) where
  run := .step (.spawn op) .refl trivial rfl
  half := by
    rw [List.length_append]
    exact (h.mono hn hlog).enter hi hlt
  others {j} hji := by
    refine ⟨Function.update_of_ne hji .., ?_⟩
    unfold view
    rw [Function.update_of_ne hji]
    cases hj : f j with
    | none => rfl
    | some k => exact List.getElem?_append_left (h.bound hj)

/-- The request's thread dies, or starts over. -/
theorem puts (h : Half lift n log v.threads.length v.log f) (hn : n ≤ n')
    (hlog : ∀ x ∈ log, x ∈ log') (hi : f i = some k) {l : Label V}
    (hstep : v.step l = some (v.put k t)) :
    Moves lift n' log' i v (v.put k t) f f where
  run := .step l .refl trivial hstep
  half := by
    rw [List.length_set]
    exact h.mono hn hlog
  others hji := ⟨rfl, h.view_set hi hji⟩

/-- The request's thread acts. -/
theorem acts (h : Half lift n log v.threads.length v.log f)
    (ans : (e : S.Act) → M.Ans e) (hn : n ≤ n') (hi : f i = some k)
    (ht : v.threads[k]? = some ⟨op, some (.act e c)⟩)
    (hadm : M.admits v.world e (ans e) = true) :
    Moves lift n' ((i, lift ⟨e, (M.perform e (ans e) v.world).1⟩) :: log) i v
      (v.acted k op e c (ans e)) f f where
  run := .step (.act k ans) .refl trivial (Sys.step_acted ht hadm)
  half := by
    rw [List.length_set]
    exact (h.mono hn fun _ hx => hx).act hi _
  others hji := ⟨rfl, h.view_set hi hji⟩

end Half

end

-- =================================================================== chains

/-- Where an operation starts. -/
inductive Entry (V : Service M) (W : Service N) (Q : Asks) (Resp : Type)
  | first (v : V.Op)
  | second (w : W.Op)
  | other (p : Prog (S.beside T Q) Resp)

/-- How the operations of a chain are served. -/
structure Route (V : Service M) (W : Service N) (Q : Asks) where
  Op : Type
  Resp : Type
  entry : Op → Entry V W Q Resp
  after : Op → V.Resp → Resp ⊕ W.Op
  answer : Op → W.Resp → Resp

namespace Route

variable {V : Service M} {W : Service N} (C : Route V W Q)

/-- What is left of a request that `W` serves. -/
def serving (op : C.Op) (p : Prog T W.Resp) : Prog (S.beside T Q) C.Resp :=
  p.right.bind fun r => .ret (C.answer op r)

/-- What follows an answer of `V`. -/
def next (op : C.Op) (r : V.Resp) : Prog (S.beside T Q) C.Resp :=
  match C.after op r with
  | .inl a => .ret a
  | .inr w => C.serving op (W.body w)

/-- What is left of a request in front of `V`'s answer. -/
def entering (op : C.Op) (p : Prog S V.Resp) : Prog (S.beside T Q) C.Resp :=
  p.left.bind (C.next op)

/-- The program of an operation. -/
def prog (op : C.Op) : Prog (S.beside T Q) C.Resp :=
  match C.entry op with
  | .first v => C.entering op (V.body v)
  | .second w => C.serving op (W.body w)
  | .other p => p

variable {C} {op : C.Op} {α : Type}

/-- A request's program, where `V` answers what a program returns. -/
theorem prog_first {v : V.Op} {p : Prog S α} (f : α → V.Resp)
    (hentry : C.entry op = .first v)
    (hbody : V.body v = p.bind fun a => .ret (f a)) :
    C.prog op = p.left.bind fun a => C.next op (f a) := by
  unfold prog
  rw [hentry]
  show (V.body v).left.bind (C.next op) = _
  rw [hbody, Prog.left_bind, Prog.bind_assoc]
  rfl

theorem prog_second {w : W.Op} {p : Prog T α} (f : α → W.Resp)
    (hentry : C.entry op = .second w)
    (hbody : W.body w = p.bind fun a => .ret (f a)) :
    C.prog op = p.right.bind fun a => .ret (C.answer op (f a)) := by
  unfold prog
  rw [hentry]
  show (W.body w).right.bind _ = _
  rw [hbody, Prog.right_bind, Prog.bind_assoc]
  rfl

theorem prog_other {p : Prog (S.beside T Q) C.Resp}
    (hentry : C.entry op = .other p) : C.prog op = p := by
  unfold prog
  rw [hentry]

end Route

/-- Operations whose programs are those of a route. -/
structure Chain (V : Service M) (W : Service N) (Q : Asks) extends
    Route V W Q where
  body : Op → Prog (S.beside T Q) Resp
  routed : ∀ op, body op = toRoute.prog op
  loops : Op → Bool
  loops_second : ∀ op, loops op = true →
    ∃ w, entry op = .second w ∧ W.loops w = true

namespace Chain

variable {V : Service M} {W : Service N} (C : Chain V W Q)

/-- The chain as a service over both machines. -/
abbrev service (see : Sees M N Q) : Service (M.beside N Q see) where
  Op := C.Op
  Resp := C.Resp
  Env := V.Env ⊕ W.Env
  body := C.body
  loops := C.loops
  env
    | .inl k, w => (V.env k w.1).map fun w₁ => (w₁, w.2)
    | .inr k, w => (W.env k w.2).map fun w₂ => (w.1, w₂)

/-- The steps `refines` is about: a program of its own leaves the worlds
alone. -/
def Calm (see : Sees M N Q) : Guard (C.service see) := fun _ l =>
  ∀ op p, l = .spawn op → C.entry op = .other p →
    p.Uses (M.beside N Q see).Still

variable {C} {see : Sees M N Q} {op : C.Op}

variable (C) (op)

theorem entering_act (e : S.Act) (k : S.Reply e → Prog S V.Resp) :
    ∃ k', C.entering op (.act e k) = .act (.left e) k'
      ∧ ∀ r, k' (r.mapError .inl) = C.entering op (k r) := by
  unfold Route.entering
  rw [Prog.left_act]
  refine ⟨_, rfl, fun r => ?_⟩
  cases r with
  | ok v => rfl
  | error x => rfl

theorem serving_act (e : T.Act) (k : T.Reply e → Prog T W.Resp) :
    ∃ k', C.serving op (.act e k) = .act (.right e) k'
      ∧ ∀ r, k' (r.mapError .inr) = C.serving op (k r) := by
  unfold Route.serving
  rw [Prog.right_act]
  refine ⟨_, rfl, fun r => ?_⟩
  cases r with
  | ok v => rfl
  | error x => rfl

variable {C} {op}

/-- A request that `V` turned away has ended. -/
theorem entering_ret {r : V.Resp} (h : ∀ w, C.after op r ≠ .inr w) :
    ∃ a, C.entering op (.ret r) = .ret a := by
  show ∃ a, C.next op r = .ret a
  unfold Route.next
  cases hr : C.after op r with
  | inl a => exact ⟨a, rfl⟩
  | inr w => exact absurd hr (h w)

/-- A request in front of `V`'s answer that can act is a program of `V`
that can. -/
theorem entering_eq_act {p : Prog S V.Resp} {e : (S.beside T Q).Act}
    {k : (S.beside T Q).Reply e → Prog (S.beside T Q) C.Resp}
    (h : C.entering op p = .act e k)
    (hp : ∀ r w, p = .ret r → C.after op r ≠ .inr w) :
    ∃ e' k', p = .act e' k' := by
  cases p with
  | ret r =>
      obtain ⟨a, ha⟩ := entering_ret fun w => hp r w rfl
      rw [ha] at h
      cases h
  | raise x => cases h
  | act e' k' => exact ⟨e', k', rfl⟩

theorem serving_eq_act {p : Prog T W.Resp} {e : (S.beside T Q).Act}
    {k : (S.beside T Q).Reply e → Prog (S.beside T Q) C.Resp}
    (h : C.serving op p = .act e k) : ∃ e' k', p = .act e' k' := by
  cases p with
  | ret r => cases h
  | raise x => cases h
  | act e' k' => exact ⟨e', k', rfl⟩

theorem serving_eq_ret {p : Prog T W.Resp} {a : C.Resp}
    (h : C.serving op p = .ret a) : ∃ r, p = .ret r ∧ a = C.answer op r := by
  cases p with
  | ret r =>
      cases h
      exact ⟨r, rfl, rfl⟩
  | raise x => cases h
  | act e k =>
      obtain ⟨k', hact, -⟩ := serving_act C op e k
      rw [hact] at h
      cases h

-- =================================================================== stages

variable (C)

/-- How a request came to an operation of `W`: `V` let it in, or it
started there. -/
inductive Entered (op : C.Op) : Option (Thread V) → W.Op → Prop
  | first {v r w} : C.entry op = .first v → C.after op r = .inr w →
      Entered op (some ⟨v, some (.ret r)⟩) w
  | second {w} : C.entry op = .second w → Entered op none w

variable {C} in
theorem Entered.cases {op : C.Op} {x : Option (Thread V)} {w : W.Op}
    (h : C.Entered op x w) :
    (∃ v r, C.entry op = .first v ∧ C.after op r = .inr w
        ∧ x = some ⟨v, some (.ret r)⟩)
      ∨ C.entry op = .second w ∧ x = none := by
  cases h with
  | first hentry hafter => exact .inl ⟨_, _, hentry, hafter, rfl⟩
  | second hentry => exact .inr ⟨hentry, rfl⟩

/-- What is left of a request, by its threads. -/
inductive Stage (see : Sees M N Q) (op : C.Op) :
    Option (Prog (S.beside T Q) C.Resp) → Option (Thread V) →
    Option (Thread W) → Prop
  | alone {p} : (∃ q, C.entry op = .other q) →
      p.Uses (M.beside N Q see).Still → Stage see op (some p) none none
  | aloneDead : (∃ q, C.entry op = .other q) → Stage see op none none none
  | front {v p} : C.entry op = .first v →
      (∀ r w, p = .ret r → C.after op r ≠ .inr w) →
      Stage see op (some (C.entering op p)) (some ⟨v, some p⟩) none
  | frontDead {v} : C.entry op = .first v →
      Stage see op none (some ⟨v, none⟩) none
  | back {x w p} : C.Entered op x w →
      Stage see op (some (C.serving op p)) x (some ⟨w, some p⟩)
  | backDead {x w} : C.Entered op x w → Stage see op none x (some ⟨w, none⟩)

/-- An action of one service, seen in the chain. -/
def onLeft (ev : Event S) : Event (S.beside T Q) :=
  ⟨.left ev.act, ev.reply.mapError .inl⟩

def onRight (ev : Event T) : Event (S.beside T Q) :=
  ⟨.right ev.act, ev.reply.mapError .inr⟩

/-- What a request did is what its threads did, if it has any. -/
def Heard (log : Log (S.beside T Q)) (own : Log S) (own' : Log T)
    (k k' : Option Nat) (j : Nat) : Prop :=
  ∀ {ev}, (j, ev) ∈ log →
    (∃ n x, k = some n ∧ (n, x) ∈ own ∧ ev = onLeft x)
      ∨ (∃ n x, k' = some n ∧ (n, x) ∈ own' ∧ ev = onRight x)
      ∨ k = none ∧ k' = none

/-- A state of the chain and one of each service that stand for one
another, under two numberings. -/
structure Joined (s : Sys (C.service see)) (v : Sys V) (w : Sys W)
    (f g : Nat → Option Nat) : Prop where
  worlds : s.world = (v.world, w.world)
  lefts : Half onLeft s.threads.length s.log v.threads.length v.log f
  rights : Half onRight s.threads.length s.log w.threads.length w.log g
  stage : ∀ {j t}, s.threads[j]? = some t →
    C.Stage see t.op t.prog (view f v.threads j) (view g w.threads j)
  named : ∀ {j ev}, (j, ev) ∈ s.log → j < s.threads.length
  heard : ∀ {j}, Heard s.log v.log w.log (f j) (g j) j

variable {C} {s s' : Sys (C.service see)} {v v' : Sys V} {w w' : Sys W}
  {f f' g g' : Nat → Option Nat} {i : Nat}

theorem joined_start {w₁ : M.World} {w₂ : N.World} :
    C.Joined (Sys.start (C.service see) (w₁, w₂)) (Sys.start V w₁)
      (Sys.start W w₂) (fun _ => none) fun _ => none where
  worlds := rfl
  lefts := .start
  rights := .start
  stage h := by cases h
  named h := by cases h
  heard h := by cases h

namespace Joined

/-- One request moves and the others stay. -/
theorem move {t : Thread (C.service see)} (h : C.Joined s v w f g)
    (hs : Shifts s s' i t) (hworlds : s'.world = (v'.world, w'.world))
    (hv : Moves onLeft s'.threads.length s'.log i v v' f f')
    (hw : Moves onRight s'.threads.length s'.log i w w' g g')
    (hstage : C.Stage see t.op t.prog (view f' v'.threads i)
      (view g' w'.threads i))
    (hheard : Heard s'.log v'.log w'.log (f' i) (g' i) i) :
    C.Joined s' v' w' f' g' where
  worlds := hworlds
  lefts := hv.half
  rights := hw.half
  stage {j t'} ht := by
    by_cases hji : j = i
    · subst hji
      rw [hs.self] at ht
      cases ht
      exact hstage
    · rw [(hv.others hji).2, (hw.others hji).2]
      exact h.stage ((hs.others hji).symm.trans ht)
  named {j ev} hmem := by
    by_cases hji : j = i
    · subst hji
      exact (List.getElem?_eq_some_iff.mp hs.self).1
    · exact Nat.lt_of_lt_of_le (h.named (hs.logged hji hmem)) hs.len
  heard {j} ev hmem := by
    by_cases hji : j = i
    · subst hji
      exact hheard hmem
    · rw [(hv.others hji).1, (hw.others hji).1]
      rcases h.heard (hs.logged hji hmem) with ⟨n, x, hn, hx, rfl⟩
        | ⟨n, x, hn, hx, rfl⟩ | hnone
      · exact .inl ⟨n, x, hn, hv.run.log_mono hx, rfl⟩
      · exact .inr (.inl ⟨n, x, hn, hw.run.log_mono hx, rfl⟩)
      · exact .inr (.inr hnone)

/-- A request in front of `V`'s answer. When `V` has let it in, it gets
its thread of `W`. -/
theorem arrive {op : C.Op} {p : Prog S V.Resp} {v₀ : V.Op}
    (h : C.Joined s v w f g) (he : C.entry op = .first v₀)
    (hs : Shifts s s' i ⟨op, some (C.entering op p)⟩)
    (hworlds : s'.world = (v'.world, w.world))
    (hv : Moves onLeft s'.threads.length s'.log i v v' f f')
    (hview : view f' v'.threads i = some ⟨v₀, some p⟩) (hg : g i = none)
    (hheard : ∀ {ev}, (i, ev) ∈ s'.log →
      ∃ n x, f' i = some n ∧ (n, x) ∈ v'.log ∧ ev = onLeft x) :
    ∃ w' g', Run (fun _ _ => True) w w' ∧ C.Joined s' v' w' f' g' := by
  by_cases hin : ∃ r w₀, p = .ret r ∧ C.after op r = .inr w₀
  · obtain ⟨r, w₀, rfl, hr⟩ := hin
    have hw := h.rights.enters w₀ hs.len hs.log hg
      (List.getElem?_eq_some_iff.mp hs.self).1
    refine ⟨_, _, hw.run, h.move hs hworlds hv hw ?_ fun hmem =>
      .inl (hheard hmem)⟩
    have hnext : C.entering op (.ret r) = C.serving op (W.body w₀) := by
      show C.next op r = _
      unfold Route.next
      rw [hr]
    rw [hview, view_enter_self]
    show C.Stage see op (some (C.entering op (.ret r))) _ _
    rw [hnext]
    exact .back (.first he hr)
  · have hw := h.rights.stays (i := i) hs.len hs.log
    refine ⟨w, g, .refl, h.move hs hworlds hv hw ?_ fun hmem =>
      .inl (hheard hmem)⟩
    rw [hview, hw.half.view_eq_none.mpr hg]
    exact .front he fun r w₀ hp hr => hin ⟨r, w₀, hp, hr⟩

/-- A request arrives. -/
theorem spawn (h : C.Joined s v w f g) (op : C.Op)
    (hcalm : C.Calm see s (.spawn op)) :
    ∃ v' w' f' g', Run (fun _ _ => True) v v' ∧ Run (fun _ _ => True) w w'
      ∧ C.Joined (s.spawned op) v' w' f' g' := by
  have hf := h.lefts.fresh (Nat.le_refl _)
  have hg := h.rights.fresh (Nat.le_refl _)
  have hs := shifts_spawned s op
  have hlt : s.threads.length < (s.spawned op).threads.length :=
    (List.getElem?_eq_some_iff.mp hs.self).1
  have hlv := h.lefts.stays (i := s.threads.length) hs.len hs.log
  have hlw := h.rights.stays (i := s.threads.length) hs.len hs.log
  -- it has done nothing yet
  have hnew : ∀ {ev}, (s.threads.length, ev) ∉ s.log :=
    fun hmem => Nat.lt_irrefl _ (h.named hmem)
  cases he : C.entry op with
  | first v₀ =>
      have hbody : C.body op = C.entering op (V.body v₀) := by
        rw [C.routed]
        unfold Route.prog
        rw [he]
      have hv := h.lefts.enters v₀ hs.len hs.log hf hlt
      have hs' : Shifts s (s.spawned op) s.threads.length
          ⟨op, some (C.entering op (V.body v₀))⟩ := by
        rw [← hbody]
        exact hs
      obtain ⟨w', g', hrun, hj⟩ := h.arrive he hs'
        (show _ = ((v.spawned v₀).world, w.world) from h.worlds) hv
        view_enter_self hg fun hmem => absurd hmem hnew
      exact ⟨_, w', _, g', hv.run, hrun, hj⟩
  | second w₀ =>
      have hbody : C.body op = C.serving op (W.body w₀) := by
        rw [C.routed]
        unfold Route.prog
        rw [he]
      have hw := h.rights.enters w₀ hs.len hs.log hg hlt
      refine ⟨v, _, f, _, .refl, hw.run, h.move hs h.worlds hlv hw ?_
        fun hmem => absurd hmem hnew⟩
      rw [hlv.half.view_eq_none.mpr hf, view_enter_self]
      show C.Stage see op (some (C.body op)) _ _
      rw [hbody]
      exact .back (.second he)
  | other p =>
      have hbody : C.body op = p := by
        rw [C.routed]
        unfold Route.prog
        rw [he]
      refine ⟨v, w, f, g, .refl, .refl, h.move hs h.worlds hlv hlw ?_
        fun hmem => absurd hmem hnew⟩
      rw [hlv.half.view_eq_none.mpr hf, hlw.half.view_eq_none.mpr hg]
      show C.Stage see op (some (C.body op)) _ _
      rw [hbody]
      exact .alone ⟨p, he⟩ (hcalm op p rfl he)

/-- A request acts. -/
theorem act (h : C.Joined s v w f g) {op : C.Op} {e : (S.beside T Q).Act}
    {k : (S.beside T Q).Reply e → Prog (S.beside T Q) C.Resp}
    {ans : (e : (S.beside T Q).Act) → (M.beside N Q see).Ans e}
    (ht : s.threads[i]? = some ⟨op, some (.act e k)⟩)
    (hadm : (M.beside N Q see).admits s.world e (ans e) = true) :
    ∃ v' w' f' g', Run (fun _ _ => True) v v' ∧ Run (fun _ _ => True) w w'
      ∧ C.Joined (s.acted i op e k (ans e)) v' w' f' g' := by
  obtain ⟨world, threads, log⟩ := s
  obtain rfl : world = (v.world, w.world) := h.worlds
  have hs := shifts_acted op k ht (ans e)
  have hlv := h.lefts.stays (i := i) hs.len hs.log
  have hlw := h.rights.stays (i := i) hs.len hs.log
  have hstage : C.Stage see op (some (.act e k)) _ _ := h.stage ht
  generalize hx : view f v.threads i = x at hstage
  generalize hy : view g w.threads i = y at hstage
  generalize hp : some (Prog.act e k) = p at hstage
  cases hstage with
  | alone hop hstill =>
      -- what the request does on its own leaves the worlds alone
      cases hp
      refine ⟨v, w, f, g, .refl, .refl,
        h.move hs (hstill.1 _ _) hlv hlw ?_ fun _ => .inr (.inr
          ⟨h.lefts.view_eq_none.mp hx, h.rights.view_eq_none.mp hy⟩)⟩
      rw [hx, hy]
      exact .alone hop (hstill.2 _)
  | @front v₀ p he hno =>
      have heq : C.entering op p = .act e k := (Option.some.inj hp).symm
      obtain ⟨e', k', rfl⟩ := entering_eq_act heq hno
      obtain ⟨k'', hact, hk⟩ := entering_act C op e' k'
      rw [hact] at heq
      cases heq
      obtain ⟨n, hn, hvn⟩ := view_eq_some.mp hx
      have hg := h.rights.view_eq_none.mp hy
      have hv := h.lefts.acts (fun e => ans (.left e)) hs.len hn hvn hadm
      obtain ⟨w', g', hrun, hj⟩ := h.arrive he (hk _ ▸ hs) rfl hv
        (h.lefts.view_set_self hn) hg fun hmem => by
          rcases List.mem_cons.mp hmem with heq | hold
          · cases heq
            exact ⟨n, _, hn, List.mem_cons_self, rfl⟩
          · have hold := h.heard hold
            rw [hn, hg] at hold
            rcases hold with ⟨m, x, hm, hin, rfl⟩ | ⟨m, x, hm, -⟩ | ⟨hm, -⟩
            · exact ⟨m, x, hn.trans hm, List.mem_cons_of_mem _ hin, rfl⟩
            · cases hm
            · cases hm
      exact ⟨_, w', f, g', hv.run, hrun, hj⟩
  | @back x w₀ p he =>
      have heq : C.serving op p = .act e k := (Option.some.inj hp).symm
      obtain ⟨e', k', rfl⟩ := serving_eq_act heq
      obtain ⟨k'', hact, hk⟩ := serving_act C op e' k'
      rw [hact] at heq
      cases heq
      obtain ⟨n, hn, hwn⟩ := view_eq_some.mp hy
      have hw := h.rights.acts (fun e => ans (.right e)) hs.len hn hwn
        hadm
      refine ⟨v, _, f, g, .refl, hw.run,
        h.move (hk _ ▸ hs) rfl hlv hw ?_ fun hmem => ?_⟩
      · rw [hx, h.rights.view_set_self hn]
        exact .back he
      · rcases List.mem_cons.mp hmem with heq | hold
        · cases heq
          exact .inr (.inl ⟨n, _, hn, List.mem_cons_self, rfl⟩)
        · rcases h.heard hold with hleft | ⟨m, x, hm, hin, rfl⟩ | hnone
          · exact .inl hleft
          · exact .inr (.inl ⟨m, x, hm, List.mem_cons_of_mem _ hin, rfl⟩)
          · exact .inr (.inr hnone)
  | aloneDead hop => cases hp
  | frontDead he => cases hp
  | backDead he => cases hp

/-- A request's process dies. -/
theorem crash (h : C.Joined s v w f g) {op : C.Op} {e : (S.beside T Q).Act}
    {k : (S.beside T Q).Reply e → Prog (S.beside T Q) C.Resp}
    (ht : s.threads[i]? = some ⟨op, some (.act e k)⟩) :
    ∃ v' w' f' g', Run (fun _ _ => True) v v' ∧ Run (fun _ _ => True) w w'
      ∧ C.Joined (s.put i ⟨op, none⟩) v' w' f' g' := by
  have hs := shifts_put (t := ⟨op, none⟩) ht
  have hlv := h.lefts.stays (i := i) hs.len hs.log
  have hlw := h.rights.stays (i := i) hs.len hs.log
  have hstage : C.Stage see op (some (.act e k)) _ _ := h.stage ht
  generalize hx : view f v.threads i = x at hstage
  generalize hy : view g w.threads i = y at hstage
  generalize hp : some (Prog.act e k) = p at hstage
  cases hstage with
  | alone hop hstill =>
      refine ⟨v, w, f, g, .refl, .refl,
        h.move hs h.worlds hlv hlw ?_ h.heard⟩
      rw [hx, hy]
      exact .aloneDead hop
  | @front v₀ p he hno =>
      obtain ⟨e', k', rfl⟩ := entering_eq_act (Option.some.inj hp).symm hno
      obtain ⟨n, hn, hvn⟩ := view_eq_some.mp hx
      have hv := h.lefts.puts (i := i) (t := ⟨v₀, none⟩) hs.len hs.log hn
        (l := .crash n) (by simp only [Sys.step, hvn])
      refine ⟨_, w, f, g, hv.run, .refl,
        h.move hs h.worlds hv hlw ?_ h.heard⟩
      rw [h.lefts.view_set_self hn, hy]
      exact .frontDead he
  | @back x w₀ p he =>
      obtain ⟨e', k', rfl⟩ := serving_eq_act (Option.some.inj hp).symm
      obtain ⟨n, hn, hwn⟩ := view_eq_some.mp hy
      have hw := h.rights.puts (i := i) (t := ⟨w₀, none⟩) hs.len hs.log hn
        (l := .crash n) (by simp only [Sys.step, hwn])
      refine ⟨v, _, f, g, .refl, hw.run,
        h.move hs h.worlds hlv hw ?_ h.heard⟩
      rw [hx, h.rights.view_set_self hn]
      exact .backDead he
  | aloneDead hop => cases hp
  | frontDead he => cases hp
  | backDead he => cases hp

/-- A request starts over: one that started at `W`. -/
theorem restart (h : C.Joined s v w f g) {op : C.Op} {a : C.Resp}
    (ht : s.threads[i]? = some ⟨op, some (.ret a)⟩)
    (hloop : C.loops op = true) :
    ∃ v' w' f' g', Run (fun _ _ => True) v v' ∧ Run (fun _ _ => True) w w'
      ∧ C.Joined (s.put i ⟨op, some (C.body op)⟩) v' w' f' g' := by
  obtain ⟨w₀, hop, hloop'⟩ := C.loops_second op hloop
  have hs := shifts_put (t := ⟨op, some (C.body op)⟩) ht
  have hlv := h.lefts.stays (i := i) hs.len hs.log
  have hbody : C.body op = C.serving op (W.body w₀) := by
    rw [C.routed]
    unfold Route.prog
    rw [hop]
  have hstage : C.Stage see op (some (.ret a)) _ _ := h.stage ht
  generalize hx : view f v.threads i = x at hstage
  generalize hy : view g w.threads i = y at hstage
  generalize hp : some (Prog.ret a) = p at hstage
  cases hstage with
  | alone hop' _ =>
      obtain ⟨q, hq⟩ := hop'
      rw [hop] at hq
      cases hq
  | front he _ =>
      rw [hop] at he
      cases he
  | @back x w₁ p he =>
      obtain ⟨r, rfl, -⟩ := serving_eq_ret (Option.some.inj hp).symm
      obtain ⟨n, hn, hwn⟩ := view_eq_some.mp hy
      cases he with
      | first he _ =>
          rw [hop] at he
          cases he
      | second he =>
          obtain rfl : w₀ = w₁ := by
            rw [hop] at he
            cases he
            rfl
          have hw := h.rights.puts (i := i) (t := ⟨w₀, some (W.body w₀)⟩)
            hs.len hs.log hn (l := .restart n) (by
              simp only [Sys.step, hwn]
              rw [if_pos hloop'])
          refine ⟨v, _, f, g, .refl, hw.run,
            h.move hs h.worlds hlv hw ?_ h.heard⟩
          rw [hx, h.rights.view_set_self hn]
          show C.Stage see op (some (C.body op)) _ _
          rw [hbody]
          exact .back (.second hop)
  | aloneDead hop => cases hp
  | frontDead he => cases hp
  | backDead he => cases hp

/-- One step of the chain is a run of each service. -/
theorem step (h : C.Joined s v w f g) {l : Label (C.service see)}
    (hstep : s.step l = some s') (hcalm : C.Calm see s l) :
    ∃ v' w' f' g', Run (fun _ _ => True) v v' ∧ Run (fun _ _ => True) w w'
      ∧ C.Joined s' v' w' f' g' := by
  cases Sys.stepped hstep with
  | spawn op => exact h.spawn op hcalm
  | act ht hadm => exact h.act ht hadm
  | crash ht => exact h.crash ht
  | restart ht hloop => exact h.restart ht hloop
  | @env k world hk =>
      obtain ⟨world₀, threads, log⟩ := s
      obtain rfl : world₀ = (v.world, w.world) := h.worlds
      cases k with
      | inl k =>
          obtain ⟨world₁, hk₁, rfl⟩ := Option.map_eq_some_iff.mp hk
          exact ⟨{ v with world := world₁ }, w, f, g,
            .step (.env k) .refl trivial (by simp [Sys.step, hk₁]), .refl,
            { worlds := rfl, lefts := h.lefts, rights := h.rights,
              stage := h.stage, named := h.named, heard := h.heard }⟩
      | inr k =>
          obtain ⟨world₂, hk₂, rfl⟩ := Option.map_eq_some_iff.mp hk
          exact ⟨v, { w with world := world₂ }, f, g, .refl,
            .step (.env k) .refl trivial (by simp [Sys.step, hk₂]),
            { worlds := rfl, lefts := h.lefts, rights := h.rights,
              stage := h.stage, named := h.named, heard := h.heard }⟩

/-- A request named by a numbering is there. -/
theorem request {h' : Nat → Option Nat} {j k : Nat}
    (hfresh : ∀ {j}, s.threads.length ≤ j → h' j = none)
    (hk : h' j = some k) : ∃ t, s.threads[j]? = some t := by
  have hlt : j < s.threads.length := by
    by_contra hge
    rw [hfresh (Nat.not_lt.mp hge)] at hk
    cases hk
  exact ⟨_, List.getElem?_eq_getElem hlt⟩

/-- A thread of `V` answers a request that starts there. -/
theorem fronted (h : C.Joined s v w f g) {k : Nat} {u : Thread V}
    (hk : v.threads[k]? = some u) : ∃ j t, s.threads[j]? = some t
      ∧ f j = some k ∧ C.entry t.op = .first u.op := by
  obtain ⟨j, hj⟩ := h.lefts.onto (List.getElem?_eq_some_iff.mp hk).1
  obtain ⟨⟨op, p⟩, ht⟩ := request h.lefts.fresh hj
  refine ⟨j, ⟨op, p⟩, ht, hj, ?_⟩
  have hstage : C.Stage see op p _ _ := h.stage ht
  rw [view_eq_some.mpr ⟨k, hj, hk⟩] at hstage
  show C.entry op = .first u.op
  generalize view g w.threads j = y at hstage
  generalize hx : some u = x at hstage
  cases hstage with
  | alone => cases hx
  | aloneDead => cases hx
  | front he _ =>
      cases hx
      exact he
  | frontDead he =>
      cases hx
      exact he
  | back he =>
      cases he with
      | first he _ =>
          cases hx
          exact he
      | second _ => cases hx
  | backDead he =>
      cases he with
      | first he _ =>
          cases hx
          exact he
      | second _ => cases hx

/-- A thread of `W` serves a request that has entered. -/
theorem served (h : C.Joined s v w f g) {k : Nat} {u : Thread W}
    (hk : w.threads[k]? = some u) : ∃ j t, s.threads[j]? = some t
      ∧ g j = some k ∧ C.Entered t.op (view f v.threads j) u.op := by
  obtain ⟨j, hj⟩ := h.rights.onto (List.getElem?_eq_some_iff.mp hk).1
  obtain ⟨⟨op, p⟩, ht⟩ := request h.rights.fresh hj
  refine ⟨j, ⟨op, p⟩, ht, hj, ?_⟩
  have hstage : C.Stage see op p _ _ := h.stage ht
  rw [view_eq_some.mpr ⟨k, hj, hk⟩] at hstage
  show C.Entered op (view f v.threads j) u.op
  generalize view f v.threads j = x at hstage ⊢
  generalize hy : some u = y at hstage
  cases hstage with
  | alone => cases hy
  | aloneDead => cases hy
  | front => cases hy
  | frontDead => cases hy
  | back he =>
      cases hy
      exact he
  | backDead he =>
      cases hy
      exact he

/-- An answer to a request is one of `V`, or one of `W`, or its program's
own. -/
theorem answered (h : C.Joined s v w f g) {op : C.Op} {a : C.Resp}
    (hi : s.Ended i op (.ok a)) :
    (∃ k v₀ r, f i = some k ∧ C.entry op = .first v₀
        ∧ v.Ended k v₀ (.ok r) ∧ C.after op r = .inl a)
      ∨ (∃ k w₀ r, g i = some k ∧ C.Entered op (view f v.threads i) w₀
        ∧ w.Ended k w₀ (.ok r) ∧ a = C.answer op r)
      ∨ ∃ p, C.entry op = .other p := by
  have hstage : C.Stage see op (some (.ret a)) _ _ := h.stage hi
  generalize hx : view f v.threads i = x at hstage ⊢
  generalize hy : view g w.threads i = y at hstage
  generalize hp : some (Prog.ret a) = p at hstage
  cases hstage with
  | alone hop _ => exact .inr (.inr hop)
  | aloneDead hop => exact .inr (.inr hop)
  | @front v₀ p he hno =>
      obtain ⟨k, hk, hvk⟩ := view_eq_some.mp hx
      have heq : C.entering op p = .ret a := (Option.some.inj hp).symm
      cases p with
      | ret r =>
          replace heq : C.next op r = .ret a := heq
          unfold Route.next at heq
          cases hr : C.after op r with
          | inl a' =>
              rw [hr] at heq
              cases heq
              exact .inl ⟨k, v₀, r, hk, he, hvk, hr⟩
          | inr w₀ => exact absurd hr (hno r w₀ rfl)
      | raise x => cases heq
      | act e c =>
          obtain ⟨c', hact, -⟩ := entering_act C op e c
          rw [hact] at heq
          cases heq
  | frontDead => cases hp
  | @back _ w₀ _ he =>
      obtain ⟨k, hk, hwk⟩ := view_eq_some.mp hy
      obtain ⟨r, rfl, hr⟩ := serving_eq_ret (Option.some.inj hp).symm
      exact .inr (.inl ⟨k, w₀, r, hk, he, hwk, hr⟩)
  | backDead => cases hp

/-- So is a failure. -/
theorem failed (h : C.Joined s v w f g) {op : C.Op} {x : (S.beside T Q).Exn}
    (hi : s.Ended i op (.error x)) :
    (∃ k v₀ y, f i = some k ∧ C.entry op = .first v₀
        ∧ v.Ended k v₀ (.error y) ∧ x = .inl y)
      ∨ (∃ k w₀ z, g i = some k ∧ C.Entered op (view f v.threads i) w₀
        ∧ w.Ended k w₀ (.error z) ∧ x = .inr z)
      ∨ ∃ p, C.entry op = .other p := by
  have hstage : C.Stage see op (some (.raise x)) _ _ := h.stage hi
  generalize hx : view f v.threads i = u at hstage ⊢
  generalize hy : view g w.threads i = y at hstage
  generalize hp : some (Prog.raise x) = p at hstage
  cases hstage with
  | alone hop _ => exact .inr (.inr hop)
  | aloneDead hop => exact .inr (.inr hop)
  | @front v₀ p he hno =>
      obtain ⟨k, hk, hvk⟩ := view_eq_some.mp hx
      have heq : C.entering op p = .raise x := (Option.some.inj hp).symm
      cases p with
      | ret r =>
          obtain ⟨a, ha⟩ := entering_ret fun w₀ => hno r w₀ rfl
          rw [ha] at heq
          cases heq
      | raise y =>
          cases heq
          exact .inl ⟨k, v₀, y, hk, he, hvk, rfl⟩
      | act e c =>
          obtain ⟨c', hact, -⟩ := entering_act C op e c
          rw [hact] at heq
          cases heq
  | frontDead => cases hp
  | @back _ w₀ p he =>
      obtain ⟨k, hk, hwk⟩ := view_eq_some.mp hy
      have heq : C.serving op p = .raise x := (Option.some.inj hp).symm
      cases p with
      | ret r => cases heq
      | raise z =>
          cases heq
          exact .inr (.inl ⟨k, w₀, z, hk, he, hwk, rfl⟩)
      | act e c =>
          obtain ⟨c', hact, -⟩ := serving_act C op e c
          rw [hact] at heq
          cases heq
  | backDead => cases hp

/-- What the request's thread of `V` did, the request did. -/
theorem left_logged (h : C.Joined s v w f g) {k : Nat} {ev : Event S}
    (hk : f i = some k) (hev : (k, ev) ∈ v.log) : (i, onLeft ev) ∈ s.log := by
  obtain ⟨j, hj, hmem⟩ := h.lefts.logged hev
  obtain rfl := h.lefts.inj hj hk
  exact hmem

theorem right_logged (h : C.Joined s v w f g) {k : Nat} {ev : Event T}
    (hk : g i = some k) (hev : (k, ev) ∈ w.log) : (i, onRight ev) ∈ s.log := by
  obtain ⟨j, hj, hmem⟩ := h.rights.logged hev
  obtain rfl := h.rights.inj hj hk
  exact hmem

end Joined

/-- A run of the chain is a run of each service. -/
theorem refines {w₁ : M.World} {w₂ : N.World}
    (h : Run (C.Calm see) (Sys.start (C.service see) (w₁, w₂)) s) :
    ∃ v w f g, Run (fun _ _ => True) (Sys.start V w₁) v
      ∧ Run (fun _ _ => True) (Sys.start W w₂) w ∧ C.Joined s v w f g := by
  induction h with
  | refl => exact ⟨_, _, _, _, .refl, .refl, joined_start⟩
  | step l _ hcalm hstep ih =>
      obtain ⟨v, w, f, g, hv, hw, hj⟩ := ih
      obtain ⟨v', w', f', g', hv', hw', hj'⟩ := hj.step hstep hcalm
      exact ⟨v', w', f', g', hv.trans hv', hw.trans hw', hj'⟩

end Chain

end Effect
