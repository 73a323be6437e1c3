/-
Many programs over one world: the interleaving semantics, and the
invariant rule every concurrent result of this development goes
through.

# The system

A `Service` names the operations a deployment runs, the program each one
executes, and the moves its surroundings make on their own. A `Sys` is
a world with a list of threads; a `Label` is one step of it: a new
operation arrives, a thread performs its next action under an answer
chosen outside, a thread's process dies before its next action, a
looping thread starts over, or the surroundings move. The log of
performed actions is a history variable: no step reads it.

# The rule

Threads are opaque trees, so an invariant cannot name "the point after
the commit". A `Protocol` gives it the name: phases, the moves between
them, and a phase each operation starts in. If every operation's
program follows the protocol (`Protocol.Conforms`, proved tree by tree
with the rules of `Lib/Prog.lean`), then every reachable system comes
with a roster of phases its threads are in, and an assertion on world,
log and roster that each protocol move keeps (`Keeps`) holds of all of
them (`Run.invariant`). The threads themselves never appear in the
argument again.

A `Guard` restricts the steps a run may take. It is how a property that
holds only while some step is avoided is stated over whole runs.
-/
import ResumeScreening.Lib.Prog
import Mathlib.Data.List.Forall2

namespace Effect

variable {S : Sig} {M : Machine S}

-- ============================================================= the system

/-- A deployment: operations, their programs, and the moves its
surroundings make. A looping operation starts over when it returns. -/
structure Service (M : Machine S) where
  Op : Type
  Resp : Type
  Env : Type
  body : Op → Prog S Resp
  loops : Op → Bool
  env : Env → M.World → Option M.World

/-- A thread: the operation it serves and the rest of its program,
`none` once its process has died. -/
structure Thread (V : Service M) where
  op : V.Op
  prog : Option (Prog S V.Resp)

/-- The log of performed actions, latest first, with the index of the
thread that performed each. -/
abbrev Log (S : Sig) : Type := List (Nat × Event S)

/-- A running deployment. -/
structure Sys (V : Service M) where
  world : M.World
  threads : List (Thread V)
  log : Log S

/-- One step: an arrival, an answered action, the death of a process, a
looping thread starting over, a move of the surroundings. -/
inductive Label (V : Service M)
  | spawn (op : V.Op)
  | act (i : Nat) (ans : (e : S.Act) → M.Ans e)
  | crash (i : Nat)
  | restart (i : Nat)
  | env (k : V.Env)

variable {V : Service M}

/-- The thread that performs a step's action. -/
def Label.actor : Label V → Option Nat
  | .act i _ => some i
  | _ => none

namespace Sys

/-- Nothing running yet. -/
def start (V : Service M) (w : M.World) : Sys V := ⟨w, [], []⟩

/-- The step function; `none` where the label is not enabled. -/
def step (s : Sys V) : Label V → Option (Sys V)
  | .spawn op =>
      some { s with threads := s.threads ++ [⟨op, some (V.body op)⟩] }
  | .act i ans =>
      match s.threads[i]? with
      | some ⟨op, some (.act e k)⟩ =>
          if M.admits s.world e (ans e) then
            some { world := (M.perform e (ans e) s.world).2
                   threads := s.threads.set i
                     ⟨op, some (k (M.perform e (ans e) s.world).1)⟩
                   log := (i, ⟨e, (M.perform e (ans e) s.world).1⟩)
                     :: s.log }
          else none
      | _ => none
  | .crash i =>
      match s.threads[i]? with
      | some ⟨op, some (.act _ _)⟩ =>
          some { s with threads := s.threads.set i ⟨op, none⟩ }
      | _ => none
  | .restart i =>
      match s.threads[i]? with
      | some ⟨op, some (.ret _)⟩ =>
          if V.loops op then
            some { s with
              threads := s.threads.set i ⟨op, some (V.body op)⟩ }
          else none
      | _ => none
  | .env k => (V.env k s.world).map fun w => { s with world := w }

/-- The thread has ended with this result. -/
def Ended (s : Sys V) (i : Nat) (op : V.Op)
    (r : Except S.Exn V.Resp) : Prop :=
  s.threads[i]? = some ⟨op, some (match r with
    | .ok a => .ret a
    | .error x => .raise x)⟩

/-- The result a thread has ended with, if it has. -/
def result? (s : Sys V) (i : Nat) : Option (Except S.Exn V.Resp) :=
  match s.threads[i]? with
  | some ⟨_, some (.ret a)⟩ => some (.ok a)
  | some ⟨_, some (.raise x)⟩ => some (.error x)
  | _ => none

/-- The operation thread `i` serves. -/
def op? (s : Sys V) (i : Nat) : Option V.Op := (s.threads[i]?).map Thread.op

theorem ended_iff {s : Sys V} {i : Nat} {op : V.Op}
    {r : Except S.Exn V.Resp} :
    s.Ended i op r ↔ s.op? i = some op ∧ s.result? i = some r := by
  unfold Ended op? result?
  cases s.threads[i]? with
  | none => simp
  | some t =>
      obtain ⟨op', p⟩ := t
      cases p with
      | none => simp
      | some p =>
          cases p with
          | ret a => cases r <;> simp
          | raise x => cases r <;> simp
          | act e k => cases r <;> simp

/-- The action thread `i` performs next, if it is alive and unfinished. -/
def next? (s : Sys V) (i : Nat) : Option S.Act :=
  match s.threads[i]? with
  | some ⟨_, some p⟩ => p.next?
  | _ => none

end Sys

/-- What a step can be: one case a label, with what enabled it. -/
inductive Sys.Stepped (s : Sys V) : Label V → Sys V → Prop
  | spawn (op : V.Op) : Stepped s (.spawn op)
      { s with threads := s.threads ++ [⟨op, some (V.body op)⟩] }
  | act {i : Nat} {ans : (e : S.Act) → M.Ans e} {op : V.Op} {e : S.Act}
      {k : S.Reply e → Prog S V.Resp} :
      s.threads[i]? = some ⟨op, some (.act e k)⟩ →
      M.admits s.world e (ans e) = true →
      Stepped s (.act i ans)
        { world := (M.perform e (ans e) s.world).2
          threads := s.threads.set i
            ⟨op, some (k (M.perform e (ans e) s.world).1)⟩
          log := (i, ⟨e, (M.perform e (ans e) s.world).1⟩) :: s.log }
  | crash {i : Nat} {op : V.Op} {e : S.Act} {k : S.Reply e → Prog S V.Resp} :
      s.threads[i]? = some ⟨op, some (.act e k)⟩ →
      Stepped s (.crash i) { s with threads := s.threads.set i ⟨op, none⟩ }
  | restart {i : Nat} {op : V.Op} {x : V.Resp} :
      s.threads[i]? = some ⟨op, some (.ret x)⟩ → V.loops op = true →
      Stepped s (.restart i)
        { s with threads := s.threads.set i ⟨op, some (V.body op)⟩ }
  | env {k : V.Env} {w : M.World} : V.env k s.world = some w →
      Stepped s (.env k) { s with world := w }

theorem Sys.stepped {s t : Sys V} {l : Label V} (h : s.step l = some t) :
    s.Stepped l t := by
  cases l with
  | spawn op =>
      cases h
      exact .spawn op
  | act i ans =>
      simp only [Sys.step] at h
      split at h
      next op e k ht =>
        split at h
        next hadm =>
          cases h
          exact .act ht hadm
        next => cases h
      next => cases h
  | crash i =>
      simp only [Sys.step] at h
      split at h
      next op e k ht =>
        cases h
        exact .crash ht
      next => cases h
  | restart i =>
      simp only [Sys.step] at h
      split at h
      next op x ht =>
        split at h
        next hloop =>
          cases h
          exact .restart ht hloop
        next => cases h
      next => cases h
  | env k =>
      simp only [Sys.step, Option.map_eq_some_iff] at h
      obtain ⟨w, hw, rfl⟩ := h
      exact .env hw

/-- A restriction on steps. -/
abbrev Guard (V : Service M) : Type := Sys V → Label V → Prop

/-- Runs all of whose steps meet the guard. -/
inductive Run (ok : Guard V) (s : Sys V) : Sys V → Prop
  | refl : Run ok s s
  | step {t u : Sys V} (l : Label V) :
      Run ok s t → ok t l → t.step l = some u → Run ok s u

namespace Run

variable {ok ok' : Guard V} {s t u : Sys V}

theorem trans (h : Run ok s t) (h' : Run ok t u) : Run ok s u := by
  induction h' with
  | refl => exact h
  | step l _ hok hstep ih => exact .step l ih hok hstep

/-- A guard may be relaxed. -/
theorem mono (h : Run ok s t) (himp : ∀ s l, ok s l → ok' s l) :
    Run ok' s t := by
  induction h with
  | refl => exact .refl
  | step l _ hok hstep ih => exact .step l ih (himp _ _ hok) hstep

end Run

/-- Run a list of labels, failing on the first that is not enabled or
does not meet the guard. -/
def Sys.exec (ok : Guard V) [∀ s l, Decidable (ok s l)] (s : Sys V) :
    List (Label V) → Option (Sys V)
  | [] => some s
  | l :: ls =>
      if ok s l then
        match s.step l with
        | some t => t.exec ok ls
        | none => none
      else none

namespace Run

variable {ok : Guard V} [∀ s l, Decidable (ok s l)] {s t : Sys V}

/-- What an executed list of labels reaches is reached by a run. -/
theorem of_exec {ls : List (Label V)} (h : s.exec ok ls = some t) :
    Run ok s t := by
  induction ls generalizing s with
  | nil =>
      simp only [Sys.exec, Option.some.injEq] at h
      exact h ▸ .refl
  | cons l ls ih =>
      unfold Sys.exec at h
      by_cases hok : ok s l
      · rw [if_pos hok] at h
        cases hl : s.step l with
        | none => simp [hl] at h
        | some s₁ =>
            have hrest : s₁.exec ok ls = some t := by simpa [hl] using h
            exact (Run.refl.step l hok hl).trans (ih hrest)
      · rw [if_neg hok] at h
        cases h

/-- A test that the last state of an executed list of labels passes is
passed by a state some run reaches. -/
theorem exists_of_exec {ls : List (Label V)} {p : Sys V → Bool}
    (h : (s.exec ok ls).map p = some true) :
    ∃ t, Run ok s t ∧ p t = true := by
  cases ht : s.exec ok ls with
  | none => simp [ht] at h
  | some t =>
      simp only [ht, Option.map_some, Option.some.injEq] at h
      exact ⟨t, of_exec ht, h⟩

/-- The same of a last step and the states on its two sides. -/
theorem exists_step_of_exec {ls : List (Label V)} {l : Label V}
    {p : Sys V → Sys V → Bool}
    (h : ((s.exec ok ls).bind fun t => (t.step l).map (p t)) = some true) :
    ∃ t u, Run ok s t ∧ t.step l = some u ∧ p t u = true := by
  cases ht : s.exec ok ls with
  | none => simp [ht] at h
  | some t =>
      cases hu : t.step l with
      | none => simp [ht, hu] at h
      | some u =>
          simp only [ht, Option.bind_some, hu, Option.map_some,
            Option.some.injEq] at h
          exact ⟨t, u, of_exec ht, hu, h⟩

end Run

-- ================================================================ the log

/-- The log only grows. -/
theorem Sys.log_mono {s t : Sys V} {l : Label V} (hstep : s.step l = some t)
    {x : Nat × Event S} (hx : x ∈ s.log) : x ∈ t.log := by
  cases Sys.stepped hstep with
  | act ht hadm => exact List.mem_cons_of_mem _ hx
  | _ => exact hx

-- =========================================================== ended threads

/-- A thread that has ended does not act, and stays as it is unless it
loops. -/
theorem Sys.Ended.step {s t : Sys V} {i : Nat} {op : V.Op}
    {r : Except S.Exn V.Resp} (h : s.Ended i op r) (hloop : V.loops op = false)
    {l : Label V} (hstep : s.step l = some t) :
    t.Ended i op r ∧ l.actor ≠ some i := by
  have hother : ∀ {j : Nat} (x : Thread V), j ≠ i →
      (s.threads.set j x)[i]? = s.threads[i]? := by
    intro j x hji
    rw [List.getElem?_set, if_neg hji]
  -- a thread that acts, dies or loops is not this one
  have hacts : ∀ {j op' e k}, s.threads[j]? = some ⟨op', some (.act e k)⟩ →
      j ≠ i := by
    rintro j op' e k ht rfl
    unfold Sys.Ended at h
    rw [h] at ht
    cases r <;> simp at ht
  have hloops : ∀ {j op' x}, s.threads[j]? = some ⟨op', some (.ret x)⟩ →
      V.loops op' = true → j ≠ i := by
    rintro j op' x ht hlo rfl
    unfold Sys.Ended at h
    rw [h] at ht
    cases r with
    | ok a =>
        cases ht
        rw [hloop] at hlo
        cases hlo
    | error y => simp at ht
  unfold Sys.Ended at h ⊢
  cases Sys.stepped hstep with
  | spawn op' =>
      obtain ⟨hlt, -⟩ := List.getElem?_eq_some_iff.mp h
      exact ⟨by rw [List.getElem?_append_left hlt, h], nofun⟩
  | act ht hadm =>
      have hji := hacts ht
      exact ⟨by rw [hother _ hji, h], by simpa [Label.actor] using hji⟩
  | crash ht => exact ⟨by rw [hother _ (hacts ht), h], nofun⟩
  | restart ht hlo => exact ⟨by rw [hother _ (hloops ht hlo), h], nofun⟩
  | env hw => exact ⟨h, nofun⟩

theorem Run.log_mono {ok : Guard V} {s t : Sys V} (h : Run ok s t)
    {x : Nat × Event S} (hx : x ∈ s.log) : x ∈ t.log := by
  induction h with
  | refl => exact hx
  | step l _ _ hstep ih => exact Sys.log_mono hstep ih

/-- No step of a run from there on is an action of the thread. -/
theorem Run.of_ended {ok : Guard V} {s t : Sys V} (h : Run ok s t) {i : Nat}
    {op : V.Op} {r : Except S.Exn V.Resp} (he : s.Ended i op r)
    (hloop : V.loops op = false) :
    t.Ended i op r ∧ Run (fun s l => ok s l ∧ l.actor ≠ some i) s t := by
  induction h with
  | refl => exact ⟨he, .refl⟩
  | step l _ hok hstep ih =>
      obtain ⟨hend, hrun⟩ := ih
      obtain ⟨hend', hactor⟩ := hend.step hloop hstep
      exact ⟨hend', .step l hrun ⟨hok, hactor⟩ hstep⟩

-- ============================================================== protocols

/-- The phases of a concern: where each operation starts, which
performed actions move from phase to phase, and in which phases it may
end with which results. -/
structure Protocol (V : Service M) (Φ : Type) where
  start : V.Op → Φ
  next : V.Op → Φ → Event S → Φ → Prop
  final : V.Op → Φ → Except S.Exn V.Resp → Prop

/-- The phases a system's threads are in; `none` for a dead thread. -/
abbrev Roster (V : Service M) (Φ : Type) : Type := List (V.Op × Option Φ)

namespace Protocol

variable {Φ : Type} (P : Protocol V Φ)

/-- Every operation's program follows the protocol from its start. -/
def Conforms : Prop :=
  ∀ op, (V.body op).Follows M (P.next op) (P.final op) (P.start op)

/-- A thread is in the phase the roster gives it. -/
def InPhase (t : Thread V) (slot : V.Op × Option Φ) : Prop :=
  t.op = slot.1 ∧
    match t.prog, slot.2 with
    | some p, some ph => p.Follows M (P.next t.op) (P.final t.op) ph
    | none, none => True
    | _, _ => False

/-- The roster names the phases of all threads. -/
def Tracks (s : Sys V) (ros : Roster V Φ) : Prop :=
  List.Forall₂ P.InPhase s.threads ros

/-- What each kind of step must keep for an assertion on world, log and
roster to be an invariant of the guarded runs. -/
structure Keeps (ok : Guard V)
    (I : M.World → Log S → Roster V Φ → Prop) : Prop where
  spawn : ∀ {w log ros} (op : V.Op), I w log ros →
    I w log (ros ++ [(op, some (P.start op))])
  act : ∀ {s : Sys V} {ros i op ph e k ph'} (ans : (e : S.Act) → M.Ans e),
    P.Tracks s ros → I s.world s.log ros →
    ros[i]? = some (op, some ph) →
    s.threads[i]? = some ⟨op, some (.act e k)⟩ →
    M.admits s.world e (ans e) = true → ok s (.act i ans) →
    P.next op ph ⟨e, (M.perform e (ans e) s.world).1⟩ ph' →
    I (M.perform e (ans e) s.world).2
      ((i, ⟨e, (M.perform e (ans e) s.world).1⟩) :: s.log)
      (ros.set i (op, some ph'))
  crash : ∀ {s : Sys V} {ros i op ph e k},
    P.Tracks s ros → I s.world s.log ros →
    ros[i]? = some (op, some ph) →
    s.threads[i]? = some ⟨op, some (.act e k)⟩ → ok s (.crash i) →
    I s.world s.log (ros.set i (op, none))
  restart : ∀ {w log ros i op ph x}, I w log ros →
    ros[i]? = some (op, some ph) → V.loops op = true →
    P.final op ph (.ok x) → I w log (ros.set i (op, some (P.start op)))
  env : ∀ {w w' log ros} (k : V.Env), I w log ros →
    V.env k w = some w' → I w' log ros

/-- What each kind of step must keep for `J` to be an invariant where `I`
is one already. -/
structure KeepsWith (ok : Guard V)
    (I J : M.World → Log S → Roster V Φ → Prop) : Prop where
  spawn : ∀ {w log ros} (op : V.Op), I w log ros → J w log ros →
    J w log (ros ++ [(op, some (P.start op))])
  act : ∀ {s : Sys V} {ros i op ph e k ph'} (ans : (e : S.Act) → M.Ans e),
    P.Tracks s ros → I s.world s.log ros → J s.world s.log ros →
    ros[i]? = some (op, some ph) →
    s.threads[i]? = some ⟨op, some (.act e k)⟩ →
    M.admits s.world e (ans e) = true → ok s (.act i ans) →
    P.next op ph ⟨e, (M.perform e (ans e) s.world).1⟩ ph' →
    J (M.perform e (ans e) s.world).2
      ((i, ⟨e, (M.perform e (ans e) s.world).1⟩) :: s.log)
      (ros.set i (op, some ph'))
  crash : ∀ {s : Sys V} {ros i op ph e k},
    P.Tracks s ros → I s.world s.log ros → J s.world s.log ros →
    ros[i]? = some (op, some ph) →
    s.threads[i]? = some ⟨op, some (.act e k)⟩ → ok s (.crash i) →
    J s.world s.log (ros.set i (op, none))
  restart : ∀ {w log ros i op ph x}, I w log ros → J w log ros →
    ros[i]? = some (op, some ph) → V.loops op = true →
    P.final op ph (.ok x) → J w log (ros.set i (op, some (P.start op)))
  env : ∀ {w w' log ros} (k : V.Env), I w log ros → J w log ros →
    V.env k w = some w' → J w' log ros

variable {P} in
/-- Invariants kept over one another are kept together. -/
theorem Keeps.and {ok : Guard V}
    {I J : M.World → Log S → Roster V Φ → Prop} (hI : P.Keeps ok I)
    (hJ : P.KeepsWith ok I J) :
    P.Keeps ok fun w log ros => I w log ros ∧ J w log ros where
  spawn op h := ⟨hI.spawn op h.1, hJ.spawn op h.1 h.2⟩
  act ans htr h hi ht hadm hok hm :=
    ⟨hI.act ans htr h.1 hi ht hadm hok hm,
      hJ.act ans htr h.1 h.2 hi ht hadm hok hm⟩
  crash htr h hi ht hok :=
    ⟨hI.crash htr h.1 hi ht hok, hJ.crash htr h.1 h.2 hi ht hok⟩
  restart h hi hloop hfin :=
    ⟨hI.restart h.1 hi hloop hfin, hJ.restart h.1 h.2 hi hloop hfin⟩
  env k h hk := ⟨hI.env k h.1 hk, hJ.env k h.1 h.2 hk⟩

variable {P}

/-- The roster of a thread, read off a tracked system. -/
theorem Tracks.get {s : Sys V} {ros : Roster V Φ} (h : P.Tracks s ros)
    {i : Nat} {t : Thread V} (ht : s.threads[i]? = some t) :
    ∃ slot, ros[i]? = some slot ∧ P.InPhase t slot := by
  have hlen : s.threads.length = ros.length := h.length_eq
  have hi : i < s.threads.length := by
    by_contra hn
    rw [List.getElem?_eq_none (by omega)] at ht
    cases ht
  have hi' : i < ros.length := by omega
  have hget := List.forall₂_iff_get.mp h |>.2 i hi hi'
  refine ⟨ros[i], List.getElem?_eq_getElem hi', ?_⟩
  rw [List.getElem?_eq_getElem hi, Option.some.injEq] at ht
  rw [← ht]
  exact hget

/-- The phase of a live thread. -/
theorem Tracks.phase {s : Sys V} {ros : Roster V Φ} (h : P.Tracks s ros)
    {i : Nat} {op : V.Op} {p : Prog S V.Resp}
    (ht : s.threads[i]? = some ⟨op, some p⟩) :
    ∃ ph, ros[i]? = some (op, some ph) ∧
      p.Follows M (P.next op) (P.final op) ph := by
  obtain ⟨⟨op', oph⟩, hslot, hop, hph⟩ := h.get ht
  cases oph with
  | none => exact hph.elim
  | some ph =>
      obtain rfl : op = op' := hop
      exact ⟨ph, hslot, hph⟩

/-- The thread behind a live phase. -/
theorem Tracks.thread {s : Sys V} {ros : Roster V Φ} (h : P.Tracks s ros)
    {i : Nat} {op : V.Op} {ph : Φ} (hr : ros[i]? = some (op, some ph)) :
    ∃ p, s.threads[i]? = some ⟨op, some p⟩ ∧
      p.Follows M (P.next op) (P.final op) ph := by
  have hlen : s.threads.length = ros.length := h.length_eq
  have hi : i < ros.length := by
    by_contra hn
    rw [List.getElem?_eq_none (by omega)] at hr
    cases hr
  obtain ⟨⟨op', op?⟩, ht⟩ : ∃ t, s.threads[i]? = some t :=
    ⟨_, List.getElem?_eq_getElem (by omega)⟩
  obtain ⟨slot, hslot, hin⟩ := h.get ht
  rw [hslot, Option.some.injEq] at hr
  subst hr
  obtain ⟨hop, hph⟩ := hin
  obtain rfl : op' = op := hop
  cases op? with
  | none => exact hph.elim
  | some p => exact ⟨p, ht, hph⟩

/-- The operation a slot names is the one its thread serves. -/
theorem Tracks.op_of_slot {s : Sys V} {ros : Roster V Φ} (h : P.Tracks s ros)
    {i : Nat} {op : V.Op} {x : Option Φ} (hr : ros[i]? = some (op, x)) :
    s.op? i = some op := by
  have hlen : s.threads.length = ros.length := h.length_eq
  obtain ⟨hi, -⟩ := List.getElem?_eq_some_iff.mp hr
  have ht : s.threads[i]? = some s.threads[i] := List.getElem?_eq_getElem (by omega)
  obtain ⟨slot, hslot, hop, -⟩ := h.get ht
  rw [hr, Option.some.injEq] at hslot
  unfold Sys.op?
  rw [ht, Option.map_some, hop, ← hslot]

/-- Replacing one thread and its slot keeps the tracking. -/
theorem Tracks.set {s : Sys V} {ros : Roster V Φ} (h : P.Tracks s ros)
    (i : Nat) {t : Thread V} {slot : V.Op × Option Φ}
    (hin : P.InPhase t slot) :
    List.Forall₂ P.InPhase (s.threads.set i t) (ros.set i slot) := by
  obtain ⟨hlen, hget⟩ := List.forall₂_iff_get.mp h
  refine List.forall₂_iff_get.mpr ⟨by simp [hlen], ?_⟩
  intro j hj hj'
  simp only [List.get_eq_getElem, List.getElem_set]
  by_cases hij : i = j
  · simp only [hij, if_true]
    exact hin
  · simp only [hij, if_false]
    exact hget j (by simpa using hj) (by simpa using hj')

end Protocol

-- ======================================================= roster bookkeeping

/-- A slot of an updated roster is the new one or an old one elsewhere. -/
theorem roster_set {α : Type} {ros : List α} {i j : Nat} {x y : α}
    (h : (ros.set i x)[j]? = some y) :
    (j = i ∧ y = x) ∨ (j ≠ i ∧ ros[j]? = some y) := by
  rw [List.getElem?_set] at h
  by_cases hij : i = j
  · subst hij
    simp only [if_true] at h
    split at h
    · exact .inl ⟨rfl, by simpa using h.symm⟩
    · cases h
  · rw [if_neg hij] at h
    exact .inr ⟨fun hji => hij hji.symm, h⟩

/-- A slot of an extended roster is the new one or an old one. -/
theorem roster_append {α : Type} {ros : List α} {j : Nat} {x y : α}
    (h : (ros ++ [x])[j]? = some y) :
    (j = ros.length ∧ y = x) ∨ ros[j]? = some y := by
  rw [List.getElem?_append] at h
  split at h
  · exact .inr h
  · next hj =>
      obtain ⟨hlt, hy⟩ := List.getElem?_eq_some_iff.mp h
      simp only [List.length_cons, List.length_nil] at hlt
      refine .inl ⟨by omega, ?_⟩
      simpa using hy.symm

/-- The slot just written. -/
theorem roster_set_self {α : Type} {ros : List α} {i : Nat} {x y : α}
    (h : ros[i]? = some y) : (ros.set i x)[i]? = some x := by
  obtain ⟨hlt, -⟩ := List.getElem?_eq_some_iff.mp h
  rw [List.getElem?_set, if_pos rfl, if_pos hlt]

/-- A slot other than the one written. -/
theorem roster_set_ne {α : Type} {ros : List α} {i j : Nat} {x : α}
    (h : j ≠ i) : (ros.set i x)[j]? = ros[j]? := by
  rw [List.getElem?_set, if_neg fun hij => h hij.symm]

/-- Writing a slot keeps the operation of every slot. -/
theorem roster_set_op {Op Φ : Type} {ros : List (Op × Option Φ)} {i j : Nat}
    {op op' : Op} {x y : Option Φ} (z : Option Φ)
    (hi : ros[i]? = some (op, y)) (hj : ros[j]? = some (op', x)) :
    ∃ x', (ros.set i (op, z))[j]? = some (op', x') := by
  by_cases hji : j = i
  · subst hji
    rw [hi] at hj
    cases hj
    exact ⟨z, roster_set_self hi⟩
  · exact ⟨x, by rw [roster_set_ne hji]; exact hj⟩

/-- Each live slot is an old one or starts over, at `ph₀`. -/
def Renews {Op Φ : Type} (ph₀ : Φ) (ros ros' : List (Op × Option Φ)) : Prop :=
  ∀ ⦃j : Nat⦄ ⦃op : Op⦄ ⦃ph : Φ⦄, ros'[j]? = some (op, some ph) →
    ph = ph₀ ∨ ros[j]? = some (op, some ph)

/-- A slot that dies, or starts over. -/
theorem renews_set {Op Φ : Type} {ros : List (Op × Option Φ)} {i : Nat}
    {op : Op} {x : Option Φ} {ph₀ : Φ} (hx : x = none ∨ x = some ph₀) :
    Renews ph₀ ros (ros.set i (op, x)) := by
  intro j op' ph hj
  rcases roster_set hj with ⟨-, heq⟩ | ⟨-, hold⟩
  · rcases hx with rfl | rfl
    · cases heq
    · cases heq
      exact .inl rfl
  · exact .inr hold

/-- A slot that is new. -/
theorem renews_append {Op Φ : Type} {ros : List (Op × Option Φ)} {op : Op}
    {ph₀ : Φ} : Renews ph₀ ros (ros ++ [(op, some ph₀)]) := by
  intro j op' ph hj
  rcases roster_append hj with ⟨-, heq⟩ | hold
  · cases heq
    exact .inl rfl
  · exact .inr hold

/-- Extending a roster keeps its slots. -/
theorem roster_append_old {α : Type} {ros : List α} {j : Nat} {x y : α}
    (h : ros[j]? = some y) : (ros ++ [x])[j]? = some y := by
  obtain ⟨hlt, -⟩ := List.getElem?_eq_some_iff.mp h
  rw [List.getElem?_append_left hlt, h]

/-- Writing one slot changes a count by that slot alone. -/
theorem roster_countP {α : Type} {ros : List α} {i : Nat} {x : α}
    (p : α → Bool) (y : α) (h : ros[i]? = some x) :
    (ros.set i y).countP p + (if p x then 1 else 0)
      = ros.countP p + if p y then 1 else 0 := by
  induction ros generalizing i with
  | nil => cases h
  | cons z ros ih =>
      cases i with
      | zero =>
          obtain rfl : z = x := by simpa using h
          simp only [List.set_cons_zero, List.countP_cons]
          omega
      | succ i =>
          have hrest := ih (by simpa using h)
          simp only [List.set_cons_succ, List.countP_cons]
          omega

/-- Counting a roster's slots is counting their indices. -/
theorem countP_indices {α : Type} (ros : List α) (p : α → Bool) :
    ros.countP p
      = (List.range ros.length).countP fun i => (ros[i]?).any p := by
  induction ros with
  | nil => rfl
  | cons x ros ih =>
      rw [List.length_cons, List.range_succ_eq_map, List.countP_cons,
        List.countP_cons, List.countP_map, ih]
      rfl

/-- What holds of every live phase of a roster. -/
structure Slots {Op Φ : Type} (F : Op → Φ → Prop)
    (ros : List (Op × Option Φ)) : Prop where
  get : ∀ {i : Nat} {op : Op} {ph : Φ}, ros[i]? = some (op, some ph) → F op ph

namespace Slots

variable {Op Φ : Type} {F F' : Op → Φ → Prop} {ros : List (Op × Option Φ)}
  {i : Nat} {op : Op} {x : Option Φ}

theorem nil : Slots F [] := ⟨fun hj => (nomatch hj)⟩

/-- One slot is written while the others keep what is said of them. -/
theorem advance (h : Slots F ros)
    (hkeep : ∀ {j : Nat} {op' : Op} {ph : Φ}, j ≠ i →
      ros[j]? = some (op', some ph) → F op' ph → F' op' ph)
    (hx : ∀ ph, x = some ph → F' op ph) :
    Slots F' (ros.set i (op, x)) := by
  refine ⟨fun {j op' ph} hj => ?_⟩
  rcases roster_set hj with ⟨-, heq⟩ | ⟨hji, hold⟩
  · cases heq
    exact hx ph rfl
  · exact hkeep hji hold (h.get hold)

theorem set (h : Slots F ros) (hx : ∀ ph, x = some ph → F op ph) :
    Slots F (ros.set i (op, x)) :=
  h.advance (fun _ _ hold => hold) hx

theorem append (h : Slots F ros) (hx : ∀ ph, x = some ph → F op ph) :
    Slots F (ros ++ [(op, x)]) := by
  refine ⟨fun {j op' ph} hj => ?_⟩
  rcases roster_append hj with ⟨-, heq⟩ | hold
  · cases heq
    exact hx ph rfl
  · exact h.get hold

theorem renew (h : Slots F ros) {ph₀ : Φ} {ros' : List (Op × Option Φ)}
    (hr : Renews ph₀ ros ros') (hstart : ∀ op, F op ph₀) : Slots F ros' := by
  refine ⟨fun {j op' ph} hj => ?_⟩
  rcases hr hj with rfl | hold
  · exact hstart op'
  · exact h.get hold

theorem mono (h : Slots F ros) (hF : ∀ op ph, F op ph → F' op ph) :
    Slots F' ros :=
  ⟨fun hj => hF _ _ (h.get hj)⟩

end Slots

-- ====================================================== the invariant rule

variable {Φ : Type} {P : Protocol V Φ} {ok : Guard V}
  {I : M.World → Log S → Roster V Φ → Prop}

/-- One step of a tracked system under a kept invariant. -/
theorem Protocol.Keeps.step (hk : P.Keeps ok I) (hconf : P.Conforms)
    {s t : Sys V} {l : Label V} (hstep : s.step l = some t)
    (hok : ok s l) {ros : Roster V Φ} (htr : P.Tracks s ros)
    (hI : I s.world s.log ros) :
    ∃ ros', P.Tracks t ros' ∧ I t.world t.log ros' := by
  cases Sys.stepped hstep with
  | spawn op =>
      refine ⟨ros ++ [(op, some (P.start op))], ?_, hk.spawn op hI⟩
      exact List.rel_append htr (.cons ⟨rfl, hconf op⟩ .nil)
  | @act i ans op e k ht hadm =>
      obtain ⟨ph, hslot, hfol⟩ := htr.phase ht
      obtain ⟨ph', hmove, hrest⟩ := hfol _ (Machine.possible_of_admits hadm)
      exact ⟨ros.set i (op, some ph'), htr.set i ⟨rfl, hrest⟩,
        hk.act ans htr hI hslot ht hadm hok hmove⟩
  | @crash i op e k ht =>
      obtain ⟨ph, hslot, -⟩ := htr.phase ht
      exact ⟨ros.set i (op, none), htr.set i ⟨rfl, trivial⟩,
        hk.crash (s := s) htr hI hslot ht hok⟩
  | @restart i op x ht hloop =>
      obtain ⟨ph, hslot, hfin⟩ := htr.phase ht
      exact ⟨ros.set i (op, some (P.start op)), htr.set i ⟨rfl, hconf op⟩,
        hk.restart hI hslot hloop hfin⟩
  | @env k w hw => exact ⟨ros, htr, hk.env k hI hw⟩

/-- The invariant rule: a kept assertion holds, with some roster, of
every system a guarded run from a tracked start reaches. -/
theorem Run.invariant_from (hk : P.Keeps ok I) (hconf : P.Conforms)
    {s t : Sys V} (hrun : Run ok s t) {ros : Roster V Φ}
    (htr : P.Tracks s ros) (hI : I s.world s.log ros) :
    ∃ ros', P.Tracks t ros' ∧ I t.world t.log ros' := by
  induction hrun with
  | refl => exact ⟨ros, htr, hI⟩
  | step l _ hok hstep ih =>
      obtain ⟨ros₁, htr₁, hI₁⟩ := ih
      exact hk.step hconf hstep hok htr₁ hI₁

/-- The invariant rule, from a world with nothing running. -/
theorem Run.invariant (hk : P.Keeps ok I) (hconf : P.Conforms)
    {w : M.World} (hinit : I w [] []) {t : Sys V}
    (hrun : Run ok (Sys.start V w) t) :
    ∃ ros, P.Tracks t ros ∧ I t.world t.log ros :=
  hrun.invariant_from hk hconf .nil hinit

end Effect
