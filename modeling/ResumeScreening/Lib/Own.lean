/-
What a thread's own past entitles it to.

The phase of a thread here is the list of events it has performed, so it
is never hidden: it is what the log holds under the thread's index.
`Rights` say which actions an operation may perform after which events
of its own, and which values it may return after them. Once every
operation respects its rights (`Rights.Respected`, read off its program
with the rules of `Lib/Knowledge.lean`), an assertion on the world, the
log and the operations running is an invariant if each entitled action
keeps it (`Rights.invariant`): neither threads nor rosters appear in the
argument again.
-/
import ResumeScreening.Lib.Knowledge

namespace Effect

variable {S : Sig} {M : Machine S} {V : Service M}

-- ========================================================= a thread's events

/-- The events a thread performed, latest first. -/
def own (i : Nat) (log : Log S) : List (Event S) :=
  (log.filter fun x => x.1 == i).map Prod.snd

section

variable {i j : Nat} {ev : Event S} {log : Log S}

@[simp] theorem mem_own : ev ∈ own i log ↔ (i, ev) ∈ log := by
  unfold own
  simp only [List.mem_map, List.mem_filter, beq_iff_eq]
  constructor
  · intro h
    obtain ⟨⟨j, ev'⟩, ⟨hmem, rfl⟩, rfl⟩ := h
    exact hmem
  · intro h
    exact ⟨(i, ev), ⟨h, rfl⟩, rfl⟩

@[simp] theorem own_cons_self : own i ((i, ev) :: log) = ev :: own i log := by
  simp [own]

theorem own_cons_ne (h : j ≠ i) : own j ((i, ev) :: log) = own j log := by
  have hne : (i == j) = false := by simpa using Ne.symm h
  simp [own, hne]

/-- A thread that has not started has performed nothing. -/
theorem own_of_bound {n : Nat} (h : ∀ x ∈ log, x.1 < n) : own n log = [] := by
  rw [List.eq_nil_iff_forall_not_mem]
  intro ev hev
  have hlt := h _ (mem_own.mp hev)
  simp at hlt

end

/-- The operations of a system's threads. -/
def Sys.ops (s : Sys V) : List V.Op := s.threads.map Thread.op

theorem Sys.op?_eq (s : Sys V) (i : Nat) : s.op? i = s.ops[i]? := by
  simp [Sys.op?, Sys.ops]

/-- Replacing an element by one with the same image. -/
theorem map_set {α β : Type} {f : α → β} {l : List α} {i : Nat} {x y : α}
    (h : l[i]? = some x) (hf : f y = f x) : (l.set i y).map f = l.map f := by
  refine List.ext_getElem? fun j => ?_
  rw [List.map_set, List.getElem?_set, List.length_map, List.getElem?_map]
  split
  next hij =>
    subst hij
    rw [h, if_pos (List.getElem?_eq_some_iff.mp h).1, hf]
    rfl
  next => rfl

/-- The roster of a tracked system names its operations. -/
theorem Protocol.Tracks.ops {Φ : Type} {P : Protocol V Φ} {s : Sys V}
    {ros : Roster V Φ} (h : P.Tracks s ros) : ros.map Prod.fst = s.ops := by
  unfold Protocol.Tracks at h
  unfold Sys.ops
  generalize s.threads = ts at h
  induction h with
  | nil => rfl
  | cons hin _ ih => rw [List.map_cons, List.map_cons, ih, hin.1]

/-- A step starts at most one operation, and changes none. -/
theorem Sys.ops_step {s t : Sys V} {l : Label V} (h : s.step l = some t) :
    ∃ more, t.ops = s.ops ++ more := by
  unfold Sys.ops
  cases Sys.stepped h with
  | spawn op => exact ⟨[op], List.map_append⟩
  | act ht hadm => exact ⟨[], by rw [List.append_nil]; exact map_set ht rfl⟩
  | crash ht => exact ⟨[], by rw [List.append_nil]; exact map_set ht rfl⟩
  | restart ht hloop => exact ⟨[], by rw [List.append_nil]; exact map_set ht rfl⟩
  | env hw => exact ⟨[], (List.append_nil _).symm⟩

/-- A thread that was not there serves the operation that arrived. -/
theorem Sys.op?_step {s t : Sys V} {l : Label V} (h : s.step l = some t)
    {i : Nat} {op : V.Op} (hi : t.op? i = some op) :
    s.op? i = some op ∨ l = .spawn op := by
  have hset : ∀ {j : Nat} {x y : Thread V},
      ((s.threads.set j y)[i]?).map Thread.op = some op →
      s.threads[j]? = some x → y.op = x.op → s.op? i = some op := by
    intro j x y hy hx hop
    rw [← List.getElem?_map, map_set hx hop, List.getElem?_map] at hy
    exact hy
  cases Sys.stepped h with
  | spawn op' =>
      unfold Sys.op? at hi
      obtain ⟨x, hx, rfl⟩ := Option.map_eq_some_iff.mp hi
      rcases roster_append hx with ⟨-, heq⟩ | hold
      · subst heq
        exact .inr rfl
      · refine .inl ?_
        unfold Sys.op?
        rw [hold]
        rfl
  | act ht _ => exact .inl (hset hi ht rfl)
  | crash ht => exact .inl (hset hi ht rfl)
  | restart ht _ => exact .inl (hset hi ht rfl)
  | env _ => exact .inl hi

/-- A thread keeps its operation throughout a run. -/
theorem Run.ops_mono {ok : Guard V} {s t : Sys V} (h : Run ok s t) {i : Nat}
    {op : V.Op} (hi : s.ops[i]? = some op) : t.ops[i]? = some op := by
  induction h with
  | refl => exact hi
  | step l _ _ hstep ih =>
      obtain ⟨more, hmore⟩ := Sys.ops_step hstep
      obtain ⟨hlt, -⟩ := List.getElem?_eq_some_iff.mp ih
      rw [hmore, List.getElem?_append_left hlt, ih]

-- ==================================================================== rights

/-- Which actions an operation may perform after which events of its own,
and which values it may return after them. -/
structure Rights (V : Service M) where
  allows : V.Op → List (Event S) → S.Act → Prop
  ends : V.Op → List (Event S) → V.Resp → Prop

namespace Rights

variable (R : Rights V)

/-- The rights of one operation, as a discipline over its own events. -/
def discipline (op : V.Op) : Discipline S (Event S) where
  learned ev := [ev]
  allows := R.allows op

/-- Every operation's program respects the operation's rights. -/
def Respected : Prop :=
  ∀ op, (R.discipline op).Obeys M [] (V.body op) fun a K => R.ends op K a

/-- The protocol whose phases are the threads' own events. -/
def protocol : Protocol V (List (Event S)) where
  start _ := []
  next op := (R.discipline op).Next
  final op K r := ∀ a, r = .ok a → R.ends op K a

variable {R}

theorem Respected.conforms (h : R.Respected) : R.protocol.Conforms :=
  fun op => Prog.Follows.mono (h op) fun _ _ hq => hq.2

/-- What each kind of step must keep for an assertion on world, log and
operations to be an invariant. -/
structure Keeps (R : Rights V)
    (I : M.World → Log S → List V.Op → Prop) : Prop where
  spawn : ∀ {w log ops} (op : V.Op), I w log ops →
    (∀ x ∈ log, x.1 < ops.length) → I w log (ops ++ [op])
  act : ∀ {w log ops i op} {e : S.Act} {a : M.Ans e}, I w log ops →
    ops[i]? = some op → M.admits w e a = true → R.allows op (own i log) e →
    I (M.perform e a w).2 ((i, ⟨e, (M.perform e a w).1⟩) :: log) ops
  env : ∀ {w w' log ops} (k : V.Env), I w log ops → V.env k w = some w' →
    I w' log ops

/-- What is known of a system whose operations respect their rights. -/
structure Holds (R : Rights V) (I : M.World → Log S → List V.Op → Prop)
    (s : Sys V) : Prop where
  kept : I s.world s.log s.ops
  acts : ∀ {i op e k} {a : M.Ans e},
    s.threads[i]? = some ⟨op, some (.act e k)⟩ →
    M.admits s.world e a = true → R.allows op (own i s.log) e
  ended : ∀ {i op a}, s.Ended i op (.ok a) → R.ends op (own i s.log) a

/-- An assertion with what ties the roster to the log: each phase is the
list of the thread's own events. -/
private structure Tied (I : M.World → Log S → List V.Op → Prop)
    (w : M.World) (log : Log S) (ros : Roster V (List (Event S))) : Prop where
  kept : I w log (ros.map Prod.fst)
  bound : ∀ x ∈ log, x.1 < ros.length
  phase : ∀ {i op K}, ros[i]? = some (op, some K) → K = own i log

variable {I : M.World → Log S → List V.Op → Prop}

private theorem tied_keeps (hk : R.Keeps I) (hloop : ∀ op, V.loops op = false)
    (ok : Guard V) : R.protocol.Keeps ok (Tied I) where
  spawn {w log ros} op h := by
    refine ⟨?_, fun x hx => ?_, fun {i op' K} hi => ?_⟩
    · rw [List.map_append]
      exact hk.spawn op h.kept (by simpa using h.bound)
    · have hlt := h.bound x hx
      rw [List.length_append]
      omega
    · rcases roster_append hi with ⟨rfl, heq⟩ | hold
      · cases heq
        exact (own_of_bound h.bound).symm
      · exact h.phase hold
  act {s ros i op ph e k ph'} ans htr h hi ht hadm _ hmove := by
    obtain ⟨hallow, rfl⟩ := hmove
    obtain rfl := h.phase hi
    have hop : (ros.map Prod.fst)[i]? = some op := by
      rw [List.getElem?_map, hi]
      rfl
    have hsame : ∀ z, (ros.set i (op, z)).map Prod.fst = ros.map Prod.fst :=
      fun z => map_set hi rfl
    refine ⟨?_, fun x hx => ?_, fun {j op' K} hj => ?_⟩
    · rw [hsame]
      exact hk.act h.kept hop hadm hallow
    · rw [List.length_set]
      rcases List.mem_cons.mp hx with rfl | hx
      · exact (List.getElem?_eq_some_iff.mp hi).1
      · exact h.bound x hx
    · rcases roster_set hj with ⟨rfl, heq⟩ | ⟨hji, hold⟩
      · cases heq
        rw [own_cons_self]
        rfl
      · rw [own_cons_ne hji]
        exact h.phase hold
  crash {s ros i op ph e k} htr h hi ht _ := by
    have hsame : (ros.set i (op, none)).map Prod.fst = ros.map Prod.fst :=
      map_set hi rfl
    refine ⟨?_, fun x hx => ?_, fun {j op' K} hj => ?_⟩
    · rw [hsame]
      exact h.kept
    · rw [List.length_set]
      exact h.bound x hx
    · rcases roster_set hj with ⟨-, heq⟩ | ⟨-, hold⟩
      · cases heq
      · exact h.phase hold
  restart {w log ros i op ph x} _ _ hlo _ := by
    rw [hloop op] at hlo
    cases hlo
  env {w w' log ros} k h hw := ⟨hk.env k h.kept hw, h.bound, h.phase⟩

/-- The invariant rule: an assertion every entitled action keeps holds of
every system a run reaches, and there every thread stays within its
rights. -/
theorem invariant {ok : Guard V} (hR : R.Respected)
    (hloop : ∀ op, V.loops op = false) (hk : R.Keeps I) {w : M.World}
    (hinit : I w [] []) {s : Sys V} (hrun : Run ok (Sys.start V w) s) :
    R.Holds I s := by
  have hstart : Tied I w [] ([] : Roster V (List (Event S))) :=
    ⟨hinit, fun x hx => (nomatch hx), fun hj => (nomatch hj)⟩
  obtain ⟨ros, htr, h⟩ :=
    hrun.invariant (tied_keeps hk hloop ok) hR.conforms hstart
  refine ⟨?_, fun {i op e k a} ht hadm => ?_, fun {i op a} hend => ?_⟩
  · rw [← htr.ops]
    exact h.kept
  · obtain ⟨K, hslot, hfol⟩ := htr.phase ht
    obtain ⟨K', ⟨hallow, -⟩, -⟩ := hfol _ (Machine.possible_of_admits hadm)
    rw [← h.phase hslot]
    exact hallow
  · obtain ⟨K, hslot, hfol⟩ := htr.phase hend
    rw [← h.phase hslot]
    exact hfol a rfl

end Rights

end Effect
