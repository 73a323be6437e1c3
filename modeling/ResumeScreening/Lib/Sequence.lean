/-
Calls made one after another.

`Sequence` runs a service's programs whole, each from the world the last
one left, and keeps what every call started from, was answered and left
behind. A call may raise, or die and leave what it did so far.

Three rules read a sequence: what every call keeps, all calls start and
end in (`Sequence.invariant`), a relation every call extends, such as
growth, holds between any earlier and later world (`Sequence.ordered`),
and what only a key's own call changes stays as it is before and after
that call (`Sequence.apart`). A loop over a list is a sequence of its
passes, up to the first that raises (`Went.forEach`).
-/
import ResumeScreening.Lib.Recorded

namespace Effect

variable {S : Sig} {M : Machine S} {Op α : Type} {body : Op → Prog S α}

/-- A call that has been made. -/
structure Call (M : Machine S) (Op α : Type) where
  before : M.World
  op : Op
  answers : List (Given M)
  result : Option (Except S.Exn α)
  after : M.World

/-- The calls of a run, from a world to a world. -/
inductive Sequence (M : Machine S) (body : Op → Prog S α) (w : M.World) :
    List (Call M Op α) → M.World → Prop
  | nil : Sequence M body w [] w
  | call {log w₁ op as r w₂} : Sequence M body w log w₁ →
      Went M (body op) w₁ as r w₂ →
      Sequence M body w (log ++ [⟨w₁, op, as, r, w₂⟩]) w₂

namespace Sequence

variable {w w' : M.World} {log : List (Call M Op α)}

/-- One more call. -/
theorem made {c : Call M Op α} (h : Sequence M body w log c.before)
    (hwent : Went M (body c.op) c.before c.answers c.result c.after) :
    Sequence M body w (log ++ [c]) c.after :=
  .call h hwent

/-- One more call in front. -/
theorem cons {c : Call M Op α}
    (hwent : Went M (body c.op) c.before c.answers c.result c.after)
    (h : Sequence M body c.after log w') :
    Sequence M body c.before (c :: log) w' := by
  induction h with
  | nil => exact .call .nil hwent
  | call _ hnext ih => exact .call ih hnext

/-- What every call keeps, all calls start and end in. -/
theorem invariant {I : M.World → Prop}
    (hstep : ∀ {op w as r w'}, I w → Went M (body op) w as r w' → I w')
    (h : Sequence M body w log w') (hw : I w) :
    I w' ∧ ∀ c ∈ log, I c.before ∧ I c.after := by
  induction h with
  | nil => exact ⟨hw, fun c hc => nomatch hc⟩
  | call _ hwent ih =>
      have hafter := hstep ih.1 hwent
      refine ⟨hafter, fun c hc => ?_⟩
      rcases List.mem_append.mp hc with hc | hc
      · exact ih.2 c hc
      · rw [List.mem_singleton.mp hc]
        exact ⟨ih.1, hafter⟩

/-- A call was made as the log has it. -/
theorem went (h : Sequence M body w log w') :
    ∀ c ∈ log, Went M (body c.op) c.before c.answers c.result c.after := by
  induction h with
  | nil => exact fun c hc => nomatch hc
  | call _ hwent ih =>
      intro c hc
      rcases List.mem_append.mp hc with hc | hc
      · exact ih c hc
      · rw [List.mem_singleton.mp hc]
        exact hwent

/-- What every call extends, later worlds extend. -/
theorem ordered {R : M.World → M.World → Prop} (hrefl : ∀ w, R w w)
    (htrans : ∀ {a b c}, R a b → R b c → R a c)
    (hstep : ∀ {op w as r w'}, Went M (body op) w as r w' → R w w')
    (h : Sequence M body w log w') :
    R w w' ∧ ∀ c ∈ log, R c.before c.after ∧ R c.after w' := by
  induction h with
  | nil => exact ⟨hrefl w, fun c hc => nomatch hc⟩
  | call _ hwent ih =>
      have hnew := hstep hwent
      refine ⟨htrans ih.1 hnew, fun c hc => ?_⟩
      rcases List.mem_append.mp hc with hc | hc
      · exact ⟨(ih.2 c hc).1, htrans (ih.2 c hc).2 hnew⟩
      · rw [List.mem_singleton.mp hc]
        exact ⟨hnew, hrefl _⟩

/-- What a call of one key leaves alone under every other key. In a sequence
of calls with different keys, each finds and leaves its own key as the
sequence does. -/
theorem apart {K : Type} {key : Op → K} {P : K → M.World → Prop}
    (h : Sequence M body w log w')
    (hkeep : ∀ c ∈ log, ∀ k ≠ key c.op, P k c.after ↔ P k c.before)
    (hkeys : (log.map fun c => key c.op).Nodup) :
    (∀ k, k ∉ log.map (fun c => key c.op) → (P k w' ↔ P k w))
      ∧ ∀ c ∈ log, (P (key c.op) c.before ↔ P (key c.op) w)
        ∧ (P (key c.op) w' ↔ P (key c.op) c.after) := by
  induction h with
  | nil => exact ⟨fun _ _ => Iff.rfl, fun c hc => nomatch hc⟩
  | @call log w₁ op as r w₂ _ _ ih =>
      rw [List.map_append, List.nodup_append] at hkeys
      obtain ⟨hold, -, hnew⟩ := hkeys
      have hlast := hkeep ⟨w₁, op, as, r, w₂⟩ (by simp)
      obtain ⟨hothers, hown⟩ := ih
        (fun c hc => hkeep c (List.mem_append.mpr (.inl hc))) hold
      constructor
      · intro k hk
        simp only [List.map_append, List.map_cons, List.map_nil,
          List.mem_append, List.mem_singleton, not_or] at hk
        exact (hlast k hk.2).trans (hothers k hk.1)
      · intro c hc
        rcases List.mem_append.mp hc with hc | hc
        · obtain ⟨hfound, hleft⟩ := hown c hc
          have hne : key c.op ≠ key op :=
            hnew _ (List.mem_map.mpr ⟨c, hc, rfl⟩) _ (by simp)
          exact ⟨hfound, (hlast _ hne).trans hleft⟩
        · rw [List.mem_singleton.mp hc]
          refine ⟨hothers _ fun hmem => ?_, Iff.rfl⟩
          exact hnew _ hmem _ (by simp) rfl

end Sequence

/-- A loop over a list makes its passes in order: all of them, or up to one
that raises. -/
theorem Went.forEach {body : Op → Prog S Unit} {xs : List Op}
    {w w' : M.World} {as : List (Given M)} {r : Except S.Exn Unit}
    (h : Went M (Prog.forEach body xs) w as (some r) w') :
    ∃ log, Sequence M body w log w' ∧ log.flatMap Call.answers = as
      ∧ ((r = .ok () ∧ log.map Call.op = xs
          ∧ ∀ c ∈ log, c.result = some (.ok ()))
        ∨ ∃ x, r = .error x ∧ ∃ c ∈ log, c.result = some (.error x)) := by
  induction xs generalizing w as with
  | nil =>
      obtain ⟨rfl, hr, rfl⟩ := Went.ret_iff.mp h
      exact ⟨[], .nil, rfl, .inl ⟨Option.some.inj hr, rfl,
        fun c hc => nomatch hc⟩⟩
  | cons op xs ih =>
      rcases Went.bind h with
        ⟨_, as₁, w₁, as₂, rfl, hfirst, hrest⟩ | ⟨x, hx, hfirst⟩ | ⟨hr, -⟩
      · obtain ⟨log, hlog, rfl, hend⟩ := ih hrest
        refine ⟨_, hlog.cons (c := ⟨w, op, as₁, some (.ok ()), w₁⟩) hfirst,
          rfl, ?_⟩
        rcases hend with ⟨rfl, rfl, hall⟩ | ⟨x, hr, c, hc, hx⟩
        · refine .inl ⟨rfl, rfl, fun c hc => ?_⟩
          rcases List.mem_cons.mp hc with rfl | hc
          · rfl
          · exact hall c hc
        · exact .inr ⟨x, hr, c, List.mem_cons_of_mem _ hc, hx⟩
      · refine ⟨[⟨w, op, as, some (.error x), w'⟩], .call .nil hfirst,
          List.append_nil _, .inr ⟨x, Option.some.inj hx, _,
            List.mem_singleton.mpr rfl, rfl⟩⟩
      · cases hr

end Effect
