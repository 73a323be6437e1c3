/-
Vectors are stored under the ids of rows that were drawn, so under an id
drawn now there is none yet.
-/
import ResumeScreening.Pipeline.Vectors

namespace ResumeScreening.Failures

open Effect Pipeline

variable {env : Env} {w : World} {ros : Roster (service env) Phase} {i : Nat}
  {op : Op} {ph ph' : Phase}

/-- Every vector has the id of a candidate's or a job's whose own id was
drawn. -/
def Named (w : World) : Prop :=
  ∀ ns vid v, w.pinecone ns vid = some v → ∃ id ∈ w.usedIds,
    vid = candidateVectorId id.str ∨ vid = jobVectorId id.str

theorem Named.mono {w' : World} (h : Named w)
    (hp : w'.pinecone = w.pinecone) (hu : ∀ id ∈ w.usedIds, id ∈ w'.usedIds) :
    Named w' := by
  intro ns vid v hv
  rw [hp] at hv
  obtain ⟨id, hid, hname⟩ := h ns vid v hv
  exact ⟨id, hu id hid, hname⟩

/-- The id of a vector a thread stores is drawn. -/
theorem upserts_drawn {s : Sys (service env)} {l : Label (service env)}
    {ns : String} {v : VectorRecord} (hc : Core env s.world s.log ros)
    (hi : ros[i]? = some (op, some ph)) (h : Upserts env s l ph' op ph ns v) :
    ∃ id ∈ s.world.usedIds,
      v.id = candidateVectorId id.str ∨ v.id = jobVectorId id.str := by
  have hslot := hc.threads.slots hi
  cases h with
  | @created t payload row =>
      exact ⟨row.id, (hc.threads.owned hi
        (rfl : Phase.owns _ = some row.id)).drawn, .inl rfl⟩
  | @job t payload row =>
      exact ⟨row.id, (hc.threads.owned hi
        (rfl : Phase.owns _ = some row.id)).drawn, .inr rfl⟩
  | @handled k row text p =>
      obtain ⟨hk, hid, -⟩ := hslot
      refine ⟨row.id, ?_, .inl rfl⟩
      rw [hid]
      exact hk.drawn hc.stores

theorem named_keeps (env : Env) (ok : Guard (service env)) :
    (protocol env).KeepsWith ok (Core env) fun w _ _ => Named w where
  spawn _ _ h := h
  act {s ros i op ph e k ph'} ans _ hc h hi ht hadm _ hm := by
    have hused := (hc.did hi hadm rfl hm).grows
    rcases index_step ht rfl hm with hsame | ⟨ns₀, v₀, hups, hset⟩
    · exact h.mono hsame hused
    · intro ns vid v hv
      rw [hset, setAt] at hv
      by_cases hkey : ns = ns₀ ∧ vid = v₀.id
      · obtain ⟨id, hid, hname⟩ := upserts_drawn hc hi hups
        rw [hkey.2]
        exact ⟨id, hused id hid, hname⟩
      · rw [if_neg hkey] at hv
        obtain ⟨id, hid, hname⟩ := h ns vid v hv
        exact ⟨id, hused id hid, hname⟩
  crash _ _ h _ _ _ := h
  restart _ h _ _ _ := h
  env _ _ h hk := by
    obtain ⟨-, hv, hu⟩ := move_frame hk
    exact h.mono hv fun id hid => by rw [hu]; exact hid

/-- In every reachable world. -/
theorem reachable_named {ok : Guard (service env)} {s : Sys (service env)}
    (h : GuardedRun env ok s) : Named s.world := by
  obtain ⟨ros, -, -, hn⟩ := Run.invariant
    ((core_keeps env ok).and (named_keeps env ok)) (conforms env)
    (w := World.empty) ⟨core_init env, fun _ _ _ hv => nomatch hv⟩ h
  exact hn

theorem Named.candidate (h : Named w) {id : UUID} (hid : id ∉ w.usedIds)
    (ns : String) : w.pinecone ns (candidateVectorId id.str) = none := by
  cases hv : w.pinecone ns (candidateVectorId id.str) with
  | none => rfl
  | some v =>
      obtain ⟨c, hc, hname | hname⟩ := h _ _ _ hv
      · rw [candidateVectorId_injective hname] at hid
        exact absurd hc hid
      · exact absurd hname (candidateVectorId_ne_jobVectorId _ _)

theorem Named.job (h : Named w) {id : UUID} (hid : id ∉ w.usedIds)
    (ns : String) : w.pinecone ns (jobVectorId id.str) = none := by
  cases hv : w.pinecone ns (jobVectorId id.str) with
  | none => rfl
  | some v =>
      obtain ⟨j, hj, hname | hname⟩ := h _ _ _ hv
      · exact absurd hname.symm (candidateVectorId_ne_jobVectorId _ _)
      · rw [jobVectorId_injective hname] at hid
        exact absurd hj hid

end ResumeScreening.Failures
