/-
What a step does to the status of a candidate's row: nothing, or it is
a worker's commit that sets it (`status_step`). The conditions on runs
below are about these commits.
-/
import ResumeScreening.Pipeline.Did

namespace ResumeScreening.Pipeline

open Effect

variable {env : Env} {w w' : World} {op : Op} {ph : Phase} {i : Nat}

-- ============================================================ what is committed

/-- The statements a step commits, where the commit reaches the
database. -/
def commits (s : Sys (service env)) : Label (service env) → List Write
  | .act i ans =>
      match s.next? i with
      | some (.commit pending) =>
          if Fate.applied (ans (.commit pending)) then pending else []
      | _ => []
  | _ => []

/-- The statement sets the status of this candidate's row. -/
def setsStatus (c : UUID) (status : Status) : Write → Bool
  | .updateCandidate c' set => c' == c && set.status == some status
  | _ => false

-- ==================================================================== one step

theorem next_of_thread {s : Sys (service env)} {e : Act}
    {k : Except Exn e.Ret → Py Resp}
    (ht : s.threads[i]? = some ⟨op, some (.act e k)⟩) :
    s.next? i = some e := by
  unfold Sys.next?
  rw [ht]
  rfl

theorem op_of_thread {s : Sys (service env)} {p : Option (Py Resp)}
    (ht : s.threads[i]? = some ⟨op, p⟩) : s.op? i = some op := by
  unfold Sys.op?
  rw [ht]
  rfl

theorem commit_unapplied {pending : List Write} {a : Fate}
    (h : ¬ a.applied = true) : (w.commit pending a).2 = w := by
  unfold World.commit
  cases w.db.writeAll pending with
  | none => rfl
  | some db => rw [write_snd, if_neg h]

/-- A status is only ever set to `processing`, `failed` or
`processed`. -/
theorem Writes.status {k : Task} {row : Candidate} {set : CandidatePatch}
    (h : Writes env k row ph set) : ∃ status, set.status = some status
      ∧ (status = .processing ∨ status.final = true) := by
  cases h with
  | processing => exact ⟨.processing, rfl, .inl rfl⟩
  | unreadable => exact ⟨.failed, rfl, .inr rfl⟩
  | refused => exact ⟨.failed, rfl, .inr rfl⟩
  | indexed => exact ⟨.processed, rfl, .inr rfl⟩

/-- What a step does to the status of a row: nothing, or the step is a
worker's commit that sets it. -/
theorem status_step {s : Sys (service env)} {e : Act}
    {k : Except Exn e.Ret → Py Resp} {ans : (e : Act) → e.Ans}
    {r : Except Exn e.Ret} (ht : s.threads[i]? = some ⟨op, some (.act e k)⟩)
    (hw : (perform env e (ans e) s.world).2 = w')
    (hdid : Did env s.world op ph ⟨e, r⟩ w') {r₀ : Candidate}
    (hr₀ : r₀ ∈ s.world.db.candidates.rows) :
    ∃ r' ∈ w'.db.candidates.rows, r'.id = r₀.id ∧ (r'.status = r₀.status
      ∨ ∃ status, (∃ x ∈ commits s (.act i ans),
          setsStatus r₀.id status x = true)
        ∧ r'.status = status
        ∧ (status = .processing ∨ status.final = true)) := by
  cases hdid with
  | alike ha => exact ⟨r₀, ha.candidates ▸ hr₀, rfl, .inl rfl⟩
  | insert hown htab =>
      exact ⟨r₀, (Relational.Table.mem_insert? htab).mpr (.inl hr₀), rfl,
        .inl rfl⟩
  | @update k row set tab _ _ _ _ hwrites _ htab =>
      by_cases hid : r₀.id = row.id
      · by_cases happ : Fate.applied
            (ans (.commit [.updateCandidate row.id set])) = true
        · obtain ⟨status, hset, hkind⟩ := hwrites.status
          refine ⟨set.apply r₀, (Relational.Table.mem_update? htab).mpr
            ⟨r₀, hr₀, by rw [if_pos (by simp [hid])]⟩, rfl, .inr ?_⟩
          refine ⟨status, ⟨.updateCandidate row.id set, ?_, ?_⟩, ?_, hkind⟩
          · simp only [commits, next_of_thread ht, happ, if_true,
              List.mem_singleton]
          · simp [setsStatus, hid, hset]
          · show set.status.getD r₀.status = status
            rw [hset]
            rfl
        · have hsame : (s.world.commit _ _).2 = withRows s.world tab := hw
          rw [commit_unapplied happ] at hsame
          exact ⟨r₀, hsame ▸ hr₀, rfl, .inl rfl⟩
      · exact ⟨r₀, (Relational.Table.mem_update? htab).mpr
          ⟨r₀, hr₀, by rw [if_neg (by simp [hid])]⟩, rfl, .inl rfl⟩
  | _ => exact ⟨r₀, hr₀, rfl, .inl rfl⟩

/-- A commit of one row's status that went through. -/
theorem status_commit {row : UUID} {set : CandidatePatch} {status : Status}
    {a : Fate} {u : Unit} {t : UUID}
    (hr : (perform env (.commit [.updateCandidate row set]) a w).1 = .ok u)
    (hw' : (perform env (.commit [.updateCandidate row set]) a w).2 = w')
    (hset : set.status = some status) (hrow : HasRow w t row) :
    ∃ r ∈ w'.db.candidates.rows, r.id = row ∧ r.status = status := by
  obtain ⟨db, hdb, hw⟩ := commit_ok hr
  rw [writeAll_one] at hdb
  obtain ⟨tab, htab, rfl⟩ := write_updateCandidate hdb
  obtain ⟨r₀, hr₀, hid, -⟩ := hrow
  obtain rfl : { w with db := { w.db with candidates := tab } } = w' :=
    hw.symm.trans hw'
  refine ⟨set.apply r₀, (Relational.Table.mem_update? htab).mpr
    ⟨r₀, hr₀, by rw [if_pos (by simp [hid])]⟩, hid, ?_⟩
  show set.status.getD r₀.status = status
  rw [hset]
  rfl

end ResumeScreening.Pipeline
