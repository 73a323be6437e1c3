/-
A create that fails.

`create_candidate` and `create_job` store a vector and then commit the
row: `indexAndCommit`, in front of a refresh, inside a handler that rolls
the session back. The rollback reaches Postgres alone, so what a failed
create leaves depends on one step: once the upsert has taken effect, only
the final refresh's answer ends the call with an entity, and any other
end leaves the vector (`failed_creates`).
-/
import ResumeScreening.Failures.Fresh
import ResumeScreening.Lib.Recorded

namespace ResumeScreening.Failures

open Effect Prog Pipeline

variable {env : Env} {w w' : World} {as : List (Given (machine env))}

-- ============================================================ the statement

/-- The committed rows and the vectors are the same. -/
def Unchanged (w w' : World) : Prop :=
  w'.db = w.db ∧ w'.pinecone = w.pinecone

/-- A vector upsert that took effect, whatever it replied. -/
def storesVector : Given (machine env) → Bool
  | ⟨.upsert _ _, (a : Fate)⟩ => a.applied
  | _ => false

/-- A refresh that was answered. -/
def refreshes : Given (machine env) → Bool
  | ⟨.refreshCandidate _, (a : Except String Unit)⟩ => a.isOk
  | ⟨.refreshJob _, (a : Except String Unit)⟩ => a.isOk
  | _ => false

/-- The vector was stored. -/
abbrev Stored (as : List (Given (machine env))) : Prop :=
  Saw storesVector as

/-- The entity was read back, the last step of a create. -/
abbrev ReadBack (as : List (Given (machine env))) : Prop :=
  Saw refreshes as

/-- A call that raises leaves both stores as they were. -/
def CleanFailure {α : Type} (w : World) (r : Except Exn α) (w' : World) :
    Prop :=
  (∃ x, r = .error x) → Unchanged w w'

/-- How a create ends: it raises before its vector is stored, it raises
with the vector stored, or it has read its entity back. -/
inductive Ends {α : Type} (w : World) (as : List (Given (machine env))) :
    Except Exn α → World → Prop
  | early {x w'} : ¬ Stored as → Unchanged w w' → Ends w as (.error x) w'
  | stranded {x w'} : Stored as → ¬ ReadBack as →
      w'.pinecone ≠ w.pinecone → Ends w as (.error x) w'
  | done {a w'} : ReadBack as → Ends w as (.ok a) w'

theorem Ends.clean_iff {α : Type} {r : Except Exn α} (h : Ends w as r w') :
    CleanFailure w r w' ↔ ¬ Stored as ∨ ReadBack as := by
  cases h with
  | early hno hsame => exact ⟨fun _ => .inl hno, fun _ _ => hsame⟩
  | stranded hst hno hdiff =>
      constructor
      · exact fun hclean => absurd (hclean ⟨_, rfl⟩).2 hdiff
      · rintro (hn | hr)
        · exact absurd hst hn
        · exact absurd hr hno
  | done hr => exact ⟨fun _ => .inr hr, fun _ ⟨x, hx⟩ => nomatch hx⟩

/-- Raising another exception instead ends the same way. -/
theorem Ends.error {α β : Type} {x y : Exn}
    (h : Ends (α := α) w as (.error x) w') :
    Ends (α := β) w as (.error y) w' := by
  cases h with
  | early hno hsame => exact .early hno hsame
  | stranded hst hno hdiff => exact .stranded hst hno hdiff

-- ================================================================ the program

/-- What both creates do between drafting the row and reading it back. -/
def indexAndCommit (text ns : String) (vector : List Rat → VectorRecord)
    (pending : List Write) : Py Unit := do
  let values ← call (.embedQuery text)
  call (.upsert ns (vector values))
  call (.commit pending)

theorem createCandidate_eq (t : UUID) (payload : CandidateCreate) :
    createCandidate t payload
      = (CandidateRepository.add (createdCandidate t payload)).bind fun c =>
        Prog.handle ((indexAndCommit (buildCandidateEmbedText c) t.str
          (fun values => candidateVector c.id.str values
            [("full_name", Py.optOr c.fullName "")])
          [.insertCandidate { c with
            pineconeId := some (candidateVectorId c.id.str) }]).bind
          fun _ => call (.refreshCandidate c.id))
        fun _ => raise candidateIndexError := by
  unfold createCandidate indexCandidate upsertCandidate indexAndCommit
  simp only [bind_eq, pure_eq, bind_assoc, ret_bind]

theorem createJob_eq (t : UUID) (payload : JobCreate) :
    createJob t payload
      = Prog.handle ((JobRepository.add (createdJob t payload)).bind fun job =>
        (indexAndCommit (buildJobEmbedText job) t.str
          (fun values => jobVector job.id.str values
            [("title", job.title), ("company", Py.optOr job.company "")])
          [.insertJob { job with
            pineconeId := some (jobVectorId job.id.str) }]).bind
          fun _ => call (.refreshJob job.id))
        fun _ => raise jobIndexError := by
  unfold createJob upsertJob indexAndCommit
  simp only [bind_eq, pure_eq, bind_assoc, ret_bind]

/-- A handler that raises leaves a run's end as it is. -/
theorem went_reraise {α : Type} {p : Py α} {y : Exn} {r : Except Exn α}
    (h : Went (machine env) (Prog.handle p fun _ => raise y) w as (some r) w') :
    Went (machine env) p w as (some r) w'
      ∨ ∃ x, Went (machine env) p w as (some (.error x)) w'
        ∧ r = .error y := by
  rcases h.handle with ⟨a, hr, hp⟩ | ⟨x, as₁, w₁, as₂, rfl, hp, hq⟩ | ⟨hr, -⟩
  · rw [hr]
    exact .inl hp
  · obtain ⟨rfl, hr, rfl⟩ := Went.raise_iff.mp hq
    rw [List.append_nil]
    exact .inr ⟨x, hp, Option.some.inj hr⟩
  · cases hr

-- ================================================================= its parts

theorem clock_same (a : Except String Py.DateTime) (w : World) :
    ((machine env).perform .transactionNow a w).2 = w := by
  cases a <;> rfl

/-- Drafting a row draws its id and changes nothing else. -/
def draft {α : Type} (row : UUID → Py.DateTime → α) (insert : α → Write) :
    Py α := do
  let id ← call .uuid4
  let createdAt ← call .transactionNow
  call (.flush [insert (row id createdAt)])
  return row id createdAt

theorem draft_went {α : Type} {row : UUID → Py.DateTime → α}
    {insert : α → Write} {r : Except Exn α}
    (h : Went (machine env) (draft row insert) w as (some r) w') :
    ¬ Stored as ∧ ¬ ReadBack as ∧ ∃ id, id ∉ w.usedIds
      ∧ w' = { w with usedIds := id :: w.usedIds }
      ∧ ((∃ x, r = .error x) ∨ ∃ now, r = .ok (row id now)) := by
  rcases h.call with ⟨hr, -⟩ | ⟨id, as₁, hadm, rfl, ⟨x, hx, -⟩ | ⟨v, hv, h⟩⟩
  · cases hr
  · cases hx
  cases hv
  have hfresh : (id : UUID) ∉ w.usedIds := by simpa [admits] using hadm
  rcases h.call with
    ⟨hr, -⟩ | ⟨a, as₂, -, rfl, ⟨x, -, hr, rfl, hw⟩ | ⟨now, hnow, h⟩⟩
  · cases hr
  · rw [clock_same] at hw
    refine ⟨by simp [storesVector], by simp [refreshes], id, hfresh, hw, ?_⟩
    exact .inl ⟨x, Option.some.inj hr⟩
  rw [clock_same] at h
  rcases h.call with ⟨hr, -⟩ | ⟨b, as₃, -, rfl, ⟨x, -, hr, rfl, hw⟩ | ⟨u, -, h⟩⟩
  · cases hr
  · refine ⟨by simp [storesVector], by simp [refreshes], id, hfresh, hw, ?_⟩
    exact .inl ⟨x, Option.some.inj hr⟩
  · obtain ⟨rfl, hr, hw⟩ := Went.ret_iff.mp h
    refine ⟨by simp [storesVector], by simp [refreshes], id, hfresh, hw, ?_⟩
    exact .inr ⟨now, Option.some.inj hr⟩

/-- From the embedding to the commit: the vector is not stored and nothing
has changed, or it is, and the statements have run if this returns. -/
theorem index_went {text ns : String} {vector : List Rat → VectorRecord}
    {pending : List Write} {r : Except Exn Unit}
    (h : Went (machine env) (indexAndCommit text ns vector pending) w as
      (some r) w') :
    ¬ ReadBack as
      ∧ ((¬ Stored as ∧ w' = w ∧ ∃ x, r = .error x)
        ∨ Stored as
          ∧ (∃ values, w'.pinecone
            = setAt w.pinecone ns (vector values).id (vector values))
          ∧ ∀ u, r = .ok u → w.db.writeAll pending = some w'.db) := by
  rcases h.call with
    ⟨hr, -⟩ | ⟨a, as₁, -, rfl, ⟨x, -, hr, rfl, hw⟩ | ⟨values, -, h⟩⟩
  · cases hr
  · refine ⟨by simp [refreshes], .inl ⟨by simp [storesVector], ?_, ?_⟩⟩
    · exact hw.trans (read_snd a _)
    · exact ⟨x, Option.some.inj hr⟩
  rw [show ((machine env).perform (.embedQuery text) a w).2 = w from
    read_snd a _] at h
  rcases h.call with
    ⟨hr, -⟩ | ⟨b, as₂, -, rfl, ⟨x, hx, hr, rfl, rfl⟩ | ⟨u, hu, h⟩⟩
  · cases hr
  · refine ⟨by simp [refreshes], ?_⟩
    cases (b : Fate) with
    | ok => cases hx
    | failed msg =>
        refine .inl ⟨?_, rfl, x, Option.some.inj hr⟩
        simp [storesVector, Fate.applied]
    | lostReply msg =>
        refine .inr ⟨?_, ⟨values, rfl⟩, fun u hu => ?_⟩
        · simp [storesVector, Fate.applied]
        · rw [hu] at hr
          cases hr
  · have hb : (b : Fate) = .ok := by
      cases (b : Fate) with
      | ok => rfl
      | failed msg => cases hu
      | lostReply msg => cases hu
    subst hb
    rcases h.perform with ⟨-, hr, -⟩ | ⟨c, -, rfl, hr, rfl⟩
    · cases hr
    · refine ⟨by simp [refreshes], .inr ⟨?_, ⟨values, ?_⟩, fun u' hu' => ?_⟩⟩
      · simp [storesVector, Fate.applied]
      · obtain ⟨db, hw⟩ := commit_rows _ pending c
        exact congrArg World.pinecone hw
      · rw [hu', Option.some.injEq] at hr
        obtain ⟨db, hdb, hw⟩ := commit_ok hr.symm
        rw [show ((machine env).perform (.commit pending) c _).2 = _ from hw]
        exact hdb

/-- An action that reads a row back, in a world that has it. -/
structure ReadsBack (env : Env) (w : World) (e : Act) : Prop where
  silent : ∀ a : e.Ans, storesVector (⟨e, a⟩ : Given (machine env)) = false
  same : ∀ a : e.Ans, ((machine env).perform e a w).2 = w
  answer : ∀ a : e.Ans,
    (refreshes (⟨e, a⟩ : Given (machine env)) = true
        ∧ ∃ v, ((machine env).perform e a w).1 = .ok v)
      ∨ refreshes (⟨e, a⟩ : Given (machine env)) = false
        ∧ ∃ x, ((machine env).perform e a w).1 = .error x

/-- A row that is there is read back exactly where the read is answered. -/
theorem readOr_answer {α : Type} {v : Option α} (hv : ∃ c, v = some c)
    (a : Except String Unit) :
    (a.isOk = true ∧ ∃ c, (w.readOr a v).1 = .ok c)
      ∨ a.isOk = false ∧ ∃ x, (w.readOr a v).1 = .error x := by
  obtain ⟨c, rfl⟩ := hv
  cases a with
  | ok u => exact .inl ⟨rfl, c, rfl⟩
  | error msg => exact .inr ⟨rfl, _, rfl⟩

theorem find?_isSome {ρ : Type} {σ : Relational.Schema ρ}
    {t : Relational.Table σ} {p : ρ → Bool} {r : ρ} (hr : r ∈ t.rows)
    (hp : p r = true) : ∃ c, t.find? p = some c := by
  cases hf : t.find? p with
  | none =>
      rw [Relational.Table.find?, List.find?_eq_none] at hf
      exact absurd hp (hf r hr)
  | some c => exact ⟨c, rfl⟩

theorem readsBack_candidate {id : UUID} {c : Candidate}
    (hc : c ∈ w.db.candidates.rows) (hid : c.id = id) :
    ReadsBack env w (.refreshCandidate id) where
  silent _ := rfl
  same a := readOr_snd a _
  answer a := readOr_answer (find?_isSome hc (by simp [hid])) a

theorem readsBack_job {id : UUID} {j : Job} (hj : j ∈ w.db.jobs.rows)
    (hid : j.id = id) : ReadsBack env w (.refreshJob id) where
  silent _ := rfl
  same a := readOr_snd a _
  answer a := readOr_answer (find?_isSome hj (by simp [hid])) a

/-- The row a create commits is there to be read back. -/
theorem committed_candidate {w₁ : World} {c : Candidate}
    (h : w.db.writeAll [.insertCandidate c] = some w₁.db) :
    ReadsBack env w₁ (.refreshCandidate c.id) := by
  rw [writeAll_one] at h
  obtain ⟨rows, hrows, hdb⟩ := write_insertCandidate h
  have hc : c ∈ w₁.db.candidates.rows := by
    rw [hdb]
    exact (Relational.Table.mem_insert? hrows).mpr (.inr rfl)
  exact readsBack_candidate hc rfl

theorem committed_job {w₁ : World} {j : Job}
    (h : w.db.writeAll [.insertJob j] = some w₁.db) :
    ReadsBack env w₁ (.refreshJob j.id) := by
  rw [writeAll_one] at h
  obtain ⟨rows, hrows, hdb⟩ := write_insertJob h
  have hj : j ∈ w₁.db.jobs.rows := by
    rw [hdb]
    exact (Relational.Table.mem_insert? hrows).mpr (.inr rfl)
  exact readsBack_job hj rfl

theorem setAt_ne {α : Type} {store : String → String → Option α}
    {a b : String} (v : α) (h : store a b = none) : setAt store a b v ≠ store := by
  intro hsame
  have hab : setAt store a b v a b = store a b := by rw [hsame]
  rw [h] at hab
  simp [setAt] at hab

/-- Index, commit and read back, under a vector id nothing is stored
under. -/
theorem indexing_ends {text ns : String} {vector : List Rat → VectorRecord}
    {pending : List Write} {e : Act} {r : Except Exn e.Ret}
    (hfresh : ∀ values, w.pinecone ns (vector values).id = none)
    (hread : ∀ w₁ : World, w.db.writeAll pending = some w₁.db →
      ReadsBack env w₁ e)
    (h : Went (machine env) ((indexAndCommit text ns vector pending).bind
      fun _ => call e) w as (some r) w') : Ends w as r w' := by
  have hdiff : ∀ {w₁ : World}, (∃ values, w₁.pinecone
      = setAt w.pinecone ns (vector values).id (vector values)) →
      w₁.pinecone ≠ w.pinecone := by
    rintro w₁ ⟨values, hset⟩
    rw [hset]
    exact setAt_ne _ (hfresh values)
  rcases h.bind with
    ⟨u, as₁, w₁, as₂, rfl, hindex, hcall⟩ | ⟨x, hr, hindex⟩ | ⟨hr, -⟩
  · obtain ⟨hno, ⟨-, -, x, hx⟩ | ⟨hst, hset, hrun⟩⟩ := index_went hindex
    · cases hx
    have hback := hread w₁ (hrun u rfl)
    rcases hcall.perform with ⟨-, hr, -⟩ | ⟨a, -, rfl, hr, rfl⟩
    · cases hr
    rcases hback.answer a with ⟨hyes, v, hv⟩ | ⟨hnot, x, hx⟩
    · rw [hv, Option.some.injEq] at hr
      subst hr
      exact .done (by simp [hyes])
    · rw [hx, Option.some.injEq] at hr
      subst hr
      refine .stranded ?_ ?_ ?_
      · simp [hst]
      · simp [hno, hnot]
      · rw [hback.same a]
        exact hdiff hset
  · obtain rfl := Option.some.inj hr
    obtain ⟨hno, ⟨hst, hw, -⟩ | ⟨hst, hset, -⟩⟩ := index_went hindex
    · exact .early hst (by rw [hw]; exact ⟨rfl, rfl⟩)
    · exact .stranded hst hno (hdiff hset)
  · cases hr

-- ================================================================ the creates

/-- A run that drafts first. -/
theorem Ends.after {α : Type} {as₀ : List (Given (machine env))}
    {w₁ : World} {r : Except Exn α} (h : Ends w₁ as r w')
    (hno : ¬ Stored as₀) (hno' : ¬ ReadBack as₀) (hsame : Unchanged w w₁) :
    Ends w (as₀ ++ as) r w' := by
  cases h with
  | early hst hu =>
      exact .early (by simp [hno, hst]) ⟨hu.1.trans hsame.1, hu.2.trans hsame.2⟩
  | stranded hst hrb hdiff =>
      refine .stranded (by simp [hst]) (by simp [hno', hrb]) ?_
      rw [← hsame.2]
      exact hdiff
  | done hrb => exact .done (by simp [hrb])

/-- What runs behind a draft decides how the two end together. -/
theorem drafted_ends {α β : Type} {row : UUID → Py.DateTime → α}
    {insert : α → Write} {rest : α → Py β} {r : Except Exn β}
    (hrest : ∀ id now w₁ as, id ∉ w.usedIds → w₁.pinecone = w.pinecone →
      Went (machine env) (rest (row id now)) w₁ as (some r) w' →
      Ends w₁ as r w')
    (h : Went (machine env) ((draft row insert).bind rest) w as (some r) w') :
    Ends w as r w' := by
  rcases h.bind with
    ⟨c, as₁, w₁, as₂, rfl, hdraft, hran⟩ | ⟨x, hr, hdraft⟩ | ⟨hr, -⟩
  · obtain ⟨hst, hrb, id, hfresh, hw, ⟨x, hx⟩ | ⟨now, hc⟩⟩ := draft_went hdraft
    · cases hx
    cases hc
    have hsame : Unchanged w w₁ := by
      rw [hw]
      exact ⟨rfl, rfl⟩
    exact (hrest id now w₁ as₂ hfresh hsame.2 hran).after hst hrb hsame
  · obtain rfl := Option.some.inj hr
    obtain ⟨hst, -, id, -, hw, -⟩ := draft_went hdraft
    rw [hw]
    exact .early hst ⟨rfl, rfl⟩
  · cases hr

theorem createCandidate_ends {t : UUID} {payload : CandidateCreate}
    {r : Except Exn Candidate} (hn : Named w)
    (h : Went (machine env) (createCandidate t payload) w as (some r) w') :
    Ends w as r w' := by
  rw [createCandidate_eq] at h
  refine drafted_ends ?_ h
  intro id now w₁ as hfresh hsame hran
  have hfree : w₁.pinecone t.str (candidateVectorId id.str) = none := by
    rw [hsame]
    exact hn.candidate hfresh t.str
  rcases went_reraise hran with hin | ⟨x, hin, rfl⟩
  · exact indexing_ends (fun _ => hfree) (fun _ => committed_candidate) hin
  · exact (indexing_ends (fun _ => hfree)
      (fun _ => committed_candidate) hin).error

theorem createJob_ends {t : UUID} {payload : JobCreate} {r : Except Exn Job}
    (hn : Named w)
    (h : Went (machine env) (createJob t payload) w as (some r) w') :
    Ends w as r w' := by
  rw [createJob_eq] at h
  have hends : ∀ {r : Except Exn Job}, Went (machine env) (Prog.bind
      (draft (createdJob t payload) .insertJob) fun job =>
        (indexAndCommit (buildJobEmbedText job) t.str
          (fun values => jobVector job.id.str values
            [("title", job.title), ("company", Py.optOr job.company "")])
          [.insertJob { job with
            pineconeId := some (jobVectorId job.id.str) }]).bind
          fun _ => call (.refreshJob job.id)) w as (some r) w' →
      Ends w as r w' := by
    intro r h
    refine drafted_ends ?_ h
    intro id now w₁ as hfresh hsame hran
    have hfree : w₁.pinecone t.str (jobVectorId id.str) = none := by
      rw [hsame]
      exact hn.job hfresh t.str
    exact indexing_ends (fun _ => hfree) (fun _ => committed_job) hran
  rcases went_reraise h with hin | ⟨x, hin, rfl⟩
  · exact hends hin
  · exact (hends hin).error

/-- A create that raises leaves both stores as they were, unless its
vector's upsert took effect and its refresh was not answered. -/
theorem failed_creates {s : Sys (service env)} (hs : Reachable env s)
    (t : UUID) :
    (∀ payload as r w',
      Went (machine env) (createCandidate t payload) s.world as (some r) w' →
      (CleanFailure s.world r w' ↔ ¬ Stored as ∨ ReadBack as))
    ∧ ∀ payload as r w',
      Went (machine env) (createJob t payload) s.world as (some r) w' →
      (CleanFailure s.world r w' ↔ ¬ Stored as ∨ ReadBack as) := by
  have hn : Named s.world := reachable_named hs
  constructor
  · intro payload as r w' h
    exact (createCandidate_ends hn h).clean_iff
  · intro payload as r w' h
    exact (createJob_ends hn h).clean_iff

-- ================================================================== samples

/-- An outside where the embedding fails. -/
def noEmbedding : Oracle (machine sampleEnv)
  | _, .embedQuery _ => some (.error "connection refused")
  | n, e => sampleOracle n e

/-- Choices where every commit is rejected. -/
def rejected : Choices where
  commit := .failed "connection lost"

/-- An outside where every commit is rejected. -/
def noCommit : Oracle (machine sampleEnv) := fun _ e =>
  some (rejected.answer e)

def samplePayload : CandidateCreate where
  fullName := "Ada"

/-- The embedding of a candidate fails: both stores are as they were. -/
theorem failed_creates_sample : ∃ as x w',
    Went (machine sampleEnv) (createCandidate sampleTenant samplePayload)
      World.empty as (some (.error x)) w'
    ∧ Unchanged World.empty w' := by
  have hwent := Went.of_run (M := machine sampleEnv) (O := noEmbedding) (n := 0)
    (p := createCandidate sampleTenant samplePayload)
    (w := World.empty) (r := some (.error candidateIndexError))
    (by decide +kernel) (by decide +kernel)
  have hst : ¬ Stored ((createCandidate sampleTenant samplePayload).run
      (M := (machine sampleEnv).recorded) noEmbedding 0 (World.empty, [])).2.2 := by
    unfold Stored Saw
    decide +kernel
  have hclean := ((failed_creates .refl sampleTenant).1 _ _ _ _ hwent).mpr
    (.inl hst)
  exact ⟨_, _, _, hwent, hclean ⟨_, rfl⟩⟩

/-- The commit of a candidate is rejected: its vector stays. -/
theorem failed_create_keeps_vector : ∃ as x w',
    Went (machine sampleEnv) (createCandidate sampleTenant samplePayload)
      World.empty as (some (.error x)) w'
    ∧ ¬ Unchanged World.empty w' := by
  have hwent := Went.of_run (M := machine sampleEnv) (O := noCommit) (n := 0)
    (p := createCandidate sampleTenant samplePayload)
    (w := World.empty) (r := some (.error candidateIndexError))
    (by decide +kernel) (by decide +kernel)
  refine ⟨_, _, _, hwent, fun hsame => ?_⟩
  have hv := congrFun (congrFun hsame.2 sampleTenant.str)
    (candidateVectorId (UUID.ofNat 0).str)
  exact absurd hv (by decide +kernel)

end ResumeScreening.Failures
