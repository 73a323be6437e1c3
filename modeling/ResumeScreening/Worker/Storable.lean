/-
What the columns take of what the schemas let through.

The claim is that whatever validates can be stored. The pydantic schemas
put no bound on a text, the columns do: `String(255)`, `String(50)`, and no
NUL character anywhere. `candidateFits` and `jobFits` name what the columns
take, and `storable_iff` says that with every service healthy that is
exactly what is stored, by each of the three operations.

The constraints that compare rows do not come into it: identifiers are
fresh, and a vector's id is its row's (`OwnIds`).
-/
import ResumeScreening.Failures.Creates
import ResumeScreening.Worker.Handling

namespace ResumeScreening.Worker

open Effect Prog Pipeline Failures
open Py (DateTime)

variable {env : Env} {w w' : World} {r : Candidate} {bytes : List UInt8}
  {m : Message} {llm : Except LibraryError ParsedResume} {id : UUID}
  {now : DateTime} {t : UUID}

-- =========================================================== what columns take

/-- The columns of a candidate take these values. -/
def candidateFits (payload : CandidateCreate) : Bool :=
  fits 255 payload.fullName && payload.email.all (fits 255)
    && payload.phone.all (fits 50) && payload.summary.all storable
    && payload.skills.all storable
    && payload.experience.all (fun e => storableDict e.modelDump)
    && payload.education.all (fun d => storableDict d.modelDump)
    && payload.rawText.all storable

/-- The columns of a job take these values. -/
def jobFits (payload : JobCreate) : Bool :=
  fits 255 payload.title && payload.company.all (fits 255)
    && storable payload.description && payload.requiredSkills.all storable
    && payload.preferredSkills.all storable

/-- A parsed resume and its text, as the values to store. -/
def asPayload (p : ParsedResume) (text : String) : CandidateCreate where
  fullName := p.fullName
  email := p.email
  phone := p.phone
  summary := p.summary
  skills := p.skills
  experience := p.experience
  education := p.education
  rawText := some text

/-- An identifier behind a short tag fits its column. -/
theorem fits_tagged {tag : String} (hlen : tag.length ≤ 219)
    (hnul : storable tag = true) (u : UUID) : fits 255 (tag ++ u.str) = true := by
  unfold fits storable at *
  simp only [Bool.not_eq_true', List.contains_eq_mem, decide_eq_false_iff_not]
    at hnul
  simp only [Bool.and_eq_true, decide_eq_true_eq, Bool.not_eq_true',
    List.contains_eq_mem, decide_eq_false_iff_not, String.toList_append,
    List.mem_append, not_or, String.length_append, UUID.str_length]
  exact ⟨by omega, hnul, UUID.nul_not_mem u⟩

theorem fits_candidateVectorId (u : UUID) :
    fits 255 (candidateVectorId u.str) = true :=
  fits_tagged (by decide) (by decide) u

theorem fits_jobVectorId (u : UUID) : fits 255 (jobVectorId u.str) = true :=
  fits_tagged (by decide) (by decide) u

/-- An empty email is stored as none, and would fit. -/
theorem optTruthy_all (o : Option String) :
    (Py.optTruthy o).all (fits 255) = o.all (fits 255) := by
  cases o with
  | none => rfl
  | some s =>
      show Option.all _ (if s = "" then none else some s) = _
      split
      next hs =>
        rw [hs]
        rfl
      next => rfl

theorem valid_storedRow (r : Candidate) (p : ParsedResume) (text : String) :
    candidateSchema.valid (storedRow r p text)
      = candidateFits (asPayload p text) := by
  simp only [candidateSchema, storedRow, filled, candidateFits, asPayload,
    Option.all_some, optTruthy_all, fits_candidateVectorId, Bool.and_true,
    List.all_map, Function.comp_def]

/-- With the id of its vector or without it. -/
theorem valid_created (t : UUID) (payload : CandidateCreate) (id : UUID)
    (now : DateTime) {vid : Option String}
    (hvid : vid = none ∨ vid = some (candidateVectorId id.str)) :
    candidateSchema.valid
      { createdCandidate t payload id now with pineconeId := vid }
      = candidateFits payload := by
  have hall : vid.all (fits 255) = true := by
    rcases hvid with rfl | rfl
    · rfl
    · exact fits_candidateVectorId id
  simp only [candidateSchema, createdCandidate, candidateFits,
    Option.all_some, hall, Bool.and_true, List.all_map, Function.comp_def]

theorem valid_job (t : UUID) (payload : JobCreate) (id : UUID)
    (now : DateTime) {vid : Option String}
    (hvid : vid = none ∨ vid = some (jobVectorId id.str)) :
    jobSchema.valid { createdJob t payload id now with pineconeId := vid }
      = jobFits payload := by
  have hall : vid.all (fits 255) = true := by
    rcases hvid with rfl | rfl
    · rfl
    · exact fits_jobVectorId id
  simp only [jobSchema, createdJob, jobFits, hall, Bool.and_true]

-- ============================================================= no two rows clash

/-- Rows have drawn identifiers, and vector ids of their own. -/
structure OwnIds (w : World) : Prop where
  candidates : ∀ c ∈ w.db.candidates.rows, c.id ∈ w.usedIds
    ∧ (c.pineconeId = none ∨ c.pineconeId = some (candidateVectorId c.id.str))
  jobs : ∀ j ∈ w.db.jobs.rows, j.id ∈ w.usedIds
    ∧ j.pineconeId = some (jobVectorId j.id.str)

theorem reachable_ownIds {s : Sys (service env)} (h : Reachable env s) :
    OwnIds s.world := by
  obtain ⟨ros, -, hc⟩ := reachable_core h
  exact ⟨fun c hc' => ⟨(hc.stores.rows c hc').drawn, (hc.stores.rows c hc').vector⟩,
    hc.stores.jobs⟩

/-- Vector ids of different candidates are not the same. -/
theorem not_sameUnique {x : Candidate} {id : UUID} {vid : Option String}
    (hx : x.pineconeId = none
      ∨ x.pineconeId = some (candidateVectorId x.id.str))
    (hvid : vid = none ∨ vid = some (candidateVectorId id.str))
    (hne : x.id ≠ id) : sameUnique x.pineconeId vid = false := by
  rcases hx with hx | hx
  · rw [hx]
    rfl
  · rw [hx]
    rcases hvid with rfl | rfl
    · rfl
    · unfold sameUnique
      rw [beq_false_of_ne, Bool.and_false]
      exact fun heq => hne (candidateVectorId_injective (Option.some.inj heq))

/-- There is room for a row that fits. -/
theorem room_iff (hw : OwnIds w) (p : ParsedResume) (text : String) :
    Room w (storedRow r p text) ↔ candidateFits (asPayload p text) = true := by
  unfold Room
  rw [valid_storedRow]
  refine and_iff_left fun x hx hne => ?_
  exact not_sameUnique (hw.candidates x hx).2 (.inr rfl) hne

/-- A fresh row clashes with none. -/
theorem fresh_candidate (hw : OwnIds w) {c : Candidate} (hid : c.id ∉ w.usedIds)
    (hvid : c.pineconeId = none
      ∨ c.pineconeId = some (candidateVectorId c.id.str)) :
    ∀ x ∈ w.db.candidates.rows, candidateSchema.clash x c = false := by
  intro x hx
  obtain ⟨hdrawn, hown⟩ := hw.candidates x hx
  have hne : x.id ≠ c.id := fun heq => hid (heq ▸ hdrawn)
  show ((x.id == c.id) || sameUnique x.pineconeId c.pineconeId) = false
  rw [beq_false_of_ne hne, not_sameUnique hown hvid hne]
  rfl

theorem fresh_job (hw : OwnIds w) {j : Job} (hid : j.id ∉ w.usedIds)
    (hvid : j.pineconeId = none ∨ j.pineconeId = some (jobVectorId j.id.str)) :
    ∀ x ∈ w.db.jobs.rows, jobSchema.clash x j = false := by
  intro x hx
  obtain ⟨hdrawn, hown⟩ := hw.jobs x hx
  have hne : x.id ≠ j.id := fun heq => hid (heq ▸ hdrawn)
  show ((x.id == j.id) || sameUnique x.pineconeId j.pineconeId) = false
  rw [beq_false_of_ne hne, hown]
  rcases hvid with hvid | hvid
  · rw [hvid]
    rfl
  · rw [hvid]
    unfold sameUnique
    rw [beq_false_of_ne, Bool.and_false, Bool.or_false]
    exact fun heq => hne (jobVectorId_injective (Option.some.inj heq))

-- ==================================================================== inserting

/-- A stored job is read back. -/
theorem job_back (env : Env) (llm : Except LibraryError ParsedResume)
    (id : UUID) (now : DateTime) {j : Job} (hj : j ∈ w.db.jobs.rows) :
    perform env (.refreshJob j.id) (well llm id now (.refreshJob j.id)) w
      = (.ok j, w) := by
  have hkey : jobSchema.Key fun x => x.id == j.id := by
    intro a b ha hb
    simp only [beq_iff_eq] at ha hb
    simp [jobSchema, ha, hb]
  show w.readOr (.ok ()) (w.db.jobs.find? fun x => x.id == j.id) = _
  rw [(w.db.jobs.find?_key hkey).mpr ⟨hj, by simp⟩]
  rfl

theorem insert_candidate {c : Candidate} (hv : candidateSchema.valid c = true)
    (hc : ∀ x ∈ w.db.candidates.rows, candidateSchema.clash x c = false) :
    ∃ w', w.commit [.insertCandidate c] .ok = (.ok (), w')
      ∧ c ∈ w'.db.candidates.rows := by
  obtain ⟨rows, hrows⟩ := w.db.candidates.insert?_isSome hv hc
  have hwrite : w.db.write (.insertCandidate c)
      = some { w.db with candidates := rows } := by
    show (w.db.candidates.insert? c).map _ = _
    rw [hrows]
    rfl
  exact ⟨_, commit_written hwrite,
    (Relational.Table.mem_insert? hrows).mpr (.inr rfl)⟩

theorem insert_candidate_invalid {c : Candidate}
    (hv : ¬ candidateSchema.valid c = true) :
    ∃ x, w.commit [.insertCandidate c] .ok = (.error x, w) := by
  refine commit_refused ?_
  show (w.db.candidates.insert? c).map _ = _
  rw [w.db.candidates.insert?_invalid hv]
  rfl

theorem insert_job {j : Job} (hv : jobSchema.valid j = true)
    (hc : ∀ x ∈ w.db.jobs.rows, jobSchema.clash x j = false) :
    ∃ w', w.commit [.insertJob j] .ok = (.ok (), w') ∧ j ∈ w'.db.jobs.rows := by
  obtain ⟨rows, hrows⟩ := w.db.jobs.insert?_isSome hv hc
  have hwrite : w.db.write (.insertJob j) = some { w.db with jobs := rows } := by
    show (w.db.jobs.insert? j).map _ = _
    rw [hrows]
    rfl
  exact ⟨_, commit_written hwrite,
    (Relational.Table.mem_insert? hrows).mpr (.inr rfl)⟩

theorem insert_job_invalid {j : Job} (hv : ¬ jobSchema.valid j = true) :
    ∃ x, w.commit [.insertJob j] .ok = (.error x, w) := by
  refine commit_refused ?_
  show (w.db.jobs.insert? j).map _ = _
  rw [w.db.jobs.insert?_invalid hv]
  rfl

-- ==================================================================== the creates

section Create

variable {α : Type} (row : UUID → DateTime → α) (insert : α → Write)

/-- The world once the identifier is drawn. -/
def drawn (id : UUID) (w : World) : World :=
  { w with usedIds := id :: w.usedIds }

/-- A row whose INSERT would be refused is not even drafted. -/
theorem draft_refused {x : Exn}
    (hflush : (drawn id w).commit [insert (row id now)] .ok
      = (.error x, drawn id w)) :
    evalWell env llm id now (draft row insert) w = (.error x, drawn id w) := by
  refine (eval_call (v := id) rfl).trans ((eval_call (v := now) rfl).trans ?_)
  refine eval_call_error ?_
  show (((drawn id w).commit _ .ok).1, drawn id w) = _
  rw [hflush]

theorem draft_accepted
    (hflush : ((drawn id w).commit [insert (row id now)] .ok).1 = .ok ()) :
    evalWell env llm id now (draft row insert) w
      = (.ok (row id now), drawn id w) := by
  refine (eval_call (v := id) rfl).trans ((eval_call (v := now) rfl).trans ?_)
  refine eval_call (v := ()) ?_
  show (((drawn id w).commit _ .ok).1, drawn id w) = _
  rw [hflush]

/-- The world with a vector in the index. -/
def withVector (ns : String) (v : VectorRecord) (w : World) : World :=
  { w with pinecone := setAt w.pinecone ns v.id v }

/-- Indexing goes as its commit does, and then the row is read back. -/
theorem indexed_and_read {text ns : String} {vector : List Rat → VectorRecord}
    {pending : List Write} {e : Act} {v : e.Ret}
    (hcommit : (withVector ns (vector (env.embed text)) w).commit pending .ok
      = (.ok (), w'))
    (hread : perform env e (well llm id now e) w' = (.ok v, w')) :
    evalWell env llm id now ((indexAndCommit text ns vector pending).bind
      fun _ => call e) w = (.ok v, w') := by
  have hindex : evalWell env llm id now
      (indexAndCommit text ns vector pending) w = (.ok (), w') :=
    (eval_call (v := env.embed text) rfl).trans
      ((eval_call (v := ()) rfl).trans ((eval_perform _ _).trans hcommit))
  exact (eval_bind_ok hindex).trans ((eval_perform _ _).trans hread)

end Create

/-- A call from start to end. -/
def called {α : Type} (env : Env) (llm : Except LibraryError ParsedResume)
    (id : UUID) (now : DateTime) (p : Py α) (w : World) :
    Option (Except Exn α) × World :=
  p.run (M := machine env) (fun _ e => some (well llm id now e)) 0 w

theorem called_eq {α : Type} {p : Py α} : called env llm id now p w
    = (some (evalWell env llm id now p w).1, (evalWell env llm id now p w).2) :=
  run_steady (M := machine env) (A := well llm id now) p 0 w

/-- `create_candidate` returns a row that is stored. -/
def ReturnsCandidate (env : Env) (llm : Except LibraryError ParsedResume)
    (id : UUID) (now : DateTime) (t : UUID) (payload : CandidateCreate)
    (w : World) : Prop :=
  ∃ c, (called env llm id now (createCandidate t payload) w).1 = some (.ok c)
    ∧ c ∈ (called env llm id now (createCandidate t payload) w
      ).2.db.candidates.rows

/-- `create_job` returns a row that is stored. -/
def ReturnsJob (env : Env) (llm : Except LibraryError ParsedResume)
    (id : UUID) (now : DateTime) (t : UUID) (payload : JobCreate)
    (w : World) : Prop :=
  ∃ j, (called env llm id now (createJob t payload) w).1 = some (.ok j)
    ∧ j ∈ (called env llm id now (createJob t payload) w).2.db.jobs.rows

section

variable (env llm now t)

theorem create_stored (hw : OwnIds w) (hid : id ∉ w.usedIds)
    {payload : CandidateCreate} (hfits : candidateFits payload = true) :
    ∃ c w', evalWell env llm id now (createCandidate t payload) w = (.ok c, w')
      ∧ c ∈ w'.db.candidates.rows := by
  let row := createdCandidate t payload id now
  let stored : Candidate :=
    { row with pineconeId := some (candidateVectorId id.str) }
  obtain ⟨w₁, hflush, -⟩ := insert_candidate (w := drawn id w) (c := row)
    ((valid_created t payload id now (.inl rfl)).trans hfits)
    (fresh_candidate hw hid (.inl rfl))
  have hdraft : evalWell env llm id now
      (draft (createdCandidate t payload) .insertCandidate) w
      = (.ok row, drawn id w) :=
    draft_accepted _ _ (congrArg Prod.fst hflush)
  -- behind the vector, the row with its id
  obtain ⟨w₂, hcommit, hmem⟩ := insert_candidate (c := stored)
    (w := withVector t.str (candidateVector id.str
      (env.embed (buildCandidateEmbedText row))
      [("full_name", Py.optOr row.fullName "")]) (drawn id w))
    ((valid_created t payload id now (.inr rfl)).trans hfits)
    (fresh_candidate hw hid (.inr rfl))
  refine ⟨stored, w₂, ?_, hmem⟩
  rw [createCandidate_eq]
  exact (eval_bind_ok hdraft).trans (eval_handle_ok
    (indexed_and_read hcommit (candidate_back env llm id now hmem)))

variable (id w) in
theorem create_refused {payload : CandidateCreate}
    (hfits : ¬ candidateFits payload = true) :
    ∃ x w', evalWell env llm id now (createCandidate t payload) w
      = (.error x, w') := by
  obtain ⟨x, hflush⟩ := insert_candidate_invalid (w := drawn id w)
    (c := createdCandidate t payload id now) fun hv =>
      hfits ((valid_created t payload id now (.inl rfl)).symm.trans hv)
  have hdraft : evalWell env llm id now
      (draft (createdCandidate t payload) .insertCandidate) w
      = (.error x, drawn id w) :=
    draft_refused _ _ hflush
  rw [createCandidate_eq]
  exact ⟨x, _, eval_bind_error hdraft⟩

theorem createJob_stored (hw : OwnIds w) (hid : id ∉ w.usedIds)
    {payload : JobCreate} (hfits : jobFits payload = true) :
    ∃ j w', evalWell env llm id now (createJob t payload) w = (.ok j, w')
      ∧ j ∈ w'.db.jobs.rows := by
  let row := createdJob t payload id now
  let stored : Job := { row with pineconeId := some (jobVectorId id.str) }
  obtain ⟨w₁, hflush, -⟩ := insert_job (w := drawn id w) (j := row)
    ((valid_job t payload id now (.inl rfl)).trans hfits)
    (fresh_job hw hid (.inl rfl))
  have hdraft : evalWell env llm id now
      (draft (createdJob t payload) .insertJob) w = (.ok row, drawn id w) :=
    draft_accepted _ _ (congrArg Prod.fst hflush)
  obtain ⟨w₂, hcommit, hmem⟩ := insert_job (j := stored)
    (w := withVector t.str (jobVector id.str (env.embed (buildJobEmbedText row))
      [("title", row.title), ("company", Py.optOr row.company "")])
      (drawn id w))
    ((valid_job t payload id now (.inr rfl)).trans hfits)
    (fresh_job hw hid (.inr rfl))
  refine ⟨stored, w₂, ?_, hmem⟩
  rw [createJob_eq]
  exact eval_handle_ok ((eval_bind_ok hdraft).trans
    (indexed_and_read hcommit (job_back env llm id now hmem)))

variable (id w) in
theorem createJob_refused {payload : JobCreate}
    (hfits : ¬ jobFits payload = true) :
    ∃ x w', evalWell env llm id now (createJob t payload) w
      = (.error x, w') := by
  obtain ⟨x, hflush⟩ := insert_job_invalid (w := drawn id w)
    (j := createdJob t payload id now) fun hv =>
      hfits ((valid_job t payload id now (.inl rfl)).symm.trans hv)
  have hdraft : evalWell env llm id now
      (draft (createdJob t payload) .insertJob) w = (.error x, drawn id w) :=
    draft_refused _ _ hflush
  rw [createJob_eq]
  exact ⟨jobIndexError, _, eval_handle_error (eval_bind_error hdraft)⟩

end

theorem returnsCandidate_iff (hw : OwnIds w) (hid : id ∉ w.usedIds)
    (payload : CandidateCreate) :
    ReturnsCandidate env llm id now t payload w
      ↔ candidateFits payload = true := by
  unfold ReturnsCandidate
  rw [called_eq]
  constructor
  · rintro ⟨c, hc, -⟩
    by_contra hfits
    obtain ⟨x, w', heval⟩ := create_refused env w llm id now t hfits
    rw [heval] at hc
    cases hc
  · intro hfits
    obtain ⟨c, w', heval, hmem⟩ := create_stored env llm now t hw hid hfits
    rw [heval]
    exact ⟨c, rfl, hmem⟩

theorem returnsJob_iff (hw : OwnIds w) (hid : id ∉ w.usedIds)
    (payload : JobCreate) :
    ReturnsJob env llm id now t payload w ↔ jobFits payload = true := by
  unfold ReturnsJob
  rw [called_eq]
  constructor
  · rintro ⟨j, hj, -⟩
    by_contra hfits
    obtain ⟨x, w', heval⟩ := createJob_refused env w llm id now t hfits
    rw [heval] at hj
    cases hj
  · intro hfits
    obtain ⟨j, w', heval, hmem⟩ := createJob_stored env llm now t hw hid hfits
    rw [heval]
    exact ⟨j, rfl, hmem⟩

-- ================================================================= the message

/-- The upload's row ends processed, and its message is deleted. -/
def Processed (r : Candidate) (m : Message) (w' : World) : Prop :=
  StatusIs r.id .processed w' ∧ ¬ Waiting m.receiptHandle w'

theorem processed_iff (hw : OwnIds w) (h : Uploaded env r bytes m w)
    {p : ParsedResume} {text : String} (hreads : Reads env bytes text) :
    Processed r m (handled env (.ok p) id now m w)
      ↔ candidateFits (asPayload p text) = true := by
  unfold Processed
  rw [← room_iff (r := r) hw]
  rcases handled_whole id now h (parsedFrom_ok hreads p) with ⟨hroom, hend⟩ | ⟨hroom, hend⟩
  · exact iff_of_true ⟨(hend.status _).mpr rfl, hend.message.mpr rfl⟩ hroom
  · exact iff_of_false (fun hp => nomatch (hend.status _).mp hp.1) hroom

/-- With every service healthy, in every reachable state: an upload's
message ends processed, and a create returns what it stored, exactly where
the columns take the values. -/
theorem storable_iff {s : Sys (service env)} (hs : Reachable env s)
    (llm : Except LibraryError ParsedResume) (id : UUID) (now : DateTime)
    (hid : id ∉ s.world.usedIds) :
    (∀ r bytes m p text, Uploaded env r bytes m s.world →
        Reads env bytes text →
        (Processed r m (handled env (.ok p) id now m s.world)
          ↔ candidateFits (asPayload p text) = true))
      ∧ (∀ t payload, ReturnsCandidate env llm id now t payload s.world
          ↔ candidateFits payload = true)
      ∧ ∀ t payload, ReturnsJob env llm id now t payload s.world
          ↔ jobFits payload = true := by
  have hw := reachable_ownIds hs
  exact ⟨fun r bytes m p text h hreads => processed_iff hw h hreads,
    fun t payload => returnsCandidate_iff hw hid payload,
    fun t payload => returnsJob_iff hw hid payload⟩

-- ================================================================== samples

/-- A resume of which the model reads the name. -/
def named : ParsedResume := { fullName := "Ada" }

/-- An identifier the sample upload did not draw. -/
def freshId : UUID := UUID.ofNat 7

theorem freshId_fresh : freshId ∉ uploaded.world.usedIds := by decide +kernel

theorem sample_ownIds : OwnIds uploaded.world :=
  reachable_ownIds (reachable_reached _)

theorem sample_reads : Reads sampleEnv samplePdf.bytes "resume" :=
  ⟨by decide, by decide⟩

/-- The named resume is processed, and a candidate and a job with short
texts are created. -/
theorem storable_sample :
    Processed sampleRow uploadedMessage (handled sampleEnv (.ok named) freshId
        DateTime.epoch uploadedMessage uploaded.world)
      ∧ ReturnsCandidate sampleEnv (.ok named) freshId DateTime.epoch
        sampleTenant { fullName := "Ada" } uploaded.world
      ∧ ReturnsJob sampleEnv (.ok named) freshId DateTime.epoch sampleTenant
        { title := "Engineer", description := "Builds" } uploaded.world := by
  obtain ⟨hmessage, hcandidate, hjob⟩ := storable_iff (reachable_reached _)
    (.ok named) freshId DateTime.epoch freshId_fresh
  exact ⟨(hmessage _ _ _ _ _ (sample_uploaded sampleEnv rfl)
      sample_reads).mpr (by decide),
    (hcandidate _ _).mpr (by decide), (hjob _ _).mpr (by decide)⟩

/-- The named resume with a phone number of 51 characters. -/
def overlong : ParsedResume :=
  { named with
    phone := some "+42000000000000000000000000000000000000000000000000" }

/-- The phone number is too long for its column, which leaves the resume
unprocessed, and a NUL in a name or a description fails a create. -/
theorem storable_refused :
    ¬ Processed sampleRow uploadedMessage (handled sampleEnv (.ok overlong)
        freshId DateTime.epoch uploadedMessage uploaded.world)
      ∧ ¬ ReturnsCandidate sampleEnv (.ok named) freshId DateTime.epoch
        sampleTenant { fullName := "A\x00da" } uploaded.world
      ∧ ¬ ReturnsJob sampleEnv (.ok named) freshId DateTime.epoch sampleTenant
        { title := "Engineer", description := "Builds\x00" }
        uploaded.world := by
  refine ⟨fun hp => ?_, fun hc => ?_, fun hj => ?_⟩
  · have hfits := (processed_iff sample_ownIds
      (sample_uploaded sampleEnv rfl) sample_reads).mp hp
    exact absurd hfits (by decide)
  · have hfits := (returnsCandidate_iff sample_ownIds freshId_fresh _).mp hc
    exact absurd hfits (by decide)
  · have hfits := (returnsJob_iff sample_ownIds freshId_fresh _).mp hj
    exact absurd hfits (by decide)

end ResumeScreening.Worker
