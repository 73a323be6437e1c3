/-
What a client was told stays true.

A row in an answer is one the request was shown by the database
(`answers_stored`), and rows stay: a job as it is, a candidate with its
identifier and its tenant. So a request that reads after an answer was
given finds every row the answer named, whichever request gave it and
whatever went on in between (`reads_see_answers`).
-/
import ResumeScreening.Reads.Snapshots
import ResumeScreening.Tenancy.Sound

namespace ResumeScreening.Reads

open Effect Tenancy

variable {env : Env} {s₀ s : Sys (service env)} {i : Nat} {op : Op}

-- ====================================================================== rows

inductive Row
  | candidate (c : Candidate)
  | job (j : Job)

/-- The rows an answer names. -/
def rowsOf : Resp → List Row
  | .candidate c => [.candidate c]
  | .candidates cs => cs.map .candidate
  | .job j => [.job j]
  | .jobs js => js.map .job
  | _ => []

/-- The rows a reply shows. -/
def shown : Event sig → List Row
  | ⟨.selectCandidate .., .ok (some row)⟩ => [.candidate row]
  | ⟨.refreshCandidate _, .ok row⟩ => [.candidate row]
  | ⟨.selectCandidates _, .ok rows⟩ => rows.map .candidate
  | ⟨.selectJob .., .ok (some row)⟩ => [.job row]
  | ⟨.refreshJob _, .ok row⟩ => [.job row]
  | ⟨.selectJobs _, .ok rows⟩ => rows.map .job
  | _ => []

/-- The row is there, but for what a candidate's UPDATEs set. -/
def Stored (db : Db) : Row → Prop
  | .candidate c =>
      ∃ r ∈ db.candidates.rows, r.id = c.id ∧ r.tenantId = c.tenantId
  | .job j => j ∈ db.jobs.rows

theorem Stored.grow {db db' : Db} {x : Row} (h : Stored db x)
    (hg : RowsGrow db db') : Stored db' x := by
  cases x with
  | candidate c =>
      obtain ⟨r, hr, hid, ht⟩ := h
      obtain ⟨r', hr', hid', ht'⟩ := hg.candidates r hr
      exact ⟨r', hr', hid'.trans hid, ht'.trans ht⟩
  | job j => exact hg.jobs j h

/-- What a reply shows is there. -/
theorem stored_of_shown {w : World} {e : Act} {a : e.Ans} :
    ∀ x ∈ shown ⟨e, (perform env e a w).1⟩, Stored w.db x := by
  intro x hx
  generalize hr : (perform env e a w).1 = r at hx
  unfold shown at hx
  split at hx
  next heq =>
    cases heq
    have hrow := (Pipeline.read_ok (α := Option Candidate) hr).symm
    rw [List.mem_singleton.mp hx]
    exact ⟨_, (Relational.Table.find?_mem hrow).1, rfl, rfl⟩
  next heq =>
    cases heq
    have hrow := (Pipeline.readOr_ok (α := Candidate) hr)
    rw [List.mem_singleton.mp hx]
    exact ⟨_, (Relational.Table.find?_mem hrow).1, rfl, rfl⟩
  next t _ heq =>
    cases heq
    have hrows : _ = candidatesOf w.db t :=
      Pipeline.read_ok (α := List Candidate) hr
    obtain ⟨c, hc, rfl⟩ := List.mem_map.mp hx
    rw [hrows, (listing_candidates _ _).exactly] at hc
    exact ⟨c, hc.1, rfl, rfl⟩
  next heq =>
    cases heq
    have hrow := (Pipeline.read_ok (α := Option Job) hr).symm
    rw [List.mem_singleton.mp hx]
    exact (Relational.Table.find?_mem hrow).1
  next heq =>
    cases heq
    have hrow := (Pipeline.readOr_ok (α := Job) hr)
    rw [List.mem_singleton.mp hx]
    exact (Relational.Table.find?_mem hrow).1
  next t _ heq =>
    cases heq
    have hrows : _ = jobsOf w.db t := Pipeline.read_ok (α := List Job) hr
    obtain ⟨j, hj, rfl⟩ := List.mem_map.mp hx
    rw [hrows, (listing_jobs _ _).exactly] at hj
    exact hj.1
  next => cases hx

-- ==================================================================== answers

/-- Facts are the rows a program was shown; none is needed to act. -/
def showing : Discipline sig Row where
  learned := shown
  allows _ _ := True

/-- What an answer names, the program was shown. -/
def Told (resp : Resp) (K : List Row) : Prop := ∀ x ∈ rowsOf resp, x ∈ K

section

variable {K : List Row}

/-- A program whose answer names no row. -/
theorem obeys_rowless {α : Type} {p : Py α} {f : α → Resp}
    (hf : ∀ a, rowsOf (f a) = []) :
    showing.Obeys (machine env) K (p.bind fun a => .ret (f a)) Told := by
  refine Discipline.obeys_bind (Discipline.obeys_of_uses
    (Prog.uses_any p) fun _ _ _ => trivial) fun a K' _ _ => ?_
  refine Discipline.obeys_ret fun x hx => ?_
  rw [hf a] at hx
  cases hx

/-- A program that ends in a candidate it was shown, and answers with it. -/
theorem obeys_candidate {p : Py Candidate}
    (h : showing.Obeys (machine env) K p fun c K' => .candidate c ∈ K') :
    showing.Obeys (machine env) K
      (p.bind fun c => .ret (.candidate c)) Told := by
  refine Discipline.obeys_bind h fun c K' _ hc => ?_
  refine Discipline.obeys_ret fun x hx => ?_
  rw [List.mem_singleton.mp hx]
  exact hc

theorem obeys_job {p : Py Job}
    (h : showing.Obeys (machine env) K p fun j K' => .job j ∈ K') :
    showing.Obeys (machine env) K (p.bind fun j => .ret (.job j)) Told := by
  refine Discipline.obeys_bind h fun j K' _ hj => ?_
  refine Discipline.obeys_ret fun x hx => ?_
  rw [List.mem_singleton.mp hx]
  exact hj

/-- An action whose reply does not matter, in front of the rest. -/
theorem obeys_silent {β : Type} {e : Act} {f : e.Ret → Py β}
    {T : β → List Row → Prop}
    (h : ∀ v K', K ⊆ K' → showing.Obeys (machine env) K' (f v) T) :
    showing.Obeys (machine env) K ((call e).bind f) T :=
  Discipline.obeys_call trivial fun v _ =>
    h v _ (List.subset_append_right _ _)

theorem obeys_indexCandidate {t : UUID} {candidate : Candidate}
    {pending : Candidate → List Write} :
    showing.Obeys (machine env) K (indexCandidate t candidate pending)
      fun c K' => .candidate c ∈ K' := by
  refine Discipline.obeys_handle ?_ fun x K' _ => Discipline.obeys_raise
  simp only [Prog.bind_eq, upsertCandidate, Prog.bind_assoc]
  refine obeys_silent fun v K₁ _ => obeys_silent fun _ K₂ _ => ?_
  refine obeys_silent fun _ K₃ _ => ?_
  exact Discipline.obeys_perform trivial fun row _ => List.mem_cons_self ..

theorem obeys_createCandidateRoute (t : UUID) (payload : CandidateCreate) :
    showing.Obeys (machine env) K (createCandidateRoute t payload)
      fun c K' => .candidate c ∈ K' := by
  refine Discipline.obeys_handle ?_ fun x K' _ => by
    cases x <;> exact Discipline.obeys_raise
  unfold createCandidate CandidateRepository.add
  simp only [Prog.bind_eq, Prog.bind_assoc, Prog.pure_eq, Prog.ret_bind]
  refine obeys_silent fun id K₁ _ => obeys_silent fun now K₂ _ => ?_
  exact obeys_silent fun _ K₃ _ => obeys_indexCandidate

theorem obeys_getCandidateRoute (t c : UUID) :
    showing.Obeys (machine env) K (getCandidateRoute t c)
      fun c K' => .candidate c ∈ K' := by
  refine Discipline.obeys_handle ?_ fun x K' _ => by
    cases x <;> exact Discipline.obeys_raise
  refine Discipline.obeys_call trivial fun found _ => ?_
  cases found with
  | none => exact Discipline.obeys_raise
  | some row => exact Discipline.obeys_ret (List.mem_cons_self ..)

theorem obeys_uploadResume (t : UUID) (file : UploadFile) :
    showing.Obeys (machine env) K (uploadResume env t file)
      fun c K' => .candidate c ∈ K' := by
  have hgate : showing.Obeys (machine env) K (enforceQuota env t) :=
    Discipline.obeys_of_uses (Prog.uses_any _) fun _ _ _ => trivial
  refine Discipline.obeys_bind hgate fun t' K₁ _ _ => ?_
  show showing.Obeys _ _ (if file.contentType ≠ "application/pdf" then _ else _)
    _
  split
  · exact Discipline.obeys_raise
  · unfold enqueueResumeUpload CandidateRepository.add uploadResumeAndEnqueue
    simp only [Prog.bind_eq, Prog.bind_assoc, Prog.pure_eq, Prog.ret_bind]
    refine obeys_silent fun id K₂ _ => obeys_silent fun now K₃ _ => ?_
    refine obeys_silent fun _ K₄ _ => obeys_silent fun _ K₅ _ => ?_
    refine Discipline.obeys_call trivial fun row _ => ?_
    -- what the refresh showed is still known after the upload
    refine obeys_silent fun _ K₆ hK₆ => obeys_silent fun _ K₇ hK₇ => ?_
    exact Discipline.obeys_ret (hK₇ (hK₆ (List.mem_cons_self ..)))

theorem obeys_createJobRoute (t : UUID) (payload : JobCreate) :
    showing.Obeys (machine env) K (createJobRoute t payload)
      fun j K' => .job j ∈ K' := by
  refine Discipline.obeys_handle (Discipline.obeys_handle ?_ fun x K' _ =>
    Discipline.obeys_raise) fun x K' _ => by
      cases x <;> exact Discipline.obeys_raise
  unfold JobRepository.add upsertJob
  simp only [Prog.bind_eq, Prog.bind_assoc, Prog.pure_eq, Prog.ret_bind]
  refine obeys_silent fun id K₁ _ => obeys_silent fun now K₂ _ => ?_
  refine obeys_silent fun _ K₃ _ => obeys_silent fun v K₄ _ => ?_
  refine obeys_silent fun _ K₅ _ => obeys_silent fun _ K₆ _ => ?_
  exact Discipline.obeys_perform trivial fun row _ => List.mem_cons_self ..

theorem obeys_getJobRoute (t j : UUID) :
    showing.Obeys (machine env) K (getJobRoute t j)
      fun j K' => .job j ∈ K' := by
  refine Discipline.obeys_handle ?_ fun x K' _ => by
    cases x <;> exact Discipline.obeys_raise
  refine Discipline.obeys_call trivial fun found _ => ?_
  cases found with
  | none => exact Discipline.obeys_raise
  | some row => exact Discipline.obeys_ret (List.mem_cons_self ..)

/-- Every operation answers with rows it was shown. -/
theorem obeys_serve (op : Op) :
    showing.Obeys (machine env) K (serve env op) Told := by
  cases op with
  | createCandidate t payload =>
      exact obeys_candidate (obeys_createCandidateRoute t payload)
  | listCandidates t =>
      refine Discipline.obeys_call trivial fun rows _ => ?_
      exact Discipline.obeys_ret fun x hx => List.mem_append_left _ hx
  | getCandidate t c => exact obeys_candidate (obeys_getCandidateRoute t c)
  | uploadResume t file => exact obeys_candidate (obeys_uploadResume t file)
  | createJob t payload => exact obeys_job (obeys_createJobRoute t payload)
  | listJobs t =>
      refine Discipline.obeys_call trivial fun rows _ => ?_
      exact Discipline.obeys_ret fun x hx => List.mem_append_left _ hx
  | getJob t j => exact obeys_job (obeys_getJobRoute t j)
  | rankCandidates t j topK topN => exact obeys_rowless fun _ => rfl
  | createPlan payload => exact obeys_rowless fun _ => rfl
  | subscribe t p => exact obeys_rowless fun _ => rfl
  | webhook eventType payload => exact obeys_rowless fun _ => rfl
  | worker => exact obeys_rowless fun _ => rfl

end

-- ====================================================================== runs

/-- What each thread has been shown. -/
def telling (env : Env) : Protocol (service env) (List Row) where
  start _ := []
  next _ := showing.Next
  final _ K r := ∀ resp, r = .ok resp → Told resp K

theorem telling_conforms (env : Env) : (telling env).Conforms :=
  fun op => Prog.Follows.mono (obeys_serve op) fun _ _ hq => hq.2

/-- What every live thread was shown is stored. -/
def AllStored (w : World) (ros : Roster (service env) (List Row)) : Prop :=
  Slots (fun _ K => ∀ x ∈ K, Stored w.db x) ros

/-- Slots are emptied, or start with nothing shown. -/
theorem AllStored.renew {w : World} {ros ros' : Roster (service env) (List Row)}
    (h : AllStored w ros) (hr : Renews [] ros ros') : AllStored w ros' :=
  Slots.renew h hr fun _ x hx => by cases hx

theorem telling_keeps (env : Env) (ok : Guard (service env)) :
    (telling env).Keeps ok fun w _ ros => AllStored w ros where
  spawn _ h := h.renew renews_append
  act {s ros i op K e k K'} ans _ h hi _ hadm _ hm := by
    obtain ⟨-, rfl⟩ := hm
    have hgrow := (touched env hadm).grows.rows
    refine h.advance (fun _ _ hold x hx => (hold x hx).grow hgrow) ?_
    rintro K' ⟨⟩ x hx
    rcases List.mem_append.mp hx with hx | hx
    · exact (stored_of_shown x hx).grow hgrow
    · exact (h.get hi x hx).grow hgrow
  crash _ h _ _ _ := h.renew (renews_set (.inl rfl))
  restart h _ _ _ := h.renew (renews_set (.inr rfl))
  env k h hk := by
    refine h.mono fun _ K hK x hx => (hK x hx).grow ?_
    exact (surroundings_same hk).grows.rows

/-- Every row an answer names is stored. -/
theorem answers_stored (hs : Reachable env s) {resp : Resp}
    (hend : s.Ended i op (.ok resp)) : ∀ x ∈ rowsOf resp, Stored s.world.db x := by
  obtain ⟨ros, htr, hall⟩ := Run.invariant (telling_keeps env _)
    (telling_conforms env) Slots.nil hs
  obtain ⟨K, hslot, hfinal⟩ := htr.phase hend
  exact fun x hx => hall.get hslot x (hfinal resp rfl x hx)

/-- Rows stay. -/
theorem run_grows {ok : Guard (service env)} (h : Run ok s₀ s) :
    RowsGrow s₀.world.db s.world.db := by
  induction h with
  | refl => exact .refl _
  | step l _ _ hstep ih =>
      refine ih.trans ?_
      cases Sys.stepped hstep with
      | act ht hadm => exact (touched env hadm).grows.rows
      | env hw => exact (surroundings_same hw).grows.rows
      | _ => exact .refl _

/-- A tenant has one row of an identifier at most. -/
theorem candidate_key (c t : UUID) :
    candidateSchema.Key fun r => r.id == c && r.tenantId == t := by
  intro a b ha hb
  simp only [Bool.and_eq_true, beq_iff_eq] at ha hb
  simp [candidateSchema, ha.1, hb.1]

theorem job_key (j t : UUID) :
    jobSchema.Key fun r => r.id == j && r.tenantId == t := by
  intro a b ha hb
  simp only [Bool.and_eq_true, beq_iff_eq] at ha hb
  simp [jobSchema, ha.1, hb.1]

/-- Whatever answer a request was given, the requests that arrive after it
find what it named: a candidate is in its tenant's listings and is found
under its identifier, a job as it was; only the database can fail them. -/
theorem reads_see_answers (h₀ : Reachable env s₀) {i₀ : Nat} {op₀ : Op}
    {resp : Resp} (hend₀ : s₀.Ended i₀ op₀ (.ok resp))
    {ok : Guard (service env)} (h : Run ok s₀ s) (hi : s₀.threads.length ≤ i) :
    (∀ c, .candidate c ∈ rowsOf resp →
      (∀ rows, s.Ended i (.listCandidates c.tenantId) (.ok (.candidates rows)) →
        ∃ r ∈ rows, r.id = c.id ∧ r.tenantId = c.tenantId)
      ∧ ∀ x, s.Ended i (.getCandidate c.tenantId c.id) x →
        (∃ r, x = .ok (.candidate r) ∧ r.id = c.id ∧ r.tenantId = c.tenantId)
          ∨ ∃ msg, x = .error (.external msg))
    ∧ ∀ j, .job j ∈ rowsOf resp →
      (∀ rows, s.Ended i (.listJobs j.tenantId) (.ok (.jobs rows)) → j ∈ rows)
      ∧ ∀ x, s.Ended i (.getJob j.tenantId j.id) x →
        x = .ok (.job j) ∨ ∃ msg, x = .error (.external msg) := by
  have hstored := answers_stored h₀ hend₀
  refine ⟨fun c hc => ⟨fun rows hend => ?_, fun x hend => ?_⟩,
    fun j hj => ⟨fun rows hend => ?_, fun x hend => ?_⟩⟩
  · obtain ⟨u, hu, -, htold | ⟨msg, hmsg⟩⟩ := answered_of_ended h rfl hi hend
    · cases htold
      obtain ⟨r, hr, hid, ht⟩ := (hstored _ hc).grow (run_grows hu)
      exact ⟨r, ((listing_candidates _ _).exactly r).mpr ⟨hr, ht⟩, hid, ht⟩
    · cases hmsg
  · obtain ⟨u, hu, -, htold | hmsg⟩ := answered_of_ended h rfl hi hend
    · cases htold
      refine .inl ?_
      obtain ⟨r, hr, hid, ht⟩ := (hstored _ hc).grow (run_grows hu)
      have hfind : u.world.db.candidates.find?
          (fun r => r.id == c.id && r.tenantId == c.tenantId) = some r :=
        (u.world.db.candidates.find?_key (candidate_key _ _)).mpr
          ⟨hr, by simp [hid, ht]⟩
      rw [hfind]
      exact ⟨r, rfl, hid, ht⟩
    · exact .inr hmsg
  · obtain ⟨u, hu, -, htold | ⟨msg, hmsg⟩⟩ := answered_of_ended h rfl hi hend
    · cases htold
      have hmem : j ∈ u.world.db.jobs.rows :=
        (hstored _ hj).grow (run_grows hu)
      exact ((listing_jobs _ _).exactly j).mpr ⟨hmem, rfl⟩
    · cases hmsg
  · obtain ⟨u, hu, -, htold | hmsg⟩ := answered_of_ended h rfl hi hend
    · cases htold
      refine .inl ?_
      have hmem : j ∈ u.world.db.jobs.rows :=
        (hstored _ hj).grow (run_grows hu)
      have hfind : u.world.db.jobs.find?
          (fun r => r.id == j.id && r.tenantId == j.tenantId) = some j :=
        (u.world.db.jobs.find?_key (job_key _ _)).mpr ⟨hmem, by simp⟩
      rw [hfind]
      rfl
    · exact .inr hmsg

/-- The tenant lists its candidates. -/
def sampleListing : List (Label (service sampleEnv)) :=
  .spawn (.listCandidates sampleTenant) :: steps 1 1

/-- The upload is answered in the first state, and the listing after it in
the second. -/
def uploadedThenListed (s₀ s : Sys (service sampleEnv)) : Bool :=
  decide (s₀.threads.length = 1
    ∧ s₀.op? 0 = some (.uploadResume sampleTenant samplePdf)
    ∧ s₀.result? 0 = some (.ok (.candidate sampleRow))
    ∧ s.op? 1 = some (.listCandidates sampleTenant)
    ∧ s.result? 1 = some (.ok (.candidates [sampleRow])))

/-- An upload is seen by the listing after it. -/
theorem reads_see_answers_sample : ∃ (s : Sys (service sampleEnv))
    (rows : List Candidate),
    s.Ended 1 (.listCandidates sampleTenant) (.ok (.candidates rows))
      ∧ ∃ r ∈ rows, r.id = sampleRow.id ∧ r.tenantId = sampleTenant := by
  have hrun : ((Sys.start (service sampleEnv) World.empty).exec
      (fun _ _ => True) sampleUpload).bind (fun t => (t.exec
        (fun _ _ => True) sampleListing).map (uploadedThenListed t))
      = some true := by
    decide +kernel
  obtain ⟨s₀, s, h₀, h, htest⟩ := Run.exists_later_of_exec hrun
  obtain ⟨hlen, hop₀, hres₀, hop, hres⟩ := of_decide_eq_true htest
  have hend₀ := Sys.ended_iff.mpr ⟨hop₀, hres₀⟩
  have hend := Sys.ended_iff.mpr ⟨hop, hres⟩
  have hsees := (reads_see_answers h₀ hend₀ h (Nat.le_of_eq hlen)).1
    sampleRow (List.mem_singleton.mpr rfl)
  exact ⟨s, _, hend, hsees.1 _ hend⟩

end ResumeScreening.Reads
