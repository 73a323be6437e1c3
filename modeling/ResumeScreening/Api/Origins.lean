/-
Where the rows of the deployment come from.

Each operation commits statements of its own kind: a create inserts its
tenant's row, a ranking its matches, a webhook and a subscription set a
billing row, the worker sets a candidate's. `Commits` lists them, and
every program commits nothing else (`serve_permitted`). So every row is
one some operation of the run inserted, for the tenant the operation is
for (`reachable_origins`).
-/
import ResumeScreening.Lib.Permits
import ResumeScreening.Pipeline.Conform
import ResumeScreening.Pipeline.Effects
import ResumeScreening.Screening.Resolve
import ResumeScreening.Tenancy.Sound

namespace ResumeScreening.Origins

open Effect Pipeline
open Relational (Table)

variable {env : Env} {op : Op} {w w' : World} {log : Log sig} {ops : List Op}
  {db db' : Db}

-- ============================================================== statements

/-- The statements an operation may commit. -/
inductive Commits : Op → Write → Prop
  | candidate {t payload id now pineconeId} :
      Commits (.createCandidate t payload) (.insertCandidate
        { createdCandidate t payload id now with pineconeId := pineconeId })
  | upload {t file id now} : Commits (.uploadResume t file)
      (.insertCandidate (placeholder t id now))
  | job {t payload id now pineconeId} : Commits (.createJob t payload)
      (.insertJob { createdJob t payload id now with pineconeId := pineconeId })
  | match {t j topK topN m} :
      Commits (.rankCandidates t j topK topN) (.insertMatchResult m)
  | plan {payload id} :
      Commits (.createPlan payload) (.insertPlan (createdPlan payload id))
  | subscribe {t p plan response id} : Commits (.subscribe t p)
      (.insertSubscription (createdSubscription t plan response id))
  | resubscribe {t p id set} :
      Commits (.subscribe t p) (.updateSubscription id set)
  | event {eventType payload id set} :
      Commits (.webhook eventType payload) (.updateSubscription id set)
  | process {id set} : Commits .worker (.updateCandidate id set)

/-- The actions an operation may perform. -/
def May (op : Op) : Act → Prop
  | .commit pending => ∀ x ∈ pending, Commits op x
  | _ => True

-- ================================================================ programs

section

variable {β : Type} {t : UUID}

/-- An action, in front of the rest. -/
theorem uses_call {e : Act} {f : e.Ret → Py β} (he : May op e)
    (hf : ∀ v, (f v).Uses (May op)) : ((call e).bind f).Uses (May op) :=
  Prog.uses_bind ((Prog.uses_perform (May op) (S := sig) e).mpr he) hf

theorem uses_last {e : Act} (he : May op e) : (call e).Uses (May op) :=
  (Prog.uses_perform (May op) (S := sig) e).mpr he

theorem may_commit {x : Write} (h : Commits op x) : May op (.commit [x]) := by
  intro y hy
  rw [List.mem_singleton.mp hy]
  exact h

theorem uses_add {row : UUID → Py.DateTime → Candidate} {f : Candidate → Py β}
    (hf : ∀ id now, (f (row id now)).Uses (May op)) :
    ((CandidateRepository.add row).bind f).Uses (May op) := by
  unfold CandidateRepository.add
  simp only [Prog.bind_eq, Prog.bind_assoc]
  exact uses_call trivial fun id => uses_call trivial fun now =>
    uses_call trivial fun _ => hf id now

theorem uses_indexCandidate {candidate : Candidate}
    {pending : Candidate → List Write}
    (h : ∀ pineconeId, May op
      (.commit (pending { candidate with pineconeId := pineconeId }))) :
    (indexCandidate t candidate pending).Uses (May op) := by
  refine Prog.uses_handle ?_ fun x => trivial
  refine Prog.uses_bind (uses_call trivial fun v =>
    uses_call trivial fun _ => trivial) fun pineconeId => ?_
  exact uses_call (h _) fun _ => uses_last trivial

theorem uses_createCandidateRoute (payload : CandidateCreate) :
    (createCandidateRoute t payload).Uses
      (May (.createCandidate t payload)) := by
  refine Prog.uses_handle ?_ fun x => by cases x <;> trivial
  refine uses_add fun id now => uses_indexCandidate fun pineconeId => ?_
  exact may_commit .candidate

theorem uses_getCandidateRoute (c : UUID) :
    (getCandidateRoute t c).Uses (May op) := by
  refine Prog.uses_handle (uses_call trivial fun found => ?_) fun x => ?_
  · cases found <;> trivial
  · cases x <;> trivial

theorem uses_uploadResume (file : UploadFile) :
    (uploadResume env t file).Uses (May (.uploadResume t file)) := by
  have hgate : (enforceQuota env t).Uses (May (.uploadResume t file)) :=
    uses_enforceQuota trivial (fun _ => trivial) trivial fun _ => trivial
  refine Prog.uses_bind_returns hgate (returns_enforceQuota t) ?_
  intro t' ht
  subst ht
  show (if file.contentType ≠ "application/pdf" then _ else _ :
    Py Candidate).Uses _
  split
  · trivial
  · refine uses_add fun id now => uses_call (may_commit .upload) fun _ => ?_
    refine uses_call trivial fun row => Prog.uses_bind ?_ fun _ => trivial
    exact uses_call trivial fun _ => uses_last trivial

theorem uses_createJobRoute (payload : JobCreate) :
    (createJobRoute t payload).Uses (May (.createJob t payload)) := by
  refine Prog.uses_handle (Prog.uses_handle ?_ fun x => trivial)
    fun x => by cases x <;> trivial
  unfold JobRepository.add upsertJob
  simp only [Prog.bind_eq, Prog.bind_assoc]
  refine uses_call trivial fun id => uses_call trivial fun now => ?_
  refine uses_call trivial fun _ => uses_call trivial fun v => ?_
  refine uses_call trivial fun _ => uses_call (may_commit .job) fun _ => ?_
  exact uses_last trivial

theorem uses_getJobRoute (j : UUID) : (getJobRoute t j).Uses (May op) := by
  refine Prog.uses_handle (uses_call trivial fun found => ?_) fun x => ?_
  · cases found <;> trivial
  · cases x <;> trivial

theorem uses_rankCandidatesRoute (j : UUID) (topK topN : Option Int) :
    (rankCandidatesRoute env t j topK topN).Uses
      (May (.rankCandidates t j topK topN)) := by
  refine Prog.uses_bind (uses_getJobRoute j) fun job => ?_
  refine Prog.uses_bind (uses_call trivial fun v =>
    uses_call trivial fun _ => trivial) fun ms => ?_
  have hresolve : (resolve t ms).Uses (May (.rankCandidates t j topK topN)) := by
    refine (Screening.uses_resolve ms).imp fun e he => ?_
    cases e with
    | selectCandidate t' c => trivial
    | _ => cases he
  have hevaluate : ∀ r,
      (evaluate job r).Uses (May (.rankCandidates t j topK topN)) :=
    fun r => uses_call trivial fun _ => trivial
  refine Prog.uses_bind hresolve fun rs => ?_
  refine Prog.uses_bind (Prog.uses_mapEach hevaluate rs) fun es => ?_
  refine Prog.uses_bind (Prog.uses_ofExcept _ _) fun ranked => ?_
  refine uses_call (fun x hx => ?_) fun _ => trivial
  obtain ⟨y, -, rfl⟩ := List.mem_map.mp hx
  exact .match

theorem uses_subscribeRoute (p : UUID) :
    (subscribeRoute t p).Uses (May (.subscribe t p)) := by
  refine Prog.uses_bind (Prog.uses_handle ?_ fun x => by
    cases x <;> trivial) fun _ => trivial
  refine uses_call trivial fun found => ?_
  cases found with
  | none => trivial
  | some plan =>
      refine uses_call trivial fun response => uses_call trivial fun row => ?_
      cases row with
      | none =>
          exact uses_call trivial fun id => uses_call (may_commit .subscribe)
            fun _ => uses_call trivial fun _ => trivial
      | some loaded =>
          exact uses_call (may_commit .resubscribe) fun _ =>
            uses_call trivial fun _ => trivial

theorem uses_handleWebhookEvent (eventType : String) (payload : WebhookPayload) :
    (handleWebhookEvent eventType payload).Uses
      (May (.webhook eventType payload)) := by
  unfold handleWebhookEvent
  cases statusEvent eventType with
  | none => trivial
  | some newStatus =>
      refine Prog.uses_bind (Prog.uses_ofExcept _ _) fun read => ?_
      refine uses_call trivial fun found => ?_
      cases found with
      | none => trivial
      | some loaded =>
          refine Prog.uses_bind (Prog.uses_ofExcept _ _) fun newEnd => ?_
          exact uses_last (may_commit .event)

theorem uses_uuid (text : String) : (uuid text).Uses (May op) := by
  unfold uuid
  cases UUID.parse text <;> trivial

theorem uses_processPendingCandidate (c : UUID) (bytes : List UInt8) :
    (processPendingCandidate env t c bytes).Uses (May .worker) := by
  refine uses_call trivial fun found => ?_
  cases found with
  | none => trivial
  | some row =>
      refine uses_call (fun x hx => ?_) fun _ => ?_
      · unfold setStatus at hx
        split at hx
        · cases hx
        · rw [List.mem_singleton.mp hx]
          exact .process
      refine Prog.uses_bind (Prog.uses_handle ?_ fun x => ?_) fun parsed => ?_
      · refine Prog.uses_bind (Prog.uses_ofExcept _ _) fun text => ?_
        show (if text = "" then _ else _ : Py _).Uses _
        split
        · trivial
        · exact uses_call trivial fun _ => trivial
      · cases x with
        | valueError msg =>
            exact uses_call (may_commit .process) fun _ => trivial
        | _ => trivial
      · exact Prog.uses_bind (uses_indexCandidate fun _ =>
          may_commit .process) fun _ => trivial

theorem uses_handleMessage (m : Message) :
    (handleMessage env m).Uses (May .worker) := by
  refine Prog.uses_handle ?_ fun x => ?_
  · refine Prog.uses_bind (Prog.uses_ofExcept _ _) fun body => ?_
    refine Prog.uses_bind ?_ fun _ =>
      uses_call trivial fun _ => uses_last trivial
    refine Prog.uses_bind (Prog.uses_ofExcept _ _) fun candidateId => ?_
    refine Prog.uses_bind (Prog.uses_ofExcept _ _) fun tenantId => ?_
    refine Prog.uses_bind (Prog.uses_ofExcept _ _) fun bucket => ?_
    refine Prog.uses_bind (Prog.uses_ofExcept _ _) fun key => ?_
    refine Prog.uses_bind (Prog.uses_ofExcept _ _) fun bucketName => ?_
    refine Prog.uses_bind (Prog.uses_ofExcept _ _) fun keyName => ?_
    refine uses_call trivial fun bytes => ?_
    have hjson : ∀ v, (jsonUuid v).Uses (May .worker) := fun v =>
      Prog.uses_bind (Prog.uses_ofExcept _ _) fun text => uses_uuid text
    refine Prog.uses_bind (hjson _) fun tenant => ?_
    refine Prog.uses_bind (hjson _) fun candidate => ?_
    refine Prog.uses_bind (uses_processPendingCandidate _ _) fun _ => ?_
    exact Prog.uses_bind (Prog.uses_ofExcept _ _) fun text => uses_last trivial
  · cases x with
    | resumeContent msg =>
        exact uses_call trivial fun _ => uses_last trivial
    | _ => exact uses_last trivial

end

/-- Every operation commits statements of its own kind only. -/
theorem serve_permitted : Permitted (service env) May := by
  intro op
  cases op with
  | createCandidate t payload =>
      exact Prog.uses_bind (uses_createCandidateRoute payload) fun _ => trivial
  | listCandidates t => exact uses_call trivial fun _ => trivial
  | getCandidate t c =>
      exact Prog.uses_bind (uses_getCandidateRoute c) fun _ => trivial
  | uploadResume t file =>
      exact Prog.uses_bind (uses_uploadResume file) fun _ => trivial
  | createJob t payload =>
      exact Prog.uses_bind (uses_createJobRoute payload) fun _ => trivial
  | listJobs t => exact uses_call trivial fun _ => trivial
  | getJob t j =>
      exact Prog.uses_bind (uses_getJobRoute j) fun _ => trivial
  | rankCandidates t j topK topN =>
      exact Prog.uses_bind (uses_rankCandidatesRoute j topK topN)
        fun _ => trivial
  | createPlan payload =>
      exact Prog.uses_bind (uses_call trivial fun id =>
        uses_call (may_commit .plan) fun _ => trivial) fun _ => trivial
  | subscribe t p =>
      exact Prog.uses_bind (uses_subscribeRoute p) fun _ => trivial
  | webhook eventType payload =>
      exact Prog.uses_bind (uses_handleWebhookEvent eventType payload)
        fun _ => trivial
  | worker =>
      exact Prog.uses_bind (uses_call trivial fun ms =>
        Prog.uses_forEach uses_handleMessage ms) fun _ => trivial

-- ==================================================================== rows

/-- Every row is one an operation of the run has inserted; what it was
updated since keeps its identifier and its tenant. -/
structure FromOps (db : Db) (ops : List Op) : Prop where
  candidates : ∀ r ∈ db.candidates.rows, ∃ op ∈ ops, ∃ r₀,
    Commits op (.insertCandidate r₀) ∧ r₀.id = r.id
      ∧ r₀.tenantId = r.tenantId ∧ r₀.createdAt = r.createdAt
  jobs : ∀ j ∈ db.jobs.rows, ∃ op ∈ ops, Commits op (.insertJob j)
  plans : ∀ p ∈ db.plans.rows, ∃ op ∈ ops, Commits op (.insertPlan p)
  subscriptions : ∀ s ∈ db.subscriptions.rows, ∃ op ∈ ops, ∃ s₀,
    Commits op (.insertSubscription s₀) ∧ s₀.id = s.id
      ∧ s₀.tenantId = s.tenantId
  matchResults : ∀ m ∈ db.matchResults, ∃ op ∈ ops,
    Commits op (.insertMatchResult m)

theorem fromOps_empty : FromOps Db.empty [] where
  candidates r hr := by cases hr
  jobs j hj := by cases hj
  plans p hp := by cases hp
  subscriptions s hs := by cases hs
  matchResults m hm := by cases hm

theorem FromOps.append (h : FromOps db ops) (op : Op) :
    FromOps db (ops ++ [op]) where
  candidates r hr := by
    obtain ⟨op', hop, hrest⟩ := h.candidates r hr
    exact ⟨op', List.mem_append_left _ hop, hrest⟩
  jobs j hj := by
    obtain ⟨op', hop, hrest⟩ := h.jobs j hj
    exact ⟨op', List.mem_append_left _ hop, hrest⟩
  plans p hp := by
    obtain ⟨op', hop, hrest⟩ := h.plans p hp
    exact ⟨op', List.mem_append_left _ hop, hrest⟩
  subscriptions s hs := by
    obtain ⟨op', hop, hrest⟩ := h.subscriptions s hs
    exact ⟨op', List.mem_append_left _ hop, hrest⟩
  matchResults m hm := by
    obtain ⟨op', hop, hrest⟩ := h.matchResults m hm
    exact ⟨op', List.mem_append_left _ hop, hrest⟩

theorem FromOps.write {x : Write} (h : FromOps db ops) (hop : op ∈ ops)
    (hx : Commits op x) (hw : db.write x = some db') : FromOps db' ops := by
  cases x with
  | insertCandidate row =>
      obtain ⟨tab, htab, rfl⟩ := write_insertCandidate hw
      refine { h with candidates := fun r hr => ?_ }
      rcases (Table.mem_insert? htab).mp hr with hold | rfl
      · exact h.candidates r hold
      · exact ⟨op, hop, r, hx, rfl, rfl, rfl⟩
  | updateCandidate id set =>
      obtain ⟨tab, htab, rfl⟩ := write_updateCandidate hw
      refine { h with candidates := fun r hr => ?_ }
      obtain ⟨r', hr', rfl⟩ := (Table.mem_update? htab).mp hr
      obtain ⟨op', hop', r₀, hins, hid, ht, hat⟩ := h.candidates r' hr'
      refine ⟨op', hop', r₀, hins, ?_⟩
      -- no UPDATE sets the columns that identify a row
      split <;> exact ⟨hid, ht, hat⟩
  | insertJob row =>
      obtain ⟨tab, htab, rfl⟩ := write_insertJob hw
      refine { h with jobs := fun j hj => ?_ }
      rcases (Table.mem_insert? htab).mp hj with hold | rfl
      · exact h.jobs j hold
      · exact ⟨op, hop, hx⟩
  | insertPlan row =>
      obtain ⟨tab, htab, rfl⟩ := Option.map_eq_some_iff.mp hw
      refine { h with plans := fun p hp => ?_ }
      rcases (Table.mem_insert? htab).mp hp with hold | rfl
      · exact h.plans p hold
      · exact ⟨op, hop, hx⟩
  | insertSubscription row =>
      obtain ⟨tab, htab, rfl⟩ := Option.map_eq_some_iff.mp hw
      refine { h with subscriptions := fun s hs => ?_ }
      rcases (Table.mem_insert? htab).mp hs with hold | rfl
      · exact h.subscriptions s hold
      · exact ⟨op, hop, s, hx, rfl, rfl⟩
  | updateSubscription id set =>
      obtain ⟨tab, htab, rfl⟩ := Option.map_eq_some_iff.mp hw
      refine { h with subscriptions := fun s hs => ?_ }
      obtain ⟨s', hs', rfl⟩ := (Table.mem_update? htab).mp hs
      obtain ⟨op', hop', s₀, hins, hid, ht⟩ := h.subscriptions s' hs'
      refine ⟨op', hop', s₀, hins, ?_⟩
      split <;> exact ⟨hid, ht⟩
  | insertMatchResult m =>
      simp only [Db.write] at hw
      split at hw
      · cases hw
        refine { h with matchResults := fun m' hm => ?_ }
        rcases List.mem_append.mp hm with hold | hnew
        · exact h.matchResults m' hold
        · rw [List.mem_singleton.mp hnew]
          exact ⟨op, hop, hx⟩
      · cases hw

theorem FromOps.writeAll {pending : List Write} (hop : op ∈ ops) :
    ∀ {db db' : Db}, FromOps db ops → (∀ x ∈ pending, Commits op x) →
      db.writeAll pending = some db' → FromOps db' ops := by
  induction pending with
  | nil =>
      intro db db' h _ hw
      cases hw
      exact h
  | cons x xs ih =>
      intro db db' h hall hw
      unfold Db.writeAll at hw
      cases hx : db.write x with
      | none => simp [hx] at hw
      | some db₁ =>
          simp only [hx] at hw
          have hfirst := h.write hop (hall x List.mem_cons_self) hx
          exact ih hfirst (fun y hy => hall y (List.mem_cons_of_mem x hy)) hw

theorem fromOps_keeps : Permitted.Keeps (V := service env) May
    fun w _ ops => FromOps w.db ops where
  spawn op h := h.append op
  act {w log ops i op e a} h hi hadm hmay := by
    have hop : op ∈ ops := List.mem_of_getElem? hi
    by_cases hcommit : ∃ pending, e = .commit pending
    · obtain ⟨pending, rfl⟩ := hcommit
      show FromOps (w.commit pending a).2.db ops
      rcases commit_cases w pending a with ⟨hw, -⟩ | ⟨db, hdb, hw⟩
      · rw [hw]
        exact h
      · rw [hw]
        exact h.writeAll hop hmay hdb
    · show FromOps (perform env e a w).2.db ops
      rw [(Tenancy.touched env hadm).db fun pending he => hcommit ⟨pending, he⟩]
      exact h
  env k h hk := by
    rw [(Tenancy.surroundings_same hk).db]
    exact h

/-- In every state a run reaches, every row is one an operation of the run
has inserted. -/
theorem reachable_origins {s : Sys (service env)} {ok : Guard (service env)}
    (hs : Run ok (Sys.start (service env) World.empty) s) :
    FromOps s.world.db s.ops :=
  Permitted.invariant serve_permitted fromOps_keeps fromOps_empty hs

end ResumeScreening.Origins
