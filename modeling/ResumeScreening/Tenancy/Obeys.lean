/-
Every operation stays within its scope (`within`), read off the programs
in the order of their calls: a statement is built from rows the program
was shown and identifiers it drew, and from nothing else.
-/
import ResumeScreening.Tenancy.Scope
import ResumeScreening.Pipeline.Conform

namespace ResumeScreening.Tenancy

open Effect Effect.Discipline Pipeline

/-- A program that stays within a scope, and what it knows where it
returns. -/
abbrev Within {α : Type} (env : Env) (σ : Scope) (K : List Fact) (p : Py α)
    (T : α → List Fact → Prop := fun _ _ => True) : Prop :=
  (discipline env σ).Obeys (machine env) K p T

variable {env : Env} {σ : Scope} {K : List Fact} {t : UUID} {α β : Type}

/-- A handler that only raises. -/
theorem within_route {p : Py α} {T : α → List Fact → Prop} {f : Exn → Py α}
    (h : Within env σ K p T) (hf : ∀ x, ∃ y, f x = raise y) :
    Within env σ K (p.handle f) T := by
  refine obeys_handle h fun x K' _ => ?_
  obtain ⟨y, hy⟩ := hf x
  rw [hy]
  exact obeys_raise

-- =============================================================== candidates

/-- An added row is the program's own. -/
theorem within_add {row : UUID → Py.DateTime → Candidate}
    {f : Candidate → Py β} {T : β → List Fact → Prop}
    (hid : ∀ id now, (row id now).id = id)
    (ht : ∀ id now, σ.tenants (row id now).tenantId)
    (hnone : ∀ id now, (row id now).pineconeId = none)
    (hf : ∀ id now K', .drawn id ∈ K' →
      Within env σ K' (f (row id now)) T) :
    Within env σ K ((CandidateRepository.add row).bind f) T := by
  unfold CandidateRepository.add
  simp only [Prog.bind_eq, Prog.bind_assoc]
  refine obeys_call trivial fun id _ => obeys_call trivial fun now _ => ?_
  refine obeys_call ?_ fun _ _ => hf id now _ ?_
  · intro x hx
    rw [List.mem_singleton.mp hx]
    refine ⟨?_, ht id now, .inl (hnone id now)⟩
    rw [hid]
    simp [discipline, learned]
  · simp [discipline, learned]

theorem within_upsertCandidate (ht : σ.tenants t) (c text : String)
    (metadata : List (String × String)) :
    Within env σ K (upsertCandidate c text metadata t.str)
      fun id _ => id = candidateVectorId c := by
  unfold upsertCandidate
  refine obeys_call trivial fun vector _ => ?_
  exact obeys_call ⟨t, ht, rfl⟩ fun _ _ => obeys_ret rfl

theorem within_indexCandidate (ht : σ.tenants t) {row : Candidate}
    {pending : Candidate → List Write}
    (hwrite : ∀ K', K ⊆ K' → ∀ x ∈ pending (withVector row),
      AllowsWrite σ K' x)
    (hrow : ∀ K', K ⊆ K' → Allows σ K' env (.refreshCandidate row.id)) :
    Within env σ K (indexCandidate t row pending) := by
  refine within_route ?_ fun x => ⟨_, rfl⟩
  simp only [Prog.bind_eq]
  refine obeys_bind (within_upsertCandidate ht _ _ _) fun pid K' hK hpid => ?_
  subst hpid
  refine obeys_call (hwrite K' hK) fun _ _ => ?_
  refine obeys_perform (hrow _ fun x hx => ?_) fun _ _ => trivial
  exact List.mem_append_right _ (hK hx)

theorem within_createCandidateRoute (payload : CandidateCreate) :
    Within env (.request t) K (createCandidateRoute t payload) := by
  refine within_route ?_ fun x => by cases x <;> exact ⟨_, rfl⟩
  refine within_add (fun _ _ => rfl) (fun _ _ => rfl) (fun _ _ => rfl) ?_
  intro id now K' hid
  refine within_indexCandidate rfl (fun K'' hK x hx => ?_)
    fun K'' hK => .inl (hK hid)
  rw [List.mem_singleton.mp hx]
  exact ⟨hK hid, rfl, .inr rfl⟩

theorem within_listCandidates :
    Within env (.request t) K (listCandidates t) :=
  obeys_perform rfl fun _ _ => trivial

theorem within_getCandidateRoute (c : UUID) :
    Within env (.request t) K (getCandidateRoute t c) := by
  refine within_route ?_ fun x => by cases x <;> exact ⟨_, rfl⟩
  refine obeys_call rfl fun o _ => ?_
  cases o with
  | none => exact obeys_raise
  | some row => exact obeys_ret trivial

theorem within_enforceQuota :
    Within env (.request t) K (enforceQuota env t) :=
  obeys_of_uses (q := fun e => ∀ K, Allows (.request t) K env e)
    (uses_enforceQuota (fun _ => rfl) (fun _ _ => trivial) (fun _ => trivial)
      fun _ _ => rfl)
    fun K _ h => h K

theorem within_enqueueResumeUpload (bytes : List UInt8) :
    Within env (.request t) K (enqueueResumeUpload env t bytes) := by
  refine within_add (fun _ _ => rfl) (fun _ _ => rfl) (fun _ _ => rfl) ?_
  intro id now K' hid
  unfold uploadResumeAndEnqueue
  simp only [Prog.bind_eq, Prog.bind_assoc]
  refine obeys_call (fun x hx => ?_) fun _ _ => ?_
  · rw [List.mem_singleton.mp hx]
    exact ⟨hid, rfl, .inl rfl⟩
  refine obeys_call (.inl (List.mem_append_right _ hid)) fun _ _ => ?_
  refine obeys_call ⟨rfl, id, ?_, rfl⟩ fun _ _ => ?_
  · exact List.mem_append_right _ (List.mem_append_right _ hid)
  · exact obeys_call trivial fun _ _ => obeys_ret trivial

theorem within_uploadResume (file : UploadFile) :
    Within env (.request t) K (uploadResume env t file) := by
  have hgate : Within env (.request t) K (enforceQuota env t)
      fun t' _ => t' = t := by
    have hret : (enforceQuota env t).Returns fun t' => t' = t :=
      returns_enforceQuota t
    have h := Prog.Follows.returns (within_enforceQuota (K := K)) hret
    exact Prog.Follows.mono h fun K' r hq => ⟨hq.1.1, hq.2⟩
  unfold uploadResume
  refine obeys_bind hgate fun t' K' _ ht => ?_
  subst ht
  split
  · exact obeys_raise
  · exact within_enqueueResumeUpload _

-- ===================================================================== jobs

theorem within_createJobRoute (payload : JobCreate) :
    Within env (.request t) K (createJobRoute t payload) := by
  refine within_route (within_route ?_ fun x => ⟨_, rfl⟩)
    fun x => by cases x <;> exact ⟨_, rfl⟩
  unfold JobRepository.add upsertJob
  simp only [Prog.bind_eq, Prog.bind_assoc]
  refine obeys_call trivial fun id _ => obeys_call trivial fun now _ => ?_
  refine obeys_call (fun x hx => ?_) fun _ _ => ?_
  · rw [List.mem_singleton.mp hx]
    exact ⟨by simp [discipline, learned, createdJob], rfl, .inl rfl⟩
  refine obeys_call trivial fun vector _ => ?_
  refine obeys_call ⟨t, rfl, rfl⟩ fun _ _ => ?_
  refine obeys_call (fun x hx => ?_) fun _ _ => ?_
  · rw [List.mem_singleton.mp hx]
    exact ⟨by simp [discipline, learned, createdJob], rfl, .inr rfl⟩
  · refine obeys_perform ?_ fun _ _ => trivial
    simp [discipline, Allows, learned, createdJob]

theorem within_listJobs : Within env (.request t) K (listJobs t) :=
  obeys_perform rfl fun _ _ => trivial

/-- A job that was found is the tenant's. -/
theorem within_getJobRoute (j : UUID) :
    Within env (.request t) K (getJobRoute t j)
      fun job K' => .job job ∈ K' ∧ job.tenantId = t := by
  refine within_route ?_ fun x => by cases x <;> exact ⟨_, rfl⟩
  refine obeys_call rfl fun o ho => ?_
  cases o with
  | none => exact obeys_raise
  | some row =>
      refine obeys_ret ⟨by simp [discipline, learned], ?_⟩
      obtain ⟨w, a, -, hr⟩ := ho
      have hfind := (read_ok (α := Option Job) hr).symm
      have hmatch := (Relational.Table.find?_mem hfind).2
      rw [Bool.and_eq_true] at hmatch
      simpa using hmatch.2

-- ================================================================== ranking

/-- Every resolved candidate is a row of the tenant that was shown. -/
theorem within_resolve (ms : List VectorMatch) :
    Within env (.request t) K (resolve t ms) fun rs K' =>
      ∀ r ∈ rs, .candidate r.1 ∈ K' ∧ r.1.tenantId = t := by
  induction ms generalizing K with
  | nil => exact obeys_ret fun _ h => nomatch h
  | cons m ms ih =>
      unfold resolve
      cases Py.optTruthy m.candidateId with
      | none => exact ih
      | some text =>
          have huuid : Within env (.request t) K (uuid text) := by
            unfold uuid
            cases UUID.parse text with
            | none => exact obeys_raise
            | some u => exact obeys_ret trivial
          refine obeys_bind huuid fun c K₁ _ _ => ?_
          refine obeys_call rfl fun o ho => ?_
          cases o with
          | none => exact ih
          | some row =>
              refine obeys_bind ih fun rest K₂ hK hrest => ?_
              refine obeys_ret fun r hr => ?_
              rcases List.mem_cons.mp hr with rfl | hr
              · refine ⟨hK (by simp [discipline, learned]), ?_⟩
                obtain ⟨w, a, -, hrep⟩ := ho
                have hread : (perform env (.selectCandidate t c) a w).1
                    = .ok (some row) := hrep
                exact (selectCandidate_ok hread).2.2
              · exact hrest r hr

theorem within_rankCandidatesRoute (j : UUID) (topK topN : Option Int) :
    Within env (.request t) K (rankCandidatesRoute env t j topK topN) := by
  refine obeys_bind (within_getJobRoute j) fun job K₁ _ hjob => ?_
  unfold rankCandidatesForJob querySimilarCandidates
  simp only [Prog.bind_eq, Prog.bind_assoc, Prog.pure_eq, Prog.ret_bind]
  refine obeys_call trivial fun vector _ => ?_
  refine obeys_call ⟨t, rfl, rfl⟩ fun answer _ => ?_
  refine obeys_bind (within_resolve _) fun rs K₂ hK₂ hrs => ?_
  have heval : Within env (.request t) K₂
      (Prog.mapEach (evaluate job) rs)
      fun es _ => ∀ e ∈ es, e.candidate ∈ rs.map Prod.fst := by
    refine obeys_mapEach fun r hr K' _ => ?_
    refine obeys_call trivial fun explanation _ => obeys_ret ?_
    exact List.mem_map.mpr ⟨r, hr, rfl⟩
  refine obeys_bind heval fun es K₃ hK₃ hes => ?_
  refine obeys_bind (obeys_ofExcept (T := fun _ _ => True)
    fun _ _ => trivial) fun ranked K₄ hK₄ _ => ?_
  refine obeys_call (fun x hx => ?_) fun _ _ => obeys_ret trivial
  obtain ⟨⟨e, rank⟩, hmem, rfl⟩ := List.mem_map.mp hx
  -- a shortlisted evaluation is of a resolved candidate
  have he : e ∈ es := mem_shortlist hmem
  obtain ⟨r, hr, hrow⟩ := List.mem_map.mp (hes e he)
  obtain ⟨hknown, ht⟩ := hrs r hr
  refine ⟨job, e.candidate, hK₄ (hK₃ (hK₂ ?_)), ?_, rfl, rfl, ?_⟩
  · exact List.mem_append_right _ (List.mem_append_right _ hjob.1)
  · exact hK₄ (hK₃ (hrow ▸ hknown))
  · rw [hjob.2, ← hrow, ht]

-- ================================================================== billing

theorem within_createPlan (payload : PlanCreate) :
    Within env .operator K (createPlan payload) := by
  refine obeys_call trivial fun id _ => ?_
  refine obeys_call (fun x hx => ?_) fun _ _ => obeys_ret trivial
  rw [List.mem_singleton.mp hx]
  trivial

theorem within_createSubscription (p : UUID) (hK : .attempted ∉ K) :
    Within env (.subscription t p) K (createSubscription t p) := by
  unfold createSubscription
  refine obeys_call trivial fun o ho => ?_
  cases o with
  | none => exact obeys_raise
  | some plan =>
      have hplan : plan.id = p := by
        obtain ⟨w, a, -, hr⟩ := ho
        have hfind := (read_ok (α := Option Plan) hr).symm
        simpa using (Relational.Table.find?_mem hfind).2
      refine obeys_call trivial fun response _ => ?_
      refine obeys_call rfl fun o _ => ?_
      cases o with
      | none =>
          refine obeys_call trivial fun id _ => ?_
          refine obeys_call (fun x hx => ?_) fun _ _ => ?_
          · rw [List.mem_singleton.mp hx]
            refine ⟨?_, rfl, ?_, plan, response, hplan, ?_, ?_, rfl⟩ <;>
              simp [discipline, learned, createdSubscription, hK]
          · refine obeys_call ?_ fun _ _ => obeys_ret trivial
            exact .inl (by simp [discipline, learned])
      | some loaded =>
          refine obeys_call (fun x hx => ?_) fun _ _ => ?_
          · rw [List.mem_singleton.mp hx]
            refine ⟨loaded, ?_, rfl, .replace ?_ hplan ?_ ?_⟩ <;>
              simp [discipline, learned, hK]
          · refine obeys_call ?_ fun _ _ => obeys_ret trivial
            exact .inr ⟨loaded, by simp [discipline, learned], rfl⟩

theorem within_subscribeRoute (p : UUID) (hK : .attempted ∉ K) :
    Within env (.subscription t p) K (subscribeRoute t p) := by
  refine obeys_bind (within_route (within_createSubscription p hK)
    fun x => by cases x <;> exact ⟨_, rfl⟩) fun _ _ _ _ => obeys_ret trivial

theorem within_handleWebhookEvent (eventType : String)
    (payload : WebhookPayload) :
    Within env (.event eventType payload) K
      (handleWebhookEvent eventType payload)
      fun _ K' => Finished K' (.webhook eventType payload) := by
  unfold handleWebhookEvent
  cases hst : statusEvent eventType with
  | none =>
      refine obeys_ret fun newStatus _ _ h => ?_
      rw [hst] at h
      cases h
  | some newStatus =>
      refine obeys_bind (obeys_ofExcept
        (T := fun a _ => payload.entity = .ok a) fun _ ha => ha) ?_
      intro e K₁ _ he
      obtain ⟨rid, entity⟩ := e
      refine obeys_call ⟨entity, he⟩ fun o ho => ?_
      cases o with
      | none =>
          refine obeys_ret fun _ rid' e' _ he' => .inl ?_
          rw [he] at he'
          cases he'
          exact List.mem_cons_self ..
      | some loaded =>
          have hrid : loaded.razorpaySubscriptionId = rid := by
            obtain ⟨w, a, -, hr⟩ := ho
            have hfind := (read_ok (α := Option Subscription) hr).symm
            simpa using (Relational.Table.find?_mem hfind).2
          refine obeys_bind (obeys_ofExcept
            (T := fun a _ => periodEnd eventType entity = .ok a)
            fun _ ha => ha) fun newEnd K₂ hK₂ hend => ?_
          have hloaded : .subscription loaded ∈ K₂ :=
            hK₂ (by simp [discipline, learned])
          refine obeys_perform (fun x hx => ?_)
            fun _ _ newStatus' rid' e' hst' he' => .inr ?_
          · rw [List.mem_singleton.mp hx]
            refine ⟨loaded, hloaded, rfl, .apply ⟨hst, entity, ?_, hend⟩⟩
            rw [hrid]
            exact he
          · rw [hst] at hst'
            rw [he] at he'
            cases hst'
            cases he'
            exact ⟨loaded, newEnd, List.mem_append_right _ hloaded, hrid, hend,
              List.mem_append_left _ (List.mem_cons_self ..)⟩

-- =================================================================== worker

theorem within_parse (row : Candidate) (bytes : List UInt8)
    (hrow : .candidate row ∈ K) :
    Within env σ K ((parseResumePdf env bytes).handle (parseFailed row.id)) := by
  refine obeys_handle ?_ fun x K' hK => ?_
  · unfold parseResumePdf
    refine obeys_bind (obeys_ofExcept (T := fun _ _ => True)
      fun _ _ => trivial) fun text _ _ _ => ?_
    by_cases htext : text = ""
    · simp only [htext, if_true]
      exact obeys_raise
    · simp only [htext, if_false]
      exact obeys_call trivial fun _ _ => obeys_ret trivial
  · cases x with
    | valueError msg =>
        refine obeys_call (fun y hy => ?_) fun _ _ => obeys_raise
        rw [List.mem_singleton.mp hy]
        exact ⟨⟨row, hK hrow, rfl⟩, .inl rfl⟩
    | _ => exact obeys_raise

theorem within_processPendingCandidate (ht : σ.tenants t) (c : UUID)
    (bytes : List UInt8) :
    Within env σ K (processPendingCandidate env t c bytes)
      fun _ K' => ∃ row, .candidate row ∈ K' ∧ row.id = c := by
  unfold processPendingCandidate
  refine obeys_call ht fun o ho => ?_
  cases o with
  | none => exact obeys_raise
  | some row =>
      have hid : row.id = c := by
        obtain ⟨w, a, -, hr⟩ := ho
        have hread : (perform env (.selectCandidate t c) a w).1
            = .ok (some row) := hr
        exact (selectCandidate_ok hread).2.1
      generalize hK : (discipline env σ).learned _ ++ K = K₁
      have hrow : .candidate row ∈ K₁ := by
        rw [← hK]
        simp [discipline, learned]
      refine obeys_call (fun x hx => ?_) fun _ _ => ?_
      · unfold setStatus at hx
        split at hx
        · cases hx
        · rw [List.mem_singleton.mp hx]
          exact ⟨⟨row, hrow, rfl⟩, .inl rfl⟩
      · refine obeys_bind (within_parse row bytes (List.mem_append_right _ hrow))
          fun answer K₂ hK₂ _ => ?_
        have hrow₂ : .candidate row ∈ K₂ := hK₂ (List.mem_append_right _ hrow)
        refine obeys_bind (within_indexCandidate ht (fun K₃ hK₃ x hx => ?_)
          fun K₃ hK₃ => .inr ⟨row, hK₃ hrow₂, rfl⟩) fun _ K₃ hK₃ _ => ?_
        · rw [List.mem_singleton.mp hx]
          exact ⟨⟨row, hK₃ hrow₂, rfl⟩, .inr rfl⟩
        · exact obeys_ret ⟨row, hK₃ hrow₂, hid⟩

theorem within_jsonUuid (v : JsonValue) :
    Within env σ K (jsonUuid v)
      fun u _ => ∃ s, v = .text s ∧ UUID.parse s = some u := by
  unfold jsonUuid
  refine obeys_bind (obeys_ofExcept (T := fun s _ => v = .text s)
    fun s hs => asText_ok hs) fun s K' _ hv => ?_
  unfold uuid
  cases hp : UUID.parse s with
  | none => exact obeys_raise
  | some u => exact obeys_ret ⟨s, hv, hp⟩

/-- What `json.loads` hands over is the message's object. -/
theorem object_of_jsonLoads {b : Body} {fs : List (String × JsonValue)}
    (h : jsonLoads b = .ok (some fs)) : b = .object fs := by
  cases b with
  | malformed => cases h
  | object fields =>
      cases h
      rfl
  | value => cases h

theorem within_processMessage {m : Message}
    {body : Option (List (String × JsonValue))}
    (hbody : jsonLoads m.body = .ok body) :
    Within env (.message m) K (processMessage env body) := by
  have hitem : ∀ (key : String) (K : List Fact), Within env (.message m) K
      (Prog.ofExcept (item body key)) fun v _ => item body key = .ok v :=
    fun key K => obeys_ofExcept fun v hv => hv
  have htext : ∀ (v : JsonValue) (K : List Fact), Within env (.message m) K
      (Prog.ofExcept (asText v)) fun s _ => v = .text s :=
    fun v K => obeys_ofExcept fun s hs => asText_ok hs
  unfold processMessage
  simp only [Prog.bind_eq]
  refine obeys_bind (hitem _ _) fun vc K₁ _ hc => ?_
  refine obeys_bind (hitem _ _) fun vt K₂ _ ht => ?_
  refine obeys_bind (hitem _ _) fun vb K₃ _ hb => ?_
  refine obeys_bind (hitem _ _) fun vk K₄ _ hk => ?_
  refine obeys_bind (htext _ _) fun bucket K₅ _ hbucket => ?_
  refine obeys_bind (htext _ _) fun key K₆ _ hkey => ?_
  obtain ⟨fs, hfs, hcText⟩ := item_ok hc
  subst hfs
  obtain ⟨_, ⟨⟩, htText⟩ := item_ok ht
  obtain ⟨_, ⟨⟩, hbText⟩ := item_ok hb
  obtain ⟨_, ⟨⟩, hkText⟩ := item_ok hk
  have hobject := object_of_jsonLoads hbody
  subst hbucket hkey
  refine obeys_call ⟨fs, hobject, hbText, hkText⟩ fun bytes _ => ?_
  refine obeys_bind (within_jsonUuid vt) fun t K₇ _ htenant => ?_
  obtain ⟨tenantText, rfl, hpt⟩ := htenant
  refine obeys_bind (within_jsonUuid vc) fun c K₈ _ hcand => ?_
  obtain ⟨text, rfl, hpc⟩ := hcand
  have hnames : Names m.body t c text :=
    ⟨⟨fs, tenantText, hobject, hcText, htText, hpt⟩, hpc⟩
  have hscope : (Scope.message m).tenants t := ⟨c, text, hnames⟩
  refine obeys_bind (within_processPendingCandidate hscope c bytes)
    fun _ K₉ _ hrow => ?_
  obtain ⟨row, hrow, hid⟩ := hrow
  exact obeys_perform ⟨row, hrow, hid ▸ hpc⟩ fun _ _ => trivial

/-- The handling of a message stays within what the message names. -/
theorem within_handleMessage (m : Message) :
    Within env (.message m) K (handleMessage env m) := by
  refine obeys_handle ?_ fun x K' _ => ?_
  · simp only [Prog.bind_eq]
    refine obeys_bind (obeys_ofExcept
      (T := fun body _ => jsonLoads m.body = .ok body) fun _ h => h) ?_
    intro body K₁ _ hbody
    refine obeys_bind (within_processMessage hbody) fun _ K₂ _ _ => ?_
    exact obeys_call trivial fun _ _ => obeys_perform trivial fun _ _ => trivial
  · cases x with
    | resumeContent msg =>
        exact obeys_call trivial fun _ _ =>
          obeys_perform trivial fun _ _ => trivial
    | _ => exact obeys_perform trivial fun _ _ => trivial

/-- A worker may do what any message entitles it to. -/
theorem worker_allows {m : Message} {K : List Fact} {e : Act}
    (h : Allows (.message m) K env e) : Allows .worker K env e := by
  have hwrite : ∀ x, AllowsWrite (.message m) K x → AllowsWrite .worker K x := by
    intro x hx
    cases x with
    | insertCandidate row => exact ⟨hx.1, trivial, hx.2.2⟩
    | insertJob row => exact ⟨hx.1, trivial, hx.2.2⟩
    | insertPlan row => exact hx.elim
    | insertSubscription row =>
        obtain ⟨-, -, -, plan, response, hplan, -⟩ := hx
        exact hplan.elim
    | updateSubscription id set =>
        obtain ⟨row, -, -, hset⟩ := hx
        cases hset with
        | replace _ hplan => exact hplan.elim
        | apply happ => exact happ.elim
    | updateCandidate id set => exact hx
    | insertMatchResult r => exact hx
  cases e with
  | flush pending => exact fun x hx => hwrite x (h x hx)
  | commit pending => exact fun x hx => hwrite x (h x hx)
  | upsert ns v =>
      obtain ⟨t, -, hns⟩ := h
      exact ⟨t, trivial, hns⟩
  | query ns v k =>
      obtain ⟨t, -, hns⟩ := h
      exact ⟨t, trivial, hns⟩
  | selectSubscriptionByRazorpayId rid => exact h
  | receiveMessage => trivial
  | refreshCandidate id => exact h
  | refreshJob id => exact h
  | refreshSubscription id => exact h
  | putObject bucket key body => exact h
  | updateItem text status => exact h
  | _ => trivial

theorem within_run : Within env .worker K (run env) := by
  refine obeys_call trivial fun ms _ => ?_
  refine obeys_forEach fun m _ K' _ => ?_
  exact (within_handleMessage m).relax rfl fun K e h => worker_allows h

-- ============================================================ all operations

/-- Every operation stays within its scope. -/
theorem within (op : Op) (hK : .attempted ∉ K) :
    Within env (scope op) K (serve env op) fun _ K' => Finished K' op := by
  have hret : ∀ {σ : Scope} {α : Type} {p : Py α} {f : α → Resp} {op : Op},
      (∀ K, Finished K op) → Within env σ K p →
      Within env σ K (p.bind fun a => .ret (f a))
        fun _ K' => Finished K' op :=
    fun hop h => obeys_bind h fun _ K' _ _ => obeys_ret (hop K')
  cases op with
  | createCandidate t payload =>
      exact hret (fun _ => trivial) (within_createCandidateRoute payload)
  | listCandidates t => exact hret (fun _ => trivial) within_listCandidates
  | getCandidate t c => exact hret (fun _ => trivial) (within_getCandidateRoute c)
  | uploadResume t file => exact hret (fun _ => trivial) (within_uploadResume file)
  | createJob t payload =>
      exact hret (fun _ => trivial) (within_createJobRoute payload)
  | listJobs t => exact hret (fun _ => trivial) within_listJobs
  | getJob t j =>
      exact hret (fun _ => trivial)
        ((within_getJobRoute j).mono fun _ _ _ _ => trivial)
  | rankCandidates t j topK topN =>
      exact hret (fun _ => trivial) (within_rankCandidatesRoute j topK topN)
  | createPlan payload => exact hret (fun _ => trivial) (within_createPlan payload)
  | subscribe t p => exact hret (fun _ => trivial) (within_subscribeRoute p hK)
  | webhook eventType payload =>
      exact obeys_bind (within_handleWebhookEvent eventType payload)
        fun _ _ _ hfin => obeys_ret hfin
  | worker =>
      exact hret (f := fun _ => Resp.done) (fun _ => trivial) within_run

end ResumeScreening.Tenancy
