/-
What an operation run for one tenant leaves of everybody else's data:
all of it.

`Mine` is what the facts of such an operation say: rows and identifiers
of its tenant only. An allowed statement writes rows these facts name,
so the rows of every other tenant are the same list before and after
(`OtherRows`), and a new row, or a row under a drawn identifier, is the
tenant's own — which keeps the facts his (`Mine.step`).
-/
import ResumeScreening.Tenancy.Sound

namespace ResumeScreening.Tenancy

open Effect Pipeline Relational

variable {env : Env} {σ : Scope} {K : List Fact} {w w' : World}
  {db db' : Db} {t a : UUID}

-- =============================================================== tenant data

/-- The matches of a tenant's jobs. -/
def matchesOf (db : Db) (t : UUID) : List MatchResult :=
  db.matchResults.filter fun m =>
    db.jobs.rows.any fun j => j.id == m.jobId && j.tenantId == t

/-- The data of one tenant: its rows, the vectors of its namespace, and
the statuses and files stored under its candidates' identifiers. -/
structure TenantData where
  candidates : List Candidate
  jobs : List Job
  subscriptions : List Subscription
  matchResults : List MatchResult
  vectors : String → Option VectorRecord
  statuses : List (Option String)
  files : List (Option (List UInt8))

def dataOf (env : Env) (w : World) (t : UUID) : TenantData where
  candidates := w.db.candidates.select fun r => r.tenantId == t
  jobs := w.db.jobs.select fun j => j.tenantId == t
  subscriptions := w.db.subscriptions.select fun s => s.tenantId == t
  matchResults := matchesOf w.db t
  vectors := w.pinecone t.str
  statuses := (w.db.candidates.select fun r => r.tenantId == t).map
    fun r => w.dynamo r.id.str
  files := (w.db.candidates.select fun r => r.tenantId == t).map
    fun r => fileOf env w r.id

-- ================================================================ own facts

/-- What the facts of an operation run for tenant `t` say. -/
def Mine (t : UUID) (w : World) : Fact → Prop
  | .drawn id => id ∈ w.usedIds
      ∧ (∀ r ∈ w.db.candidates.rows, r.id = id → r.tenantId = t)
      ∧ (∀ j ∈ w.db.jobs.rows, j.id = id → j.tenantId = t)
      ∧ ∀ s ∈ w.db.subscriptions.rows, s.id = id → s.tenantId = t
  | .candidate row => row.tenantId = t ∧ ∃ r ∈ w.db.candidates.rows,
      r.id = row.id ∧ r.tenantId = t
  | .job row => row.tenantId = t ∧ row ∈ w.db.jobs.rows
  | .subscription row => row.tenantId = t ∧ ∃ s ∈ w.db.subscriptions.rows,
      s.id = row.id ∧ s.tenantId = t
  | .plan row => row ∈ w.db.plans.rows
  | .issued _ response => response.id ∈ w.usedSubscriptionIds
      ∧ ∀ s ∈ w.db.subscriptions.rows,
        s.razorpaySubscriptionId = response.id → s.tenantId = t
  | .unknown _ | .attempted | .committed _ => True

/-- What an operation's scope comes to where it is run for tenant `t`. -/
structure Entitled (env : Env) (σ : Scope) (t : UUID) (w : World) :
    Prop where
  tenants : ∀ t', σ.tenants t' → t' = t
  shared : ¬ σ.shared
  accounts : ∀ s ∈ w.db.subscriptions.rows,
    σ.accounts s.razorpaySubscriptionId → s.tenantId = t
  files : ∀ bucket key, σ.files bucket key → bucket = env.s3BucketName
    ∧ ∃ c, key = uploadKey c ∧ HasRow w t c

theorem Mine.known {x : Fact} (h : Mine t w x) : Known w x := by
  cases x with
  | drawn id => exact h.1
  | candidate row =>
      obtain ⟨ht, r, hr, hid, hrt⟩ := h
      exact ⟨r, hr, hid, hrt.trans ht.symm⟩
  | job row => exact h.2
  | subscription row =>
      obtain ⟨ht, s, hs, hid, hst⟩ := h
      exact ⟨s, hs, hid, hst.trans ht.symm⟩
  | plan row => exact h
  | issued p response => exact h.1
  | _ => trivial

-- ============================================================ everybody else

/-- The rows of every tenant but `t` are the same. -/
structure OtherRows (t : UUID) (db db' : Db) : Prop where
  candidates : (db'.candidates.select fun r => r.tenantId != t)
    = db.candidates.select fun r => r.tenantId != t
  jobs : (db'.jobs.select fun j => j.tenantId != t)
    = db.jobs.select fun j => j.tenantId != t
  subscriptions : (db'.subscriptions.select fun s => s.tenantId != t)
    = db.subscriptions.select fun s => s.tenantId != t
  matchResults : ∀ a, a ≠ t → matchesOf db' a = matchesOf db a

theorem OtherRows.refl (t : UUID) (db : Db) : OtherRows t db db :=
  ⟨rfl, rfl, rfl, fun _ _ => rfl⟩

theorem OtherRows.trans {db'' : Db} (h : OtherRows t db db')
    (h' : OtherRows t db' db'') : OtherRows t db db'' :=
  ⟨h'.candidates.trans h.candidates, h'.jobs.trans h.jobs,
    h'.subscriptions.trans h.subscriptions,
    fun a ha => (h'.matchResults a ha).trans (h.matchResults a ha)⟩

/-- A row of another tenant was there before. -/
theorem row_before {ρ : Type} {schema : Schema ρ} {tenant : ρ → UUID}
    {tab tab' : Table schema}
    (h : (tab'.select fun r => tenant r != t)
      = tab.select fun r => tenant r != t) {r : ρ} (hr : r ∈ tab'.rows)
    (hne : tenant r ≠ t) : r ∈ tab.rows := by
  have hmem : r ∈ tab'.select fun r => tenant r != t :=
    Table.mem_select.mpr ⟨hr, by simpa using hne⟩
  rw [h] at hmem
  exact (Table.mem_select.mp hmem).1

/-- Another tenant sees what everybody else sees. -/
theorem select_other {ρ : Type} {schema : Schema ρ} {tenant : ρ → UUID}
    {tab tab' : Table schema} (ha : a ≠ t)
    (h : (tab'.select fun r => tenant r != t)
      = tab.select fun r => tenant r != t) :
    (tab'.select fun r => tenant r == a)
      = tab.select fun r => tenant r == a := by
  refine Table.select_of_select h fun r hr => ?_
  have hra : tenant r = a := by simpa using hr
  simpa [hra] using ha

/-- Facts of the tenant stay his while nobody else's rows change. -/
theorem Mine.step {x : Fact} (h : Mine t w x) (hg : WorldGrows w w')
    (ho : OtherRows t w.db w'.db) : Mine t w' x := by
  cases x with
  | drawn id =>
      obtain ⟨hid, hc, hj, hs⟩ := h
      refine ⟨hg.used hid, fun r hr hrid => ?_, fun j hj' hjid => ?_,
        fun s hs' hsid => ?_⟩
      · by_contra hne
        exact hne (hc r (row_before ho.candidates hr hne) hrid)
      · by_contra hne
        exact hne (hj j (row_before ho.jobs hj' hne) hjid)
      · by_contra hne
        exact hne (hs s (row_before ho.subscriptions hs' hne) hsid)
  | candidate row =>
      obtain ⟨ht, r, hr, hid, hrt⟩ := h
      obtain ⟨r', hr', hid', ht'⟩ := hg.rows.candidates r hr
      exact ⟨ht, r', hr', hid'.trans hid, ht'.trans hrt⟩
  | job row => exact ⟨h.1, hg.rows.jobs row h.2⟩
  | subscription row =>
      obtain ⟨ht, s, hs, hid, hst⟩ := h
      obtain ⟨s', hs', hid', ht'⟩ := hg.rows.subscriptions s hs
      exact ⟨ht, s', hs', hid'.trans hid, ht'.trans hst⟩
  | plan row => exact hg.rows.plans row h
  | issued p response =>
      refine ⟨hg.issued h.1, fun s hs hsid => ?_⟩
      by_contra hne
      exact hne (h.2 s (row_before ho.subscriptions hs hne) hsid)
  | _ => trivial

theorem Entitled.step (h : Entitled env σ t w) (hg : WorldGrows w w')
    (ho : OtherRows t w.db w'.db) : Entitled env σ t w' where
  tenants := h.tenants
  shared := h.shared
  accounts s hs hacc := by
    by_contra hne
    exact hne (h.accounts s (row_before ho.subscriptions hs hne) hacc)
  files bucket key hf := by
    obtain ⟨hb, c, hk, r, hr, hid, ht⟩ := h.files bucket key hf
    obtain ⟨r', hr', hid', ht'⟩ := hg.rows.candidates r hr
    exact ⟨hb, c, hk, r', hr', hid'.trans hid, ht'.trans ht⟩

-- ============================================================= one statement

/-- The row a fact names is the tenant's, whoever looks it up. -/
theorem Mine.candidate_row {row r : Candidate} (h : Mine t w (.candidate row))
    (hr : r ∈ w.db.candidates.rows) (hid : r.id = row.id) : r.tenantId = t := by
  obtain ⟨-, r', hr', hid', ht⟩ := h
  rw [candidate_unique hr hr' (hid.trans hid'.symm), ht]

theorem Mine.subscription_row {row s : Subscription}
    (h : Mine t w (.subscription row)) (hs : s ∈ w.db.subscriptions.rows)
    (hid : s.id = row.id) : s.tenantId = t := by
  obtain ⟨-, s', hs', hid', ht⟩ := h
  rw [subscription_unique hs hs' (hid.trans hid'.symm), ht]

/-- The jobs whose matches a tenant sees. -/
theorem matchesOf_congr (hm : db'.matchResults = db.matchResults)
    (hj : ∀ m ∈ db.matchResults, (∃ j ∈ db'.jobs.rows,
        j.id = m.jobId ∧ j.tenantId = a)
      ↔ ∃ j ∈ db.jobs.rows, j.id = m.jobId ∧ j.tenantId = a) :
    matchesOf db' a = matchesOf db a := by
  unfold matchesOf
  rw [hm]
  apply List.filter_congr
  intro m hmem
  rw [Bool.eq_iff_iff]
  simpa using hj m hmem

/-- One allowed statement leaves everybody else's rows. -/
theorem other_write {x : Write} (he : Entitled env σ t w)
    (hK : ∀ f ∈ K, Mine t { w with db := db } f) (hx : AllowsWrite σ K x)
    (hw : db.write x = some db') : OtherRows t db db' := by
  cases x with
  | insertCandidate row =>
      obtain ⟨tab, htab, rfl⟩ := write_insertCandidate hw
      refine { OtherRows.refl t db with candidates := ?_ }
      rw [Table.select_insert? htab]
      simp [he.tenants _ hx.2.1]
  | updateCandidate id set =>
      obtain ⟨tab, htab, rfl⟩ := write_updateCandidate hw
      obtain ⟨⟨row, hrow, hid⟩, -⟩ := hx
      refine { OtherRows.refl t db with candidates := ?_ }
      refine Table.select_update?_of_not htab fun r hr hrid => ?_
      have hrid' : r.id = row.id := by
        rw [hid]
        simpa using hrid
      have ht : r.tenantId = t := (hK _ hrow).candidate_row hr hrid'
      have ht' : (set.apply r).tenantId = t := ht
      simp [ht, ht']
  | insertJob row =>
      obtain ⟨tab, htab, rfl⟩ := write_insertJob hw
      have hrt : row.tenantId = t := he.tenants _ hx.2.1
      refine { OtherRows.refl t db with jobs := ?_, matchResults := ?_ }
      · rw [Table.select_insert? htab]
        simp [hrt]
      · intro a ha
        refine matchesOf_congr rfl fun m _ => ?_
        constructor
        · intro h
          obtain ⟨j, hj, hid, hja⟩ := h
          rcases (Table.mem_insert? htab).mp hj with hj | rfl
          · exact ⟨j, hj, hid, hja⟩
          · exact absurd (hja.symm.trans hrt) ha
        · intro h
          obtain ⟨j, hj, hid, hja⟩ := h
          exact ⟨j, (Table.mem_insert? htab).mpr (.inl hj), hid, hja⟩
  | insertPlan row => exact absurd hx he.shared
  | insertSubscription row =>
      obtain ⟨tab, htab, rfl⟩ := Option.map_eq_some_iff.mp hw
      refine { OtherRows.refl t db with subscriptions := ?_ }
      rw [Table.select_insert? htab]
      simp [he.tenants _ hx.2.1]
  | updateSubscription id set =>
      obtain ⟨tab, htab, rfl⟩ := Option.map_eq_some_iff.mp hw
      obtain ⟨row, hrow, hid, -⟩ := hx
      refine { OtherRows.refl t db with subscriptions := ?_ }
      refine Table.select_update?_of_not htab fun s hs hsid => ?_
      have hsid' : s.id = row.id := by
        rw [hid]
        simpa using hsid
      have ht : s.tenantId = t := (hK _ hrow).subscription_row hs hsid'
      have ht' : (set.apply s).tenantId = t := ht
      simp [ht, ht']
  | insertMatchResult m =>
      simp only [Db.write] at hw
      split at hw
      · cases hw
        refine { OtherRows.refl t db with matchResults := fun a ha => ?_ }
        obtain ⟨job, row, hjob, -, hmj, -, -⟩ := hx
        obtain ⟨hjt, hjmem⟩ := hK _ hjob
        have hnot : (db.jobs.rows.any fun j =>
            j.id == m.jobId && j.tenantId == a) = false := by
          rw [List.any_eq_false]
          intro j hj hja
          simp only [Bool.and_eq_true, beq_iff_eq] at hja
          rw [job_unique hj hjmem (hja.1.trans hmj)] at hja
          exact ha (hja.2.symm.trans hjt)
        unfold matchesOf
        simp [List.filter_append, hnot]
      · cases hw

theorem other_writeAll {pending : List Write} :
    ∀ {db db' : Db}, Entitled env σ t { w with db := db } →
      (∀ f ∈ K, Mine t { w with db := db } f) →
      (∀ x ∈ pending, AllowsWrite σ K x) → db.writeAll pending = some db' →
      OtherRows t db db' := by
  induction pending with
  | nil =>
      intro db db' _ _ _ hw
      cases hw
      exact .refl t db
  | cons x xs ih =>
      intro db db' he hK hall hw
      unfold Db.writeAll at hw
      cases hx : db.write x with
      | none => simp [hx] at hw
      | some db₁ =>
          simp only [hx] at hw
          have hfirst : OtherRows t db db₁ :=
            other_write he hK (hall x (List.mem_cons_self ..)) hx
          have hgrow : WorldGrows { w with db := db } { w with db := db₁ } :=
            ⟨write_grows hx, List.Subset.refl _, List.Subset.refl _⟩
          exact hfirst.trans (ih (he.step hgrow hfirst)
            (fun f hf => (hK f hf).step hgrow hfirst)
            (fun y hy => hall y (List.mem_cons_of_mem x hy)) hw)

-- ================================================================ one action

/-- Unchanged rows, vectors, statuses and files are unchanged data. -/
theorem dataOf_congr (ha : a ≠ t) (hrows : OtherRows t w.db w'.db)
    (hvectors : w'.pinecone a.str = w.pinecone a.str)
    (hstatuses : ∀ r ∈ w.db.candidates.rows, r.tenantId = a →
      w'.dynamo r.id.str = w.dynamo r.id.str)
    (hfiles : ∀ r ∈ w.db.candidates.rows, r.tenantId = a →
      fileOf env w' r.id = fileOf env w r.id) :
    dataOf env w' a = dataOf env w a := by
  have hcands : (w'.db.candidates.select fun r => r.tenantId == a)
      = w.db.candidates.select fun r => r.tenantId == a :=
    select_other ha hrows.candidates
  have hmine : ∀ r ∈ w.db.candidates.select fun r => r.tenantId == a,
      r ∈ w.db.candidates.rows ∧ r.tenantId = a := by
    intro r hr
    simpa using Table.mem_select.mp hr
  unfold dataOf
  rw [hcands, select_other ha hrows.jobs, select_other ha hrows.subscriptions,
    hrows.matchResults a ha, hvectors]
  congr 1
  · apply List.map_congr_left
    exact fun r hr => hstatuses r (hmine r hr).1 (hmine r hr).2
  · apply List.map_congr_left
    exact fun r hr => hfiles r (hmine r hr).1 (hmine r hr).2

theorem SameStores.dataOf (h : SameStores w w') (a : UUID) :
    dataOf env w' a = Tenancy.dataOf env w a := by
  unfold Tenancy.dataOf fileOf
  rw [h.db, h.pinecone, h.s3, h.dynamo]

/-- One allowed action leaves everybody else's rows and data. -/
theorem other_step (he : Entitled env σ t w) (hK : ∀ f ∈ K, Mine t w f)
    {e : Act} {r : Except Exn e.Ret} (hallow : Allows σ K env e)
    (htouch : Touched env w ⟨e, r⟩ w') :
    OtherRows t w.db w'.db
      ∧ ∀ a, a ≠ t → dataOf env w' a = dataOf env w a := by
  cases htouch with
  | nothing hs =>
      refine ⟨?_, fun a _ => hs.dataOf a⟩
      rw [hs.db]
      exact .refl t w.db
  | drew => exact ⟨.refl t _, fun a _ => rfl⟩
  | issued => exact ⟨.refl t _, fun a _ => rfl⟩
  | @committed pending db _ hdb =>
      have hrows : OtherRows t w.db db := other_writeAll he hK hallow hdb
      exact ⟨hrows, fun a ha => dataOf_congr ha hrows rfl (fun _ _ _ => rfl)
        fun _ _ _ => rfl⟩
  | @stored ns v =>
      obtain ⟨t', ht', rfl⟩ := hallow
      refine ⟨.refl t _, fun a ha => ?_⟩
      refine dataOf_congr ha (.refl t _) ?_ (fun _ _ _ => rfl) fun _ _ _ => rfl
      funext id
      show setAt _ _ _ _ _ _ = _
      rw [setAt, if_neg]
      intro hk
      rw [he.tenants t' ht'] at hk
      exact ha (UUID.str_injective hk.1)
  | @put bucket key body =>
      obtain ⟨hbucket, id, hdrawn, hkey⟩ := hallow
      refine ⟨.refl t _, fun a ha => ?_⟩
      refine dataOf_congr ha (.refl t _) rfl (fun _ _ _ => rfl) ?_
      intro r hr hra
      show setAt _ _ _ _ _ _ = _
      rw [setAt, if_neg]
      · rfl
      · intro hk
        rw [hkey] at hk
        have hid := uploadKey_injective hk.2
        exact ha (hra.symm.trans ((hK _ hdrawn).2.1 r hr hid))
  | @reported text status =>
      obtain ⟨row, hrow, hparse⟩ := hallow
      refine ⟨.refl t _, fun a ha => ?_⟩
      refine dataOf_congr ha (.refl t _) rfl ?_ fun _ _ _ => rfl
      intro r hr hra
      show (if r.id.str = text then _ else _) = _
      rw [if_neg]
      rintro rfl
      rw [UUID.parse_str, Option.some.injEq] at hparse
      exact ha (hra.symm.trans ((hK _ hrow).candidate_row hr hparse))

/-- What an event teaches an entitled operation is about its tenant. -/
theorem mine_learned (hs : Sound env w) (he : Entitled env σ t w) {e : Act}
    {a : e.Ans} (hallow : Allows σ K env e) (hadm : admits w e a = true) :
    ∀ x ∈ learned ⟨e, (perform env e a w).1⟩,
      Mine t (perform env e a w).2 x := by
  intro x hx
  generalize hr : (perform env e a w).1 = r at hx
  cases e with
  | uuid4 =>
      cases hr
      rw [List.mem_singleton.mp hx]
      have hfresh : (a : UUID) ∉ w.usedIds := by simpa [admits] using hadm
      refine ⟨List.mem_cons_self .., fun r hr hid => ?_, fun j hj hid => ?_,
        fun s hs' hid => ?_⟩
      · exact absurd (hid ▸ (hs.rows.candidates r hr).1) hfresh
      · exact absurd (hid ▸ (hs.rows.jobs j hj).1) hfresh
      · exact absurd (hid ▸ (hs.rows.subscriptions s hs').1) hfresh
  | createRazorpaySubscription p =>
      cases a with
      | error msg =>
          cases hr
          cases hx
      | ok response =>
          cases hr
          rw [List.mem_singleton.mp hx]
          have hfresh : response.id ∉ w.usedSubscriptionIds := by
            simpa [admits] using hadm
          refine ⟨List.mem_cons_self .., fun s hs' hid => ?_⟩
          exact absurd (hid ▸ (hs.rows.subscriptions s hs').2) hfresh
  | selectCandidate t' c =>
      rcases r with x | _ | row
      · cases hx
      · cases hx
      · rw [List.mem_singleton.mp hx]
        obtain ⟨hrow, -, ht⟩ := selectCandidate_ok hr
        rw [he.tenants t' hallow] at ht
        refine ⟨ht, row, ?_, rfl, ht⟩
        rw [show (perform env (.selectCandidate t' c) a w).2 = w from
          read_snd _ _]
        exact hrow
  | selectJob t' j =>
      rcases r with x | _ | row
      · cases hx
      · cases hx
      · rw [List.mem_singleton.mp hx]
        have hfind := Table.find?_mem (read_ok (α := Option Job) hr).symm
        simp only [Bool.and_eq_true, beq_iff_eq] at hfind
        refine ⟨hfind.2.2.trans (he.tenants t' hallow), ?_⟩
        rw [show (perform env (.selectJob t' j) a w).2 = w from read_snd _ _]
        exact hfind.1
  | selectSubscription t' =>
      rcases r with x | _ | row
      · cases hx
      · cases hx
      · rw [List.mem_singleton.mp hx]
        have hfind := Table.find?_mem
          (read_ok (α := Option Subscription) hr).symm
        simp only [beq_iff_eq] at hfind
        have ht : row.tenantId = t := hfind.2.trans (he.tenants t' hallow)
        refine ⟨ht, row, ?_, rfl, ht⟩
        rw [show (perform env (.selectSubscription t') a w).2 = w from
          read_snd _ _]
        exact hfind.1
  | commit pending =>
      cases r with
      | error x =>
          rw [List.mem_singleton.mp hx]
          trivial
      | ok v =>
          rcases List.mem_cons.mp hx with rfl | hx
          · trivial
          · rw [List.mem_singleton.mp hx]
            trivial
  | selectSubscriptionByRazorpayId rid =>
      rcases r with x | _ | row
      · cases hx
      · rw [List.mem_singleton.mp hx]
        trivial
      · rw [List.mem_singleton.mp hx]
        have hfind := Table.find?_mem
          (read_ok (α := Option Subscription) hr).symm
        simp only [beq_iff_eq] at hfind
        have ht : row.tenantId = t := by
          refine he.accounts row hfind.1 ?_
          rw [hfind.2]
          exact hallow
        refine ⟨ht, row, ?_, rfl, ht⟩
        rw [show (perform env (.selectSubscriptionByRazorpayId rid) a w).2 = w
          from read_snd _ _]
        exact hfind.1
  | getPlan p =>
      rcases r with x | _ | row
      · cases hx
      · cases hx
      · rw [List.mem_singleton.mp hx]
        have hfind := Table.find?_mem (read_ok (α := Option Plan) hr).symm
        show row ∈ (perform env (.getPlan p) a w).2.db.plans.rows
        rw [show (perform env (.getPlan p) a w).2 = w from read_snd _ _]
        exact hfind.1
  | _ => cases hx

/-- What an entitled operation keeps true while it runs. -/
structure Running (env : Env) (σ : Scope) (t : UUID) (K : List Fact)
    (w : World) : Prop where
  sound : Sound env w
  entitled : Entitled env σ t w
  mine : ∀ f ∈ K, Mine t w f

theorem Running.act (h : Running env σ t K w) {e : Act} {a : e.Ans}
    (hadm : admits w e a = true) (hallow : Allows σ K env e) :
    Running env σ t (learned ⟨e, (perform env e a w).1⟩ ++ K)
      (perform env e a w).2 := by
  have htouch := touched env hadm
  have hrows := (other_step h.entitled h.mine hallow htouch).1
  refine ⟨h.sound.act (fun f hf => (h.mine f hf).known) hallow htouch,
    h.entitled.step htouch.grows hrows, fun f hf => ?_⟩
  rcases List.mem_append.mp hf with hf | hf
  · exact mine_learned h.sound h.entitled hallow hadm f hf
  · exact (h.mine f hf).step htouch.grows hrows

/-- An operation run for one tenant leaves every other tenant's data, and
so does every prefix of its run. -/
theorem others_unchanged {α : Type} {p : Py α} {O : Oracle (machine env)}
    (hp : Within env σ [] p) (hs : Sound env w) (he : Entitled env σ t w)
    (hadm : p.Admitted O 0 w) (ha : a ≠ t) :
    dataOf env (p.run O 0 w).2 a = dataOf env w a := by
  refine (Prog.Follows.run_invariant
    (I := fun K w' => Running env σ t K w' ∧ dataOf env w' a = dataOf env w a)
    (T := fun w' => dataOf env w' a = dataOf env w a) ?_ (fun _ _ h => h.2)
    hp hadm ⟨⟨hs, he, fun f hf => nomatch hf⟩, rfl⟩).1
  intro K e ans w' K' hI hadm' hm
  obtain ⟨hallow, rfl⟩ := hm
  obtain ⟨hrun, hdata⟩ := hI
  refine ⟨hrun.act hadm' hallow, ?_⟩
  have htouch := touched env hadm'
  exact ((other_step hrun.entitled hrun.mine hallow htouch).2 a ha).trans hdata

end ResumeScreening.Tenancy
