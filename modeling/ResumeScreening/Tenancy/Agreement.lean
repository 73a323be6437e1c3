/-
What an operation run for one tenant can tell apart: nothing but that
tenant's data and the plan catalogue.

The two runs of `Prog.Follows.run_agree` are kept in step by `InStep`:
the tenant's rows, vectors, statuses and files agree, and so does
whatever is stored under an identifier the operation has drawn. Every
allowed read is a lookup among the tenant's rows (`reply_agree`). A
statement is accepted in both worlds or in neither (`write_agree`),
because the unique constraints it could violate against another
tenant's row compare identifiers that are the tenant's own or fresh.
-/
import ResumeScreening.Tenancy.Others

namespace ResumeScreening.Tenancy

open Effect Pipeline Relational

variable {env : Env} {σ : Scope} {K : List Fact} {w w' w₁ w₂ : World}
  {db db' db₁ db₂ : Db} {t : UUID}

-- ================================================================= agreement

/-- The rows a tenant sees are the same in both databases. -/
structure RowsAgree (t : UUID) (db₁ db₂ : Db) : Prop where
  candidates : (db₁.candidates.select fun r => r.tenantId == t)
    = db₂.candidates.select fun r => r.tenantId == t
  jobs : (db₁.jobs.select fun j => j.tenantId == t)
    = db₂.jobs.select fun j => j.tenantId == t
  subscriptions : (db₁.subscriptions.select fun s => s.tenantId == t)
    = db₂.subscriptions.select fun s => s.tenantId == t
  matchResults : matchesOf db₁ t = matchesOf db₂ t
  plans : db₁.plans.rows = db₂.plans.rows

/-- What is stored under an identifier is the same in both worlds. -/
def SameUnder (env : Env) (w₁ w₂ : World) (id : UUID) : Prop :=
  w₁.dynamo id.str = w₂.dynamo id.str ∧ fileOf env w₁ id = fileOf env w₂ id

/-- Two worlds an operation of the tenant cannot tell apart, given what
it has learned. -/
structure InStep (env : Env) (t : UUID) (K : List Fact) (w₁ w₂ : World) :
    Prop where
  rows : RowsAgree t w₁.db w₂.db
  vectors : w₁.pinecone t.str = w₂.pinecone t.str
  under : ∀ r ∈ w₁.db.candidates.rows, r.tenantId = t →
    SameUnder env w₁ w₂ r.id
  drawn : ∀ id, .drawn id ∈ K → SameUnder env w₁ w₂ id

/-- Two worlds with the same data of a tenant and the same plans. -/
theorem inStep_of_data (hdata : dataOf env w₁ t = dataOf env w₂ t)
    (hplans : w₁.db.plans.rows = w₂.db.plans.rows) :
    InStep env t [] w₁ w₂ := by
  unfold dataOf at hdata
  rw [TenantData.mk.injEq] at hdata
  obtain ⟨hc, hj, hs, hm, hv, hst, hf⟩ := hdata
  rw [hc] at hst hf
  refine ⟨⟨hc, hj, hs, hm, hplans⟩, hv, fun r hr ht => ?_,
    fun id h => nomatch h⟩
  have hmem : r ∈ w₂.db.candidates.select fun r => r.tenantId == t := by
    rw [← hc]
    exact Table.mem_select.mpr ⟨hr, by simp [ht]⟩
  exact ⟨List.map_inj_left.mp hst r hmem, List.map_inj_left.mp hf r hmem⟩

theorem InStep.data (h : InStep env t K w₁ w₂) :
    dataOf env w₁ t = dataOf env w₂ t := by
  have hmine : ∀ r ∈ w₁.db.candidates.select fun r => r.tenantId == t,
      SameUnder env w₁ w₂ r.id := by
    intro r hr
    obtain ⟨hmem, ht⟩ := Table.mem_select.mp hr
    exact h.under r hmem (by simpa using ht)
  unfold dataOf
  rw [← h.rows.candidates, h.rows.jobs, h.rows.subscriptions,
    h.rows.matchResults, h.vectors]
  congr 1
  · exact List.map_congr_left fun r hr => (hmine r hr).1
  · exact List.map_congr_left fun r hr => (hmine r hr).2

-- ============================================================= one statement

/-- Ids made from distinct identifiers do not clash. -/
theorem sameUnique_apart {f : String → String} {a b : UUID}
    {x y : Option String} (hf : f a.str = f b.str → a = b)
    (hx : x = none ∨ x = some (f a.str)) (hy : y = none ∨ y = some (f b.str))
    (hne : a ≠ b) : sameUnique x y = false := by
  unfold sameUnique
  rcases hx with rfl | rfl
  · rfl
  · rcases hy with rfl | rfl
    · rfl
    · simpa using fun h => hne (hf h)

/-- A row of another tenant does not clash with one whose identifier is
not its own. -/
theorem candidate_apart (h : SoundRows w.usedIds w.usedSubscriptionIds db)
    {r : Candidate} (hr : r ∈ db.candidates.rows) {row : Candidate}
    (hid : r.id ≠ row.id) (hrow : row.pineconeId = none
      ∨ row.pineconeId = some (candidateVectorId row.id.str)) :
    candidateSchema.clash r row = false := by
  have hvector : sameUnique r.pineconeId row.pineconeId = false :=
    sameUnique_apart candidateVectorId_injective (h.candidates r hr).2 hrow hid
  simp [candidateSchema, hid, hvector]

theorem job_apart (h : SoundRows w.usedIds w.usedSubscriptionIds db)
    {j : Job} (hj : j ∈ db.jobs.rows) {row : Job} (hid : j.id ≠ row.id)
    (hrow : row.pineconeId = none
      ∨ row.pineconeId = some (jobVectorId row.id.str)) :
    jobSchema.clash j row = false := by
  have hvector : sameUnique j.pineconeId row.pineconeId = false :=
    sameUnique_apart jobVectorId_injective (h.jobs j hj).2 hrow hid
  simp [jobSchema, hid, hvector]

/-- What an operation needs of one of its two databases. -/
abbrev RunningOn (env : Env) (σ : Scope) (t : UUID) (K : List Fact)
    (w : World) (db : Db) : Prop := Running env σ t K { w with db := db }

theorem RunningOn.write (h : RunningOn env σ t K w db) {x : Write}
    (hx : AllowsWrite σ K x) (hw : db.write x = some db') :
    RunningOn env σ t K w db' := by
  have hall : ∀ y ∈ [x], AllowsWrite σ K y := fun y hy => by
    rw [List.mem_singleton.mp hy]
    exact hx
  have hone : db.writeAll [x] = some db' := by rw [writeAll_one, hw]
  have hgrow : WorldGrows { w with db := db } { w with db := db' } :=
    ⟨write_grows hw, List.Subset.refl _, List.Subset.refl _⟩
  have hrows := other_write h.entitled h.mine hx hw
  refine ⟨h.sound.act (e := .commit [x]) (r := .ok ())
      (fun f hf => (h.mine f hf).known) hall (.committed hone),
    h.entitled.step hgrow hrows, fun f hf => (h.mine f hf).step hgrow hrows⟩

/-- The update of a candidate row clashes with no other tenant's row. -/
theorem candidate_update_apart (h : RunningOn env σ t K w db) {id : UUID}
    {set : CandidatePatch} (hx : AllowsWrite σ K (.updateCandidate id set)) :
    (∀ r ∈ db.candidates.rows, (r.id == id) = true →
        (r.tenantId == t) = true)
      ∧ ∀ a ∈ db.candidates.rows, (a.tenantId == t) = false →
        ∀ b ∈ db.candidates.rows, (b.id == id) = true →
          candidateSchema.clash a (set.apply b) = false := by
  obtain ⟨⟨row, hrow, hid⟩, hset⟩ := hx
  have hmine : ∀ r ∈ db.candidates.rows, (r.id == id) = true →
      (r.tenantId == t) = true := by
    intro r hr hrid
    have hrid' : r.id = row.id := by
      rw [hid]
      simpa using hrid
    simpa using (h.mine _ hrow).candidate_row hr hrid'
  refine ⟨hmine, fun a ha hat b hb hbid => ?_⟩
  have hbt := hmine b hb hbid
  have hne : a.id ≠ b.id := by
    intro heq
    rw [candidate_unique ha hb heq, hbt] at hat
    cases hat
  refine candidate_apart h.sound.rows ha hne ?_
  show (set.apply b).pineconeId = none
    ∨ (set.apply b).pineconeId = some (candidateVectorId b.id.str)
  rcases hset with hset | hset
  · have hkeep : (set.apply b).pineconeId = b.pineconeId := by
      simp [CandidatePatch.apply, hset]
    rw [hkeep]
    exact (h.sound.rows.candidates b hb).2
  · refine .inr ?_
    have hbid' : b.id = id := by simpa using hbid
    simp [CandidatePatch.apply, hset, hbid']

/-- The same of a subscription row. -/
theorem subscription_update_apart (h : RunningOn env σ t K w db) {id : UUID}
    {set : SubscriptionPatch}
    (hx : AllowsWrite σ K (.updateSubscription id set)) :
    (∀ s ∈ db.subscriptions.rows, (s.id == id) = true →
        (s.tenantId == t) = true)
      ∧ ∀ a ∈ db.subscriptions.rows, (a.tenantId == t) = false →
        ∀ b ∈ db.subscriptions.rows, (b.id == id) = true →
          subscriptionSchema.clash a (set.apply b) = false := by
  obtain ⟨row, hrow, hid, hset⟩ := hx
  have hmine : ∀ s ∈ db.subscriptions.rows, (s.id == id) = true →
      (s.tenantId == t) = true := by
    intro s hs hsid
    have hsid' : s.id = row.id := by
      rw [hid]
      simpa using hsid
    simpa using (h.mine _ hrow).subscription_row hs hsid'
  refine ⟨hmine, fun a ha hat b hb hbid => ?_⟩
  have hbt : b.tenantId = t := by simpa using hmine b hb hbid
  have hat' : a.tenantId ≠ t := by simpa using hat
  have hnot : ∀ f, subscriptionSchema.clash a b = true → f := fun f hc => by
    have hsame := db.subscriptions.eq_of_clash ha hb hc
    rw [hsame] at hat'
    exact absurd hbt hat'
  have hid' : a.id ≠ b.id := fun heq =>
    hnot False (by simp [subscriptionSchema, heq])
  have hrid : a.razorpaySubscriptionId ≠ (set.apply b).razorpaySubscriptionId := by
    rcases hset.razorpayId b with heq | ⟨p, response, hissued, heq⟩
    · rw [heq]
      exact fun hsame => hnot False (by simp [subscriptionSchema, hsame])
    · rw [heq]
      exact fun hsame => hat' ((h.mine _ hissued).2 a ha hsame)
  have hset' : (set.apply b).id = b.id ∧ (set.apply b).tenantId = b.tenantId :=
    ⟨rfl, rfl⟩
  simp [subscriptionSchema, hset'.1, hset'.2, hid', hrid, hbt, hat']

/-- No stored match is of a job that is not there. -/
theorem matchesOf_insertJob (h : SoundRows w.usedIds w.usedSubscriptionIds db)
    {row : Job} {tab : Table jobSchema}
    (htab : db.jobs.insert? row = some tab) :
    matchesOf { db with jobs := tab } t = matchesOf db t := by
  refine matchesOf_congr rfl fun m hm => ?_
  constructor
  · intro hj
    obtain ⟨j, hj, hid, ht⟩ := hj
    rcases (Table.mem_insert? htab).mp hj with hj | rfl
    · exact ⟨j, hj, hid, ht⟩
    · obtain ⟨j', hj', -, -, hmj, -, -⟩ := h.joined m hm
      have hclash := (Table.insert?_valid htab).2 j' hj'
      simp [jobSchema, ← hmj, hid] at hclash
  · intro hj
    obtain ⟨j, hj, hid, ht⟩ := hj
    exact ⟨j, (Table.mem_insert? htab).mpr (.inl hj), hid, ht⟩

/-- A statement that agrees on its table agrees on the database. -/
theorem agree_map {α : Type} {x y : Option α} {f g : α → Db}
    {P : α → α → Prop}
    (h : (x = none ∧ y = none) ∨ ∃ a b, x = some a ∧ y = some b ∧ P a b)
    (hfg : ∀ a b, x = some a → y = some b → P a b →
      RowsAgree t (f a) (g b)) :
    (x.map f = none ∧ y.map g = none)
      ∨ ∃ db₁ db₂, x.map f = some db₁ ∧ y.map g = some db₂
        ∧ RowsAgree t db₁ db₂ := by
  rcases h with ⟨rfl, rfl⟩ | ⟨a, b, rfl, rfl, hab⟩
  · exact .inl ⟨rfl, rfl⟩
  · exact .inr ⟨_, _, rfl, rfl, hfg a b rfl rfl hab⟩

/-- One allowed statement is accepted in both databases, or in neither. -/
theorem write_agree {x : Write} (h₁ : RunningOn env σ t K w₁ db₁)
    (h₂ : RunningOn env σ t K w₂ db₂) (ha : RowsAgree t db₁ db₂)
    (hx : AllowsWrite σ K x) :
    (db₁.write x = none ∧ db₂.write x = none)
      ∨ ∃ db₁' db₂', db₁.write x = some db₁' ∧ db₂.write x = some db₂'
        ∧ RowsAgree t db₁' db₂' := by
  cases x with
  | insertCandidate row =>
      have hclash : ∀ {w : World} {db : Db}, RunningOn env σ t K w db →
          ∀ r ∈ db.candidates.rows, (r.tenantId == t) = false →
            candidateSchema.clash r row = false := by
        intro w db h r hr hrt
        refine candidate_apart h.sound.rows hr (fun hid => ?_) hx.2.2
        simp [(h.mine _ hx.1).2.1 r hr hid] at hrt
      exact agree_map
        (Table.insert?_agree ha.candidates (hclash h₁) (hclash h₂))
        fun tab₁ tab₂ _ _ hview => { ha with candidates := hview }
  | updateCandidate id set =>
      obtain ⟨hp₁, hc₁⟩ := candidate_update_apart h₁ hx
      obtain ⟨hp₂, hc₂⟩ := candidate_update_apart h₂ hx
      have hkeep : ∀ r, ((set.apply r).tenantId == t) = (r.tenantId == t) :=
        fun _ => rfl
      exact agree_map
        (Table.update?_agree ha.candidates hkeep hp₁ hp₂ hc₁ hc₂)
        fun tab₁ tab₂ _ _ hview => { ha with candidates := hview }
  | insertJob row =>
      have hclash : ∀ {w : World} {db : Db}, RunningOn env σ t K w db →
          ∀ j ∈ db.jobs.rows, (j.tenantId == t) = false →
            jobSchema.clash j row = false := by
        intro w db h j hj hjt
        refine job_apart h.sound.rows hj (fun hid => ?_) hx.2.2
        simp [(h.mine _ hx.1).2.2.1 j hj hid] at hjt
      refine agree_map (Table.insert?_agree ha.jobs (hclash h₁) (hclash h₂))
        fun tab₁ tab₂ hs₁ hs₂ hview =>
          { ha with jobs := hview, matchResults := ?_ }
      rw [matchesOf_insertJob h₁.sound.rows hs₁,
        matchesOf_insertJob h₂.sound.rows hs₂, ha.matchResults]
  | insertPlan row => exact absurd hx h₁.entitled.shared
  | insertSubscription row =>
      obtain ⟨hid, ht, -, plan, response, -, -, hissued, hrow⟩ := hx
      have hrt : row.tenantId = t := h₁.entitled.tenants _ ht
      have hrid : row.razorpaySubscriptionId = response.id := by rw [hrow]; rfl
      have hclash : ∀ {w : World} {db : Db}, RunningOn env σ t K w db →
          ∀ s ∈ db.subscriptions.rows, (s.tenantId == t) = false →
            subscriptionSchema.clash s row = false := by
        intro w db h s hs hst
        have hst' : s.tenantId ≠ t := by simpa using hst
        have hne : s.id ≠ row.id := fun heq =>
          hst' ((h.mine _ hid).2.2.2 s hs heq)
        have hne' : s.razorpaySubscriptionId ≠ response.id := fun heq =>
          hst' ((h.mine _ hissued).2 s hs heq)
        simp [subscriptionSchema, hne, hrid, hne', hrt, hst']
      exact agree_map
        (Table.insert?_agree ha.subscriptions (hclash h₁) (hclash h₂))
        fun tab₁ tab₂ _ _ hview => { ha with subscriptions := hview }
  | updateSubscription id set =>
      obtain ⟨hp₁, hc₁⟩ := subscription_update_apart h₁ hx
      obtain ⟨hp₂, hc₂⟩ := subscription_update_apart h₂ hx
      have hkeep : ∀ s, ((set.apply s).tenantId == t) = (s.tenantId == t) :=
        fun _ => rfl
      exact agree_map
        (Table.update?_agree ha.subscriptions hkeep hp₁ hp₂ hc₁ hc₂)
        fun tab₁ tab₂ _ _ hview => { ha with subscriptions := hview }
  | insertMatchResult m =>
      have hshown : ∀ {w : World} {db : Db}, RunningOn env σ t K w db →
          (db.jobs.rows.any fun j => j.id == m.jobId && j.tenantId == t)
            = true := by
        intro w db h
        obtain ⟨job, row, hjob, -, hmj, -, -⟩ := hx
        obtain ⟨hjt, hjmem⟩ := h.mine _ hjob
        exact List.any_eq_true.mpr ⟨job, hjmem, by simp [hmj, hjt]⟩
      by_cases hst : storable m.explanation = true
      · refine .inr ⟨_, _, if_pos hst, if_pos hst, { ha with
          matchResults := ?_ }⟩
        have hmatch := ha.matchResults
        unfold matchesOf at hmatch ⊢
        rw [List.filter_append, List.filter_append, hmatch]
        simp [hshown h₁, hshown h₂]
      · exact .inl ⟨if_neg hst, if_neg hst⟩

theorem writeAll_agree {pending : List Write} :
    ∀ {db₁ db₂ : Db}, RunningOn env σ t K w₁ db₁ →
      RunningOn env σ t K w₂ db₂ → RowsAgree t db₁ db₂ →
      (∀ x ∈ pending, AllowsWrite σ K x) →
      (db₁.writeAll pending = none ∧ db₂.writeAll pending = none)
        ∨ ∃ db₁' db₂', db₁.writeAll pending = some db₁'
          ∧ db₂.writeAll pending = some db₂' ∧ RowsAgree t db₁' db₂' := by
  induction pending with
  | nil => exact fun _ _ ha _ => .inr ⟨_, _, rfl, rfl, ha⟩
  | cons x xs ih =>
      intro db₁ db₂ h₁ h₂ ha hall
      have hx := hall x (List.mem_cons_self ..)
      rcases write_agree h₁ h₂ ha hx with ⟨hn₁, hn₂⟩ | ⟨db₁', db₂', hs₁, hs₂, ha'⟩
      · exact .inl ⟨by rw [Db.writeAll, hn₁], by rw [Db.writeAll, hn₂]⟩
      · rw [Db.writeAll, Db.writeAll, hs₁, hs₂]
        exact ih (h₁.write hx hs₁) (h₂.write hx hs₂) ha'
          fun y hy => hall y (List.mem_cons_of_mem x hy)

/-- Where a candidate row comes from: an identifier the operation drew, or
a row that was there. -/
theorem candidates_from {pending : List Write} :
    ∀ {db db' : Db}, (∀ x ∈ pending, AllowsWrite σ K x) →
      db.writeAll pending = some db' → ∀ r ∈ db'.candidates.rows,
      (∃ r₀ ∈ db.candidates.rows, r₀.id = r.id ∧ r₀.tenantId = r.tenantId)
        ∨ .drawn r.id ∈ K := by
  induction pending with
  | nil =>
      intro db db' _ hw r hr
      cases hw
      exact .inl ⟨r, hr, rfl, rfl⟩
  | cons x xs ih =>
      intro db db' hall hw r hr
      unfold Db.writeAll at hw
      cases hx : db.write x with
      | none => simp [hx] at hw
      | some db₁ =>
          simp only [hx] at hw
          rcases ih (fun y hy => hall y (List.mem_cons_of_mem x hy)) hw r hr
            with ⟨r₁, hr₁, hid, ht⟩ | hdrawn
          · have hallow := hall x (List.mem_cons_self ..)
            cases x with
            | insertCandidate row =>
                obtain ⟨tab, htab, rfl⟩ := write_insertCandidate hx
                rcases (Table.mem_insert? htab).mp hr₁ with hr₁ | rfl
                · exact .inl ⟨r₁, hr₁, hid, ht⟩
                · exact .inr (hid ▸ hallow.1)
            | updateCandidate id set =>
                obtain ⟨tab, htab, rfl⟩ := write_updateCandidate hx
                obtain ⟨r₀, hr₀, rfl⟩ := (Table.mem_update? htab).mp hr₁
                refine .inl ⟨r₀, hr₀, ?_, ?_⟩
                · rw [← hid]
                  split <;> rfl
                · rw [← ht]
                  split <;> rfl
            | insertJob row =>
                obtain ⟨tab, htab, rfl⟩ := write_insertJob hx
                exact .inl ⟨r₁, hr₁, hid, ht⟩
            | insertPlan row =>
                rw [(write_elsewhere rfl hx).1] at hr₁
                exact .inl ⟨r₁, hr₁, hid, ht⟩
            | insertSubscription row =>
                rw [(write_elsewhere rfl hx).1] at hr₁
                exact .inl ⟨r₁, hr₁, hid, ht⟩
            | updateSubscription id set =>
                rw [(write_elsewhere rfl hx).1] at hr₁
                exact .inl ⟨r₁, hr₁, hid, ht⟩
            | insertMatchResult m =>
                rw [(write_elsewhere rfl hx).1] at hr₁
                exact .inl ⟨r₁, hr₁, hid, ht⟩
          · exact .inr hdrawn

-- ================================================================ one action

theorem read_agree {α : Type} {v₁ v₂ : α} (a : Except String Unit)
    (h : v₁ = v₂) : (w₁.read a v₁).1 = (w₂.read a v₂).1 := by
  rw [h]
  cases a <;> rfl

theorem readOr_agree {α : Type} {v₁ v₂ : Option α} (a : Except String Unit)
    (h : v₁ = v₂) : (w₁.readOr a v₁).1 = (w₂.readOr a v₂).1 := by
  rw [h]
  cases a <;> cases v₂ <;> rfl

theorem write_reply_agree {w₁' w₂' : World} (a : Fate) :
    (w₁.write w₁' a).1 = (w₂.write w₂' a).1 := by
  cases a <;> rfl

/-- A lookup of tenant rows finds the same in two tables with one view. -/
theorem find_agree {ρ : Type} {schema : Schema ρ} {tenant : ρ → UUID}
    {tab₁ tab₂ : Table schema} {p : ρ → Bool}
    (h : (tab₁.select fun r => tenant r == t)
      = tab₂.select fun r => tenant r == t)
    (h₁ : ∀ r ∈ tab₁.rows, p r = true → tenant r = t)
    (h₂ : ∀ r ∈ tab₂.rows, p r = true → tenant r = t) :
    tab₁.find? p = tab₂.find? p := by
  rw [Table.find?_select (q := fun r => tenant r == t)
      fun r hr hp => by simpa using h₁ r hr hp,
    Table.find?_select (q := fun r => tenant r == t)
      fun r hr hp => by simpa using h₂ r hr hp, h]

/-- A commit is accepted in both worlds or in neither. -/
theorem commit_agree {pending : List Write} (h₁ : Running env σ t K w₁)
    (h₂ : Running env σ t K w₂) (h : InStep env t K w₁ w₂)
    (hall : ∀ x ∈ pending, AllowsWrite σ K x) (a : Fate) :
    (w₁.commit pending a).1 = (w₂.commit pending a).1
      ∧ InStep env t K (w₁.commit pending a).2 (w₂.commit pending a).2 := by
  rcases writeAll_agree h₁ h₂ h.rows hall with ⟨hn₁, hn₂⟩ | ⟨db₁, db₂, hs₁, hs₂, hrows⟩
  · unfold World.commit
    rw [hn₁, hn₂]
    exact ⟨rfl, h⟩
  · have hnext : InStep env t K { w₁ with db := db₁ } { w₂ with db := db₂ } := by
      refine ⟨hrows, h.vectors, fun r hr ht => ?_, h.drawn⟩
      rcases candidates_from hall hs₁ r hr with ⟨r₀, hr₀, hid, ht₀⟩ | hdrawn
      · exact hid ▸ h.under r₀ hr₀ (ht₀.trans ht)
      · exact h.drawn _ hdrawn
    unfold World.commit
    rw [hs₁, hs₂]
    cases a with
    | ok => exact ⟨rfl, hnext⟩
    | failed msg => exact ⟨rfl, h⟩
    | lostReply msg => exact ⟨rfl, hnext⟩

/-- What an allowed action replies does not depend on the other tenants. -/
theorem reply_agree (h₁ : Running env σ t K w₁) (h₂ : Running env σ t K w₂)
    (h : InStep env t K w₁ w₂) {e : Act} {a : e.Ans}
    (hallow : Allows σ K env e) :
    (perform env e a w₁).1 = (perform env e a w₂).1 := by
  cases e with
  | selectCandidate t' c =>
      have ht : t' = t := h₁.entitled.tenants t' hallow
      refine read_agree a (find_agree h.rows.candidates ?_ ?_) <;>
        · intro r _ hr
          simp only [Bool.and_eq_true, beq_iff_eq] at hr
          exact hr.2.trans ht
  | selectCandidates t' =>
      obtain rfl : t' = t := h₁.entitled.tenants t' hallow
      exact read_agree a (congrArg _ h.rows.candidates)
  | selectJob t' j =>
      have ht : t' = t := h₁.entitled.tenants t' hallow
      refine read_agree a (find_agree h.rows.jobs ?_ ?_) <;>
        · intro r _ hr
          simp only [Bool.and_eq_true, beq_iff_eq] at hr
          exact hr.2.trans ht
  | selectJobs t' =>
      obtain rfl : t' = t := h₁.entitled.tenants t' hallow
      exact read_agree a (congrArg _ h.rows.jobs)
  | selectSubscription t' =>
      have ht : t' = t := h₁.entitled.tenants t' hallow
      refine read_agree a (find_agree h.rows.subscriptions ?_ ?_) <;>
        · intro r _ hr
          simp only [beq_iff_eq] at hr
          exact hr.trans ht
  | selectSubscriptionByRazorpayId rid =>
      have hacc : ∀ s : Subscription, (s.razorpaySubscriptionId == rid) = true →
          σ.accounts s.razorpaySubscriptionId := by
        intro s hs
        simp only [beq_iff_eq] at hs
        rw [hs]
        exact hallow
      exact read_agree a (find_agree h.rows.subscriptions
        (fun s hs hp => h₁.entitled.accounts s hs (hacc s hp))
        fun s hs hp => h₂.entitled.accounts s hs (hacc s hp))
  | getPlan p =>
      refine read_agree a ?_
      unfold Table.find?
      rw [h.rows.plans]
  | countCandidates t' since =>
      obtain rfl : t' = t := h₁.entitled.tenants t' hallow
      refine read_agree a ?_
      rw [Table.count_select (q := fun r => r.tenantId == t')
          fun r _ hp => (Bool.and_eq_true _ _ ▸ hp).1,
        Table.count_select (q := fun r => r.tenantId == t')
          fun r _ hp => (Bool.and_eq_true _ _ ▸ hp).1, h.rows.candidates]
  | flush pending => exact (commit_agree h₁ h₂ h hallow a).1
  | commit pending => exact (commit_agree h₁ h₂ h hallow a).1
  | refreshCandidate id =>
      have hmine : ∀ {w : World}, Running env σ t K w →
          ∀ r ∈ w.db.candidates.rows, (r.id == id) = true → r.tenantId = t := by
        intro w hw r hr hrid
        simp only [beq_iff_eq] at hrid
        rcases hallow with hdrawn | ⟨row, hrow, hid⟩
        · exact (hw.mine _ hdrawn).2.1 r hr hrid
        · exact (hw.mine _ hrow).candidate_row hr (hrid.trans hid.symm)
      exact readOr_agree a (find_agree h.rows.candidates (hmine h₁) (hmine h₂))
  | refreshJob id =>
      have hmine : ∀ {w : World}, Running env σ t K w →
          ∀ j ∈ w.db.jobs.rows, (j.id == id) = true → j.tenantId = t := by
        intro w hw j hj hjid
        simp only [beq_iff_eq] at hjid
        exact (hw.mine _ hallow).2.2.1 j hj hjid
      exact readOr_agree a (find_agree h.rows.jobs (hmine h₁) (hmine h₂))
  | refreshSubscription id =>
      have hmine : ∀ {w : World}, Running env σ t K w →
          ∀ s ∈ w.db.subscriptions.rows, (s.id == id) = true →
            s.tenantId = t := by
        intro w hw s hs hsid
        simp only [beq_iff_eq] at hsid
        rcases hallow with hdrawn | ⟨row, hrow, hid⟩
        · exact (hw.mine _ hdrawn).2.2.2 s hs hsid
        · exact (hw.mine _ hrow).subscription_row hs (hsid.trans hid.symm)
      exact readOr_agree a
        (find_agree h.rows.subscriptions (hmine h₁) (hmine h₂))
  | getObject bucket key =>
      obtain ⟨rfl, c, rfl, r, hr, hid, ht⟩ := h₁.entitled.files bucket key hallow
      exact readOr_agree a (hid ▸ (h.under r hr ht).2)
  | receiveMessage => exact absurd hallow h₁.entitled.shared
  | embedQuery text => exact read_agree a rfl
  | upsert ns v => exact write_reply_agree a
  | putObject bucket key body => exact write_reply_agree a
  | sendMessage body => exact write_reply_agree a
  | deleteMessage handle => exact write_reply_agree a
  | updateItem text status => exact write_reply_agree a
  | transactionNow => cases (a : Except String Py.DateTime) <;> rfl
  | parseResume text =>
      cases (a : Except LibraryError ParsedResume) <;> rfl
  | explainMatch prompt =>
      cases (a : Except LibraryError MatchExplanation) <;> rfl
  | query ns v k => cases (a : Except String (List QueryMatch)) <;> rfl
  | createRazorpaySubscription p =>
      cases (a : Except String RazorpayResponse) <;> rfl
  | uuid4 => rfl
  | utcNow => rfl
  | countOutcome o => rfl

/-- Only `uuid4` teaches of a drawn identifier. -/
theorem drawn_of_learned {e : Act} {r : Except Exn e.Ret} {id : UUID}
    (h : Fact.drawn id ∈ learned ⟨e, r⟩) :
    (⟨e, r⟩ : Event sig) = ⟨.uuid4, .ok id⟩ := by
  unfold learned at h
  split at h
  next id' _ heq =>
    cases List.mem_singleton.mp h
    exact heq
  all_goals simp at h

theorem InStep.same {w₁' w₂' : World} {K' : List Fact}
    (h : InStep env t K w₁ w₂) (hs₁ : SameStores w₁ w₁')
    (hs₂ : SameStores w₂ w₂') (hK : ∀ id, .drawn id ∈ K' → .drawn id ∈ K) :
    InStep env t K' w₁' w₂' := by
  have hunder : ∀ id, SameUnder env w₁ w₂ id → SameUnder env w₁' w₂' id := by
    intro id hid
    unfold SameUnder fileOf at hid ⊢
    rw [hs₁.dynamo, hs₂.dynamo, hs₁.s3, hs₂.s3]
    exact hid
  refine ⟨?_, ?_, fun r hr ht => ?_, fun id hid => ?_⟩
  · rw [hs₁.db, hs₂.db]
    exact h.rows
  · rw [hs₁.pinecone, hs₂.pinecone]
    exact h.vectors
  · rw [hs₁.db] at hr
    exact hunder _ (h.under r hr ht)
  · exact hunder _ (h.drawn id (hK id hid))

/-- Nothing is stored under an identifier nobody has drawn. -/
theorem Sound.blank (h : Sound env w) {u : UUID} (hu : u ∉ w.usedIds) :
    w.dynamo u.str = none ∧ fileOf env w u = none := by
  constructor
  · cases hd : w.dynamo u.str with
    | none => rfl
    | some status =>
        obtain ⟨r, hr, hparse⟩ := h.statuses _ status hd
        rw [UUID.parse_str, Option.some.injEq] at hparse
        exact absurd (hparse ▸ (h.rows.candidates r hr).1) hu
  · cases hf : fileOf env w u with
    | none => rfl
    | some b => exact absurd (h.files u b hf) hu

/-- Only a drawn identifier adds to what must agree. -/
theorem InStep.learn (h : InStep env t K w₁ w₂) {e : Act}
    {r : Except Exn e.Ret} (he : e ≠ .uuid4) :
    InStep env t (learned ⟨e, r⟩ ++ K) w₁ w₂ := by
  refine { h with drawn := fun id hid => ?_ }
  rcases List.mem_append.mp hid with hid | hid
  · have heq := drawn_of_learned hid
    simp only [Event.mk.injEq] at heq
    exact absurd heq.1 he
  · exact h.drawn id hid

/-- A write made in both worlds or in neither. -/
theorem InStep.write {w₁' w₂' : World} (h : InStep env t K w₁ w₂) (a : Fate)
    (h' : InStep env t K w₁' w₂') :
    InStep env t K (w₁.write w₁' a).2 (w₂.write w₂' a).2 := by
  rw [write_snd, write_snd]
  split
  · exact h'
  · exact h

theorem InStep.stored (h : InStep env t K w₁ w₂) (v : VectorRecord) :
    InStep env t K
      { w₁ with pinecone := setAt w₁.pinecone t.str v.id v }
      { w₂ with pinecone := setAt w₂.pinecone t.str v.id v } := by
  refine { h with vectors := ?_ }
  funext id
  simp only [setAt, h.vectors]

theorem InStep.put (h : InStep env t K w₁ w₂) (bucket key : String)
    (body : List UInt8) :
    InStep env t K { w₁ with s3 := setAt w₁.s3 bucket key body }
      { w₂ with s3 := setAt w₂.s3 bucket key body } := by
  have hunder : ∀ id, SameUnder env w₁ w₂ id →
      SameUnder env { w₁ with s3 := setAt w₁.s3 bucket key body }
        { w₂ with s3 := setAt w₂.s3 bucket key body } id := by
    intro id hid
    refine ⟨hid.1, ?_⟩
    have hfile : w₁.s3 env.s3BucketName (uploadKey id)
        = w₂.s3 env.s3BucketName (uploadKey id) := hid.2
    simp only [fileOf, setAt, hfile]
  exact { h with
    under := fun r hr ht => hunder _ (h.under r hr ht)
    drawn := fun id hid => hunder _ (h.drawn id hid) }

theorem InStep.reported (h : InStep env t K w₁ w₂) (text status : String) :
    InStep env t K
      { w₁ with dynamo := fun c =>
        if c = text then some status else w₁.dynamo c }
      { w₂ with dynamo := fun c =>
        if c = text then some status else w₂.dynamo c } := by
  have hunder : ∀ id, SameUnder env w₁ w₂ id →
      SameUnder env
        { w₁ with dynamo := fun c =>
          if c = text then some status else w₁.dynamo c }
        { w₂ with dynamo := fun c =>
          if c = text then some status else w₂.dynamo c } id := by
    intro id hid
    refine ⟨?_, hid.2⟩
    simp only [hid.1]
  exact { h with
    under := fun r hr ht => hunder _ (h.under r hr ht)
    drawn := fun id hid => hunder _ (h.drawn id hid) }

/-- One allowed action, answered alike, keeps the two worlds in step. -/
theorem InStep.act (h : InStep env t K w₁ w₂) (h₁ : Running env σ t K w₁)
    (h₂ : Running env σ t K w₂) {e : Act} {a : e.Ans}
    (hadm₁ : admits w₁ e a = true) (hadm₂ : admits w₂ e a = true)
    (hallow : Allows σ K env e) :
    InStep env t (learned ⟨e, (perform env e a w₁).1⟩ ++ K)
      (perform env e a w₁).2 (perform env e a w₂).2 := by
  by_cases hu : e = .uuid4
  · subst hu
    have hfresh₁ : (a : UUID) ∉ w₁.usedIds := by simpa [admits] using hadm₁
    have hfresh₂ : (a : UUID) ∉ w₂.usedIds := by simpa [admits] using hadm₂
    obtain ⟨hd₁, hf₁⟩ := h₁.sound.blank hfresh₁
    obtain ⟨hd₂, hf₂⟩ := h₂.sound.blank hfresh₂
    refine ⟨h.rows, h.vectors, h.under, fun id hid => ?_⟩
    rcases List.mem_cons.mp hid with heq | hid
    · cases heq
      exact ⟨hd₁.trans hd₂.symm, hf₁.trans hf₂.symm⟩
    · exact h.drawn id hid
  · refine InStep.learn ?_ hu
    by_cases hstill : still e = true
    · exact h.same (still_same hstill a w₁) (still_same hstill a w₂)
        fun _ hid => hid
    · cases e with
      | uuid4 => exact absurd rfl hu
      | createRazorpaySubscription p =>
          cases a with
          | ok r => exact ⟨h.rows, h.vectors, h.under, h.drawn⟩
          | error msg => exact h
      | commit pending => exact (commit_agree h₁ h₂ h hallow a).2
      | upsert ns v =>
          obtain ⟨t', ht', rfl⟩ := hallow
          rw [h₁.entitled.tenants t' ht']
          exact h.write a (h.stored v)
      | putObject bucket key body => exact h.write a (h.put bucket key body)
      | updateItem text status => exact h.write a (h.reported text status)
      | _ => exact absurd rfl hstill

/-- Two runs of one operation under one oracle, from worlds it cannot
tell apart, end alike in worlds it cannot tell apart. -/
theorem runs_agree {α : Type} {p : Py α} {O : Oracle (machine env)}
    (hp : Within env σ [] p) (hs₁ : Sound env w₁) (hs₂ : Sound env w₂)
    (he₁ : Entitled env σ t w₁) (he₂ : Entitled env σ t w₂)
    (h : InStep env t [] w₁ w₂) (hadm₁ : p.Admitted O 0 w₁)
    (hadm₂ : p.Admitted O 0 w₂) :
    (p.run O 0 w₁).1 = (p.run O 0 w₂).1
      ∧ ∃ K, InStep env t K (p.run O 0 w₁).2 (p.run O 0 w₂).2 := by
  have hstart₁ : Running env σ t [] w₁ := ⟨hs₁, he₁, fun f hf => nomatch hf⟩
  have hstart₂ : Running env σ t [] w₂ := ⟨hs₂, he₂, fun f hf => nomatch hf⟩
  refine And.imp_right ?_ (Prog.Follows.run_agree
    (J := fun K w₁ w₂ => Running env σ t K w₁ ∧ Running env σ t K w₂
      ∧ InStep env t K w₁ w₂) ?_ hp ⟨hstart₁, hstart₂, h⟩ hadm₁ hadm₂)
  · intro hends
    obtain ⟨K, -, -, hstep⟩ := hends
    exact ⟨K, hstep⟩
  · intro K e a w₁ w₂ hJ hadm₁ hadm₂ hmove
    obtain ⟨h₁, h₂, h⟩ := hJ
    obtain ⟨-, hallow, -⟩ := hmove
    have hreply : (perform env e a w₁).1 = (perform env e a w₂).1 :=
      reply_agree h₁ h₂ h hallow
    refine ⟨hreply, ?_⟩
    rintro K' ⟨-, rfl⟩
    refine ⟨h₁.act hadm₁ hallow, ?_, h.act h₁ h₂ hadm₁ hadm₂ hallow⟩
    have hrun := h₂.act hadm₂ hallow
    rw [← hreply] at hrun
    exact hrun

end ResumeScreening.Tenancy
