/-
What the discipline keeps of the stores, over every interleaving.

`Touched` says once what an action may do to the stores tenants share,
whoever performs it. `WorldGrows` is what every action keeps: rows stay, with
their identifier and tenant, and drawn identifiers stay drawn — so a
fact, once learned, stays true. Hence an allowed statement names rows
that are there, and `Sound` is kept: above all, a stored match joins a
job and a candidate of one tenant.
-/
import ResumeScreening.Tenancy.Obeys
import ResumeScreening.Pipeline.Core

namespace ResumeScreening.Tenancy

open Effect Pipeline

variable {env : Env} {σ : Scope} {K : List Fact} {w w' : World}

-- ============================================================== one action

/-- The same rows, vectors, files, statuses and identifiers. -/
structure SameStores (w w' : World) : Prop where
  db : w'.db = w.db
  pinecone : w'.pinecone = w.pinecone
  s3 : w'.s3 = w.s3
  dynamo : w'.dynamo = w.dynamo
  usedIds : w'.usedIds = w.usedIds
  usedSubscriptionIds : w'.usedSubscriptionIds = w.usedSubscriptionIds

theorem SameStores.refl (w : World) : SameStores w w :=
  ⟨rfl, rfl, rfl, rfl, rfl, rfl⟩

inductive Touched (env : Env) (w : World) : Event sig → World → Prop
  | nothing {e r w'} : SameStores w w' → Touched env w ⟨e, r⟩ w'
  | drew {u} : u ∉ w.usedIds →
      Touched env w ⟨.uuid4, .ok u⟩ { w with usedIds := u :: w.usedIds }
  | issued {p r} : r.id ∉ w.usedSubscriptionIds →
      Touched env w ⟨.createRazorpaySubscription p, .ok r⟩
        { w with usedSubscriptionIds := r.id :: w.usedSubscriptionIds }
  | committed {pending db r} : w.db.writeAll pending = some db →
      Touched env w ⟨.commit pending, r⟩ { w with db := db }
  | stored {ns v r} : Touched env w ⟨.upsert ns v, r⟩
      { w with pinecone := setAt w.pinecone ns v.id v }
  | put {bucket key body r} : Touched env w ⟨.putObject bucket key body, r⟩
      { w with s3 := setAt w.s3 bucket key body }
  | reported {text status r} : Touched env w ⟨.updateItem text status, r⟩
      { w with dynamo := fun c =>
        if c = text then some status else w.dynamo c }

/-- The actions that leave the stores alone, whatever their fate. -/
def still : Act → Bool
  | .uuid4 | .createRazorpaySubscription _ | .commit _ | .upsert ..
  | .putObject .. | .updateItem .. => false
  | _ => true

theorem still_same {e : Act} (h : still e = true) (a : e.Ans) (w : World) :
    SameStores w (perform env e a w).2 := by
  by_cases hinert : inert e = true
  · rw [inert_same hinert]
    exact .refl w
  have hwrite : ∀ {w'' : World} (x : Fate), SameStores w w'' →
      SameStores w (w.write w'' x).2 := fun x h =>
    write_ends (P := SameStores w) x h (.refl w)
  cases e with
  | countOutcome => exact ⟨rfl, rfl, rfl, rfl, rfl, rfl⟩
  | receiveMessage =>
      cases (a : Except String (List Nat)) <;>
        exact ⟨rfl, rfl, rfl, rfl, rfl, rfl⟩
  | sendMessage => exact hwrite a ⟨rfl, rfl, rfl, rfl, rfl, rfl⟩
  | deleteMessage => exact hwrite a ⟨rfl, rfl, rfl, rfl, rfl, rfl⟩
  | _ =>
      first
      | exact absurd rfl hinert
      | cases h

/-- What a performed action did to the stores. -/
theorem touched (env : Env) {e : Act} {a : e.Ans}
    (hadm : admits w e a = true) :
    Touched env w ⟨e, (perform env e a w).1⟩ (perform env e a w).2 := by
  cases e with
  | uuid4 => exact .drew (by simpa [admits] using hadm)
  | createRazorpaySubscription =>
      cases a with
      | ok r => exact .issued (by simpa [admits] using hadm)
      | error msg => exact .nothing (.refl w)
  | commit pending =>
      show Touched env w _ (w.commit pending a).2
      rcases commit_cases w pending a with ⟨hw, -⟩ | ⟨db, hdb, hw⟩
      · rw [hw]
        exact .nothing (.refl w)
      · rw [hw]
        exact .committed hdb
  | upsert ns v =>
      exact write_ends (P := Touched env w _) a .stored (.nothing (.refl w))
  | putObject bucket key body =>
      exact write_ends (P := Touched env w _) a .put (.nothing (.refl w))
  | updateItem text status =>
      exact write_ends (P := Touched env w _) a .reported (.nothing (.refl w))
  | _ => exact .nothing (still_same rfl a w)

/-- Only a commit changes rows. -/
theorem Touched.db {ev : Event sig} (h : Touched env w ev w')
    (he : ∀ pending, ev.act ≠ .commit pending) : w'.db = w.db := by
  cases h with
  | nothing hs => exact hs.db
  | committed => exact absurd rfl (he _)
  | _ => rfl

/-- Only a report changes a status. -/
theorem Touched.dynamo {ev : Event sig} (h : Touched env w ev w')
    (he : ∀ c status, ev.act ≠ .updateItem c status) :
    w'.dynamo = w.dynamo := by
  cases h with
  | nothing hs => exact hs.dynamo
  | reported => exact absurd rfl (he _ _)
  | _ => rfl

-- ===================================================================== growth

/-- What every statement keeps of the rows. -/
structure RowsGrow (db db' : Db) : Prop where
  candidates : ∀ r ∈ db.candidates.rows, ∃ r' ∈ db'.candidates.rows,
    r'.id = r.id ∧ r'.tenantId = r.tenantId
  jobs : ∀ j ∈ db.jobs.rows, j ∈ db'.jobs.rows
  subscriptions : ∀ s ∈ db.subscriptions.rows,
    ∃ s' ∈ db'.subscriptions.rows, s'.id = s.id ∧ s'.tenantId = s.tenantId
  plans : ∀ p ∈ db.plans.rows, p ∈ db'.plans.rows

theorem RowsGrow.refl (db : Db) : RowsGrow db db :=
  ⟨fun r hr => ⟨r, hr, rfl, rfl⟩, fun _ hj => hj,
    fun s hs => ⟨s, hs, rfl, rfl⟩, fun _ hp => hp⟩

theorem RowsGrow.trans {db db' db'' : Db} (h : RowsGrow db db')
    (h' : RowsGrow db' db'') : RowsGrow db db'' where
  candidates r hr := by
    obtain ⟨r', hr', hid, ht⟩ := h.candidates r hr
    obtain ⟨r'', hr'', hid', ht'⟩ := h'.candidates r' hr'
    exact ⟨r'', hr'', hid'.trans hid, ht'.trans ht⟩
  jobs j hj := h'.jobs j (h.jobs j hj)
  subscriptions s hs := by
    obtain ⟨s', hs', hid, ht⟩ := h.subscriptions s hs
    obtain ⟨s'', hs'', hid', ht'⟩ := h'.subscriptions s' hs'
    exact ⟨s'', hs'', hid'.trans hid, ht'.trans ht⟩
  plans p hp := h'.plans p (h.plans p hp)

theorem write_grows {db db' : Db} {x : Write} (h : db.write x = some db') :
    RowsGrow db db' := by
  cases x with
  | insertCandidate row =>
      obtain ⟨t, ht, rfl⟩ := write_insertCandidate h
      exact { RowsGrow.refl db with
        candidates := fun r hr =>
          ⟨r, (Relational.Table.mem_insert? ht).mpr (.inl hr), rfl, rfl⟩ }
  | updateCandidate id set =>
      obtain ⟨t, ht, rfl⟩ := write_updateCandidate h
      refine { RowsGrow.refl db with candidates := fun r hr => ?_ }
      refine ⟨_, (Relational.Table.mem_update? ht).mpr ⟨r, hr, rfl⟩, ?_, ?_⟩
      · split <;> rfl
      · split <;> rfl
  | insertJob row =>
      obtain ⟨t, ht, rfl⟩ := write_insertJob h
      exact { RowsGrow.refl db with
        jobs := fun j hj => (Relational.Table.mem_insert? ht).mpr (.inl hj) }
  | insertPlan row =>
      obtain ⟨t, ht, rfl⟩ := Option.map_eq_some_iff.mp h
      exact { RowsGrow.refl db with
        plans := fun p hp => (Relational.Table.mem_insert? ht).mpr (.inl hp) }
  | insertSubscription row =>
      obtain ⟨t, ht, rfl⟩ := Option.map_eq_some_iff.mp h
      exact { RowsGrow.refl db with
        subscriptions := fun s hs =>
          ⟨s, (Relational.Table.mem_insert? ht).mpr (.inl hs), rfl, rfl⟩ }
  | updateSubscription id set =>
      obtain ⟨t, ht, rfl⟩ := Option.map_eq_some_iff.mp h
      refine { RowsGrow.refl db with subscriptions := fun s hs => ?_ }
      refine ⟨_, (Relational.Table.mem_update? ht).mpr ⟨s, hs, rfl⟩, ?_, ?_⟩
      · split <;> rfl
      · split <;> rfl
  | insertMatchResult m =>
      simp only [Db.write] at h
      split at h
      · cases h
        exact { RowsGrow.refl db with }
      · cases h

/-- What every action keeps. -/
structure WorldGrows (w w' : World) : Prop where
  rows : RowsGrow w.db w'.db
  used : w.usedIds ⊆ w'.usedIds
  issued : w.usedSubscriptionIds ⊆ w'.usedSubscriptionIds

theorem writeAll_grows {pending : List Write} :
    ∀ {db db' : Db}, db.writeAll pending = some db' → RowsGrow db db' := by
  induction pending with
  | nil =>
      intro db db' h
      cases h
      exact .refl db
  | cons x xs ih =>
      intro db db' h
      unfold Db.writeAll at h
      cases hx : db.write x with
      | none => simp [hx] at h
      | some db₁ =>
          simp only [hx] at h
          exact (write_grows hx).trans (ih h)

theorem SameStores.grows (h : SameStores w w') : WorldGrows w w' := by
  refine ⟨?_, ?_, ?_⟩
  · rw [h.db]
    exact .refl w.db
  · rw [h.usedIds]
    exact List.Subset.refl _
  · rw [h.usedSubscriptionIds]
    exact List.Subset.refl _

/-- The surroundings touch the queue alone. -/
theorem surroundings_same {k : Surroundings} (h : k.move w = some w') :
    SameStores w w' := by
  cases k <;> cases h <;> exact ⟨rfl, rfl, rfl, rfl, rfl, rfl⟩

theorem Touched.grows {ev : Event sig} (h : Touched env w ev w') :
    WorldGrows w w' := by
  cases h with
  | nothing hs => exact hs.grows
  | drew => exact ⟨.refl _, List.subset_cons_self _ _, List.Subset.refl _⟩
  | issued => exact ⟨.refl _, List.Subset.refl _, List.subset_cons_self _ _⟩
  | committed hdb =>
      exact ⟨writeAll_grows hdb, List.Subset.refl _, List.Subset.refl _⟩
  | stored => exact ⟨.refl _, List.Subset.refl _, List.Subset.refl _⟩
  | put => exact ⟨.refl _, List.Subset.refl _, List.Subset.refl _⟩
  | reported => exact ⟨.refl _, List.Subset.refl _, List.Subset.refl _⟩

-- ====================================================================== facts

/-- What a fact says of the world from the moment it was learned. -/
def Known (w : World) : Fact → Prop
  | .drawn id => id ∈ w.usedIds
  | .candidate row => ∃ r ∈ w.db.candidates.rows,
      r.id = row.id ∧ r.tenantId = row.tenantId
  | .job row => row ∈ w.db.jobs.rows
  | .subscription row => ∃ s ∈ w.db.subscriptions.rows,
      s.id = row.id ∧ s.tenantId = row.tenantId
  | .plan row => row ∈ w.db.plans.rows
  | .issued _ response => response.id ∈ w.usedSubscriptionIds
  | .unknown _ | .attempted | .committed _ => True

theorem Known.grow {x : Fact} (h : Known w x) (hg : WorldGrows w w') :
    Known w' x := by
  cases x with
  | drawn id => exact hg.used h
  | candidate row =>
      obtain ⟨r, hr, hid, ht⟩ := h
      obtain ⟨r', hr', hid', ht'⟩ := hg.rows.candidates r hr
      exact ⟨r', hr', hid'.trans hid, ht'.trans ht⟩
  | job row => exact hg.rows.jobs row h
  | subscription row =>
      obtain ⟨s, hs, hid, ht⟩ := h
      obtain ⟨s', hs', hid', ht'⟩ := hg.rows.subscriptions s hs
      exact ⟨s', hs', hid'.trans hid, ht'.trans ht⟩
  | plan row => exact hg.rows.plans row h
  | issued p response => exact hg.issued h
  | _ => trivial

/-- What an event teaches is true. -/
theorem known_learned {e : Act} {a : e.Ans} (hadm : admits w e a = true) :
    ∀ x ∈ learned ⟨e, (perform env e a w).1⟩,
      Known (perform env e a w).2 x := by
  have hgrow : WorldGrows w (perform env e a w).2 := (touched env hadm).grows
  intro x hx
  generalize hr : (perform env e a w).1 = r at hx
  cases e with
  | uuid4 =>
      cases hr
      rw [List.mem_singleton.mp hx]
      exact List.mem_cons_self ..
  | createRazorpaySubscription p =>
      cases a with
      | error msg =>
          cases hr
          cases hx
      | ok response =>
          cases hr
          rw [List.mem_singleton.mp hx]
          exact List.mem_cons_self ..
  | selectCandidate t c =>
      rcases r with x | _ | row
      · cases hx
      · cases hx
      · rw [List.mem_singleton.mp hx]
        have hrow := (read_ok (α := Option Candidate) hr).symm
        refine Known.grow (w := w) ?_ hgrow
        exact ⟨row, (Relational.Table.find?_mem hrow).1, rfl, rfl⟩
  | selectJob t j =>
      rcases r with x | _ | row
      · cases hx
      · cases hx
      · rw [List.mem_singleton.mp hx]
        have hrow := (read_ok (α := Option Job) hr).symm
        refine Known.grow (w := w) ?_ hgrow
        exact (Relational.Table.find?_mem hrow).1
  | selectSubscription t =>
      rcases r with x | _ | row
      · cases hx
      · cases hx
      · rw [List.mem_singleton.mp hx]
        have hrow := (read_ok (α := Option Subscription) hr).symm
        refine Known.grow (w := w) ?_ hgrow
        exact ⟨row, (Relational.Table.find?_mem hrow).1, rfl, rfl⟩
  | selectSubscriptionByRazorpayId rid =>
      rcases r with x | _ | row
      · cases hx
      · rw [List.mem_singleton.mp hx]
        trivial
      · rw [List.mem_singleton.mp hx]
        have hrow := (read_ok (α := Option Subscription) hr).symm
        refine Known.grow (w := w) ?_ hgrow
        exact ⟨row, (Relational.Table.find?_mem hrow).1, rfl, rfl⟩
  | commit pending =>
      cases r with
      | error x =>
          rw [List.mem_singleton.mp hx]
          trivial
      | ok v =>
          rcases List.mem_cons.mp hx with rfl | hx
          · trivial
          · rw [List.mem_singleton.mp hx]
            trivial
  | getPlan p =>
      rcases r with x | _ | row
      · cases hx
      · cases hx
      · rw [List.mem_singleton.mp hx]
        have hrow := (read_ok (α := Option Plan) hr).symm
        refine Known.grow (w := w) ?_ hgrow
        exact (Relational.Table.find?_mem hrow).1
  | _ => cases hx

-- ===================================================================== sound

/-- A stored match joins a job and a candidate of one tenant. -/
def Joined (db : Db) (m : MatchResult) : Prop :=
  ∃ j ∈ db.jobs.rows, ∃ c ∈ db.candidates.rows,
    m.jobId = j.id ∧ m.candidateId = c.id ∧ j.tenantId = c.tenantId

structure SoundRows (used : List UUID) (issued : List String) (db : Db) :
    Prop where
  candidates : ∀ r ∈ db.candidates.rows, r.id ∈ used
    ∧ (r.pineconeId = none
      ∨ r.pineconeId = some (candidateVectorId r.id.str))
  jobs : ∀ j ∈ db.jobs.rows, j.id ∈ used
    ∧ (j.pineconeId = none ∨ j.pineconeId = some (jobVectorId j.id.str))
  subscriptions : ∀ s ∈ db.subscriptions.rows, s.id ∈ used
    ∧ s.razorpaySubscriptionId ∈ issued
  joined : ∀ m ∈ db.matchResults, Joined db m

/-- What every reachable world is, as far as tenants go. -/
structure Sound (env : Env) (w : World) : Prop where
  rows : SoundRows w.usedIds w.usedSubscriptionIds w.db
  files : ∀ id b, fileOf env w id = some b → id ∈ w.usedIds
  statuses : ∀ text status, w.dynamo text = some status →
    ∃ r ∈ w.db.candidates.rows, UUID.parse text = some r.id

theorem Joined.grow {db db' : Db} {m : MatchResult} (h : Joined db m)
    (hg : RowsGrow db db') : Joined db' m := by
  obtain ⟨j, hj, c, hc, hmj, hmc, ht⟩ := h
  obtain ⟨c', hc', hid, hct⟩ := hg.candidates c hc
  exact ⟨j, hg.jobs j hj, c', hc', hmj, hmc.trans hid.symm,
    ht.trans hct.symm⟩

theorem SoundRows.grow {used used' : List UUID} {issued issued' : List String}
    {db : Db} (h : SoundRows used issued db) (hu : used ⊆ used')
    (hi : issued ⊆ issued') : SoundRows used' issued' db where
  candidates r hr := ⟨hu (h.candidates r hr).1, (h.candidates r hr).2⟩
  jobs j hj := ⟨hu (h.jobs j hj).1, (h.jobs j hj).2⟩
  subscriptions s hs :=
    ⟨hu (h.subscriptions s hs).1, hi (h.subscriptions s hs).2⟩
  joined := h.joined

/-- The Razorpay id an allowed UPDATE leaves is the row's, or one that was
issued. -/
theorem AllowsUpdate.razorpayId {row : Subscription}
    {set : SubscriptionPatch} (h : AllowsUpdate σ K row set)
    (s : Subscription) :
    (set.apply s).razorpaySubscriptionId = s.razorpaySubscriptionId
      ∨ ∃ p response, .issued p response ∈ K
        ∧ (set.apply s).razorpaySubscriptionId = response.id := by
  cases h with
  | apply => exact .inl rfl
  | @replace plan response _ _ _ hissued =>
      show (assign _ _).getD _ = _ ∨ ∃ p r, _ ∧ (assign _ _).getD _ = _
      unfold assign
      split
      · exact .inl rfl
      · exact .inr ⟨_, response, hissued, rfl⟩

/-- One allowed statement keeps the rows sound. -/
theorem SoundRows.write {db db' : Db} {x : Write}
    (h : SoundRows w.usedIds w.usedSubscriptionIds db)
    (hK : ∀ f ∈ K, Known { w with db := db } f) (hx : AllowsWrite σ K x)
    (hw : db.write x = some db') :
    SoundRows w.usedIds w.usedSubscriptionIds db' := by
  have hgrow := write_grows hw
  cases x with
  | insertCandidate row =>
      obtain ⟨t, ht, rfl⟩ := write_insertCandidate hw
      refine ⟨fun r hr => ?_, h.jobs, h.subscriptions,
        fun m hm => (h.joined m hm).grow hgrow⟩
      rcases (Relational.Table.mem_insert? ht).mp hr with hr | rfl
      · exact h.candidates r hr
      · exact ⟨hK _ hx.1, hx.2.2⟩
  | updateCandidate id set =>
      obtain ⟨t, ht, rfl⟩ := write_updateCandidate hw
      refine ⟨fun r hr => ?_, h.jobs, h.subscriptions,
        fun m hm => (h.joined m hm).grow hgrow⟩
      obtain ⟨r₀, hr₀, rfl⟩ := (Relational.Table.mem_update? ht).mp hr
      by_cases hid : r₀.id = id
      · rw [if_pos (by simp [hid])]
        refine ⟨(h.candidates r₀ hr₀).1, ?_⟩
        rcases hx.2 with hset | hset
        · have hkeep : (set.apply r₀).pineconeId = r₀.pineconeId := by
            simp [CandidatePatch.apply, hset]
          rw [hkeep]
          exact (h.candidates r₀ hr₀).2
        · refine .inr ?_
          simp [CandidatePatch.apply, hset, hid]
      · rw [if_neg (by simp [hid])]
        exact h.candidates r₀ hr₀
  | insertJob row =>
      obtain ⟨t, ht, rfl⟩ := write_insertJob hw
      refine ⟨h.candidates, fun j hj => ?_, h.subscriptions,
        fun m hm => (h.joined m hm).grow hgrow⟩
      rcases (Relational.Table.mem_insert? ht).mp hj with hj | rfl
      · exact h.jobs j hj
      · exact ⟨hK _ hx.1, hx.2.2⟩
  | insertPlan row =>
      obtain ⟨t, ht, rfl⟩ := Option.map_eq_some_iff.mp hw
      exact ⟨h.candidates, h.jobs, h.subscriptions, h.joined⟩
  | insertSubscription row =>
      obtain ⟨t, ht, rfl⟩ := Option.map_eq_some_iff.mp hw
      refine ⟨h.candidates, h.jobs, fun s hs => ?_, h.joined⟩
      rcases (Relational.Table.mem_insert? ht).mp hs with hs | rfl
      · exact h.subscriptions s hs
      · obtain ⟨hid, -, -, plan, response, -, -, hissued, hrow⟩ := hx
        refine ⟨hK _ hid, ?_⟩
        rw [hrow]
        exact hK _ hissued
  | updateSubscription id set =>
      obtain ⟨t, ht, rfl⟩ := Option.map_eq_some_iff.mp hw
      refine ⟨h.candidates, h.jobs, fun s hs => ?_, h.joined⟩
      obtain ⟨s₀, hs₀, rfl⟩ := (Relational.Table.mem_update? ht).mp hs
      split
      · obtain ⟨row, -, -, hset⟩ := hx
        refine ⟨(h.subscriptions s₀ hs₀).1, ?_⟩
        rcases hset.razorpayId s₀ with heq | ⟨p, response, hissued, heq⟩
        · rw [heq]
          exact (h.subscriptions s₀ hs₀).2
        · rw [heq]
          exact hK _ hissued
      · exact h.subscriptions s₀ hs₀
  | insertMatchResult m =>
      simp only [Db.write] at hw
      split at hw
      · cases hw
        refine ⟨h.candidates, h.jobs, h.subscriptions, fun m' hm' => ?_⟩
        rcases List.mem_append.mp hm' with hm' | hm'
        · exact (h.joined m' hm').grow hgrow
        · rw [List.mem_singleton.mp hm']
          obtain ⟨job, row, hjob, hrow, hmj, hmc, ht⟩ := hx
          obtain ⟨r, hr, hid, hrt⟩ := hK _ hrow
          exact ⟨job, hK _ hjob, r, hr, hmj, hmc.trans hid.symm,
            ht.trans hrt.symm⟩
      · cases hw

theorem SoundRows.writeAll {pending : List Write} :
    ∀ {db db' : Db}, SoundRows w.usedIds w.usedSubscriptionIds db →
      (∀ f ∈ K, Known { w with db := db } f) →
      (∀ x ∈ pending, AllowsWrite σ K x) → db.writeAll pending = some db' →
      SoundRows w.usedIds w.usedSubscriptionIds db' := by
  induction pending with
  | nil =>
      intro db db' h _ _ hw
      cases hw
      exact h
  | cons x xs ih =>
      intro db db' h hK hall hw
      unfold Db.writeAll at hw
      cases hx : db.write x with
      | none => simp [hx] at hw
      | some db₁ =>
          simp only [hx] at hw
          refine ih (h.write hK (hall x (List.mem_cons_self ..)) hx)
            (fun f hf => (hK f hf).grow ?_)
            (fun y hy => hall y (List.mem_cons_of_mem x hy)) hw
          exact ⟨write_grows hx, List.Subset.refl _, List.Subset.refl _⟩

theorem Sound.same (h : Sound env w) (hs : SameStores w w') :
    Sound env w' := by
  refine ⟨?_, fun id b hb => ?_, fun text status hd => ?_⟩
  · rw [hs.db, hs.usedIds, hs.usedSubscriptionIds]
    exact h.rows
  · rw [hs.usedIds]
    refine h.files id b ?_
    rw [← hb]
    unfold fileOf
    rw [hs.s3]
  · rw [hs.dynamo] at hd
    rw [hs.db]
    exact h.statuses text status hd

/-- One allowed action keeps the world sound. -/
theorem Sound.act (h : Sound env w) (hK : ∀ f ∈ K, Known w f) {e : Act}
    {r : Except Exn e.Ret} (hallow : Allows σ K env e)
    (ht : Touched env w ⟨e, r⟩ w') : Sound env w' := by
  cases ht with
  | nothing hs => exact h.same hs
  | @drew u hu =>
      exact ⟨h.rows.grow (List.subset_cons_self _ _) (List.Subset.refl _),
        fun id b hb => List.mem_cons_of_mem _ (h.files id b hb), h.statuses⟩
  | issued =>
      exact ⟨h.rows.grow (List.Subset.refl _) (List.subset_cons_self _ _),
        h.files, h.statuses⟩
  | committed hdb =>
      refine ⟨h.rows.writeAll hK hallow hdb, h.files, fun text status hd => ?_⟩
      obtain ⟨r, hr, hp⟩ := h.statuses text status hd
      obtain ⟨r', hr', hid, -⟩ := (writeAll_grows hdb).candidates r hr
      exact ⟨r', hr', hid ▸ hp⟩
  | stored => exact ⟨h.rows, h.files, h.statuses⟩
  | @put bucket key body =>
      obtain ⟨hbucket, id₀, hdrawn, hkey⟩ := hallow
      refine ⟨h.rows, fun id b hb => ?_, h.statuses⟩
      have hb' : setAt w.s3 bucket key body env.s3BucketName (uploadKey id)
          = some b := hb
      unfold setAt at hb'
      split at hb'
      next hk =>
        rw [hkey] at hk
        rw [uploadKey_injective hk.2]
        exact hK _ hdrawn
      next => exact h.files id b hb'
  | @reported text status =>
      obtain ⟨row, hrow, hp⟩ := hallow
      refine ⟨h.rows, h.files, fun text' status' hd => ?_⟩
      have hd' : (if text' = text then some status else w.dynamo text')
          = some status' := hd
      split at hd'
      next heq =>
        obtain ⟨r, hr, hid, -⟩ := hK _ hrow
        exact ⟨r, hr, by rw [heq, hid]; exact hp⟩
      next => exact h.statuses text' status' hd'

-- ====================================================================== runs

/-- Facts as a protocol: each thread's phase is what it has learned. -/
def knowing (env : Env) : Protocol (service env) (List Fact) where
  start _ := []
  next op := (discipline env (scope op)).Next
  final op K r := ∀ a, r = .ok a → Finished K op

theorem knowing_conforms (env : Env) : (knowing env).Conforms :=
  fun op => Prog.Follows.mono (within op fun h => nomatch h)
    fun _ _ hq => hq.2

/-- A sound world, in which every thread's facts are true. -/
structure Informed (env : Env) (w : World)
    (ros : Roster (service env) (List Fact)) : Prop where
  sound : Sound env w
  known : Slots (fun _ K => ∀ x ∈ K, Known w x) ros

/-- A thread that starts knows nothing. -/
theorem Informed.renew {ros ros' : Roster (service env) (List Fact)}
    (h : Informed env w ros) (hr : Renews [] ros ros') :
    Informed env w ros' :=
  ⟨h.sound, h.known.renew hr fun _ x hx => by cases hx⟩

theorem sound_keeps (env : Env) (ok : Guard (service env)) :
    (knowing env).Keeps ok fun w _ ros => Informed env w ros where
  spawn _ h := h.renew renews_append
  act {s ros i op K e k K'} ans _ h hi _ hadm _ hm := by
    obtain ⟨hallow, rfl⟩ := hm
    have htouch := touched env hadm
    have hgrow := htouch.grows
    refine ⟨h.sound.act (h.known.get hi) hallow htouch, ?_⟩
    refine h.known.advance (fun _ _ hold x hx => (hold x hx).grow hgrow) ?_
    rintro K' ⟨⟩ x hx
    rcases List.mem_append.mp hx with hx | hx
    · exact known_learned hadm x hx
    · exact (h.known.get hi x hx).grow hgrow
  crash _ h _ _ _ := h.renew (renews_set (.inl rfl))
  restart h _ _ _ := h.renew (renews_set (.inr rfl))
  env k h hk := by
    have hs := surroundings_same hk
    refine ⟨h.sound.same hs, h.known.mono fun _ K hK x hx => ?_⟩
    exact (hK x hx).grow hs.grows

theorem sound_init (env : Env) : Informed env World.empty [] where
  sound := ⟨⟨fun _ h => (nomatch h), fun _ h => (nomatch h),
    fun _ h => (nomatch h), fun _ h => (nomatch h)⟩,
    fun _ _ h => (nomatch h), fun _ _ h => (nomatch h)⟩
  known := .nil

/-- Every reachable world is sound. -/
theorem reachable_sound {ok : Guard (service env)} {s : Sys (service env)}
    (h : GuardedRun env ok s) : Sound env s.world := by
  obtain ⟨ros, -, hall⟩ := Run.invariant (sound_keeps env ok)
    (knowing_conforms env) (sound_init env) h
  exact hall.sound

/-- Every match ever stored joins a job and a candidate of one tenant. -/
theorem matches_joined {ok : Guard (service env)} {s : Sys (service env)}
    (h : GuardedRun env ok s) :
    ∀ m ∈ s.world.db.matchResults, Joined s.world.db m :=
  (reachable_sound h).rows.joined

end ResumeScreening.Tenancy
