/-
What one performed action does to the stores: frame lemmas for the
actions the pipeline does not care about, and an exact description for
the ones it does.
-/
import ResumeScreening.Pipeline.Protocol

namespace ResumeScreening.Pipeline

open Relational

variable {env : Env} {w w' : World}

-- ================================================================== writes

/-- The surroundings redeliver and dead-letter: they change what is noted of
queued messages. -/
theorem move_queue {k : Surroundings} (h : k.move w = some w') :
    ∃ f : Queued → Queued, (∀ q, (f q).message = q.message)
      ∧ w' = { w with queue := w.queue.map f } := by
  cases k with
  | visibilityPasses handle =>
      cases h
      exact ⟨_, fun q => by split <;> rfl, rfl⟩
  | redrive handle =>
      cases h
      exact ⟨_, fun q => by split <;> rfl, rfl⟩

/-- A write takes effect exactly if its fate says so. -/
theorem write_snd (a : Fate) :
    (w.write w' a).2 = if a.applied then w' else w := by
  cases a <;> rfl

/-- What holds of a world and of what a write makes of it, whatever the
write's fate. -/
theorem write_ends {P : World → Prop} (a : Fate) (hdone : P w') (hnot : P w) :
    P (w.write w' a).2 := by
  rw [write_snd]
  split
  · exact hdone
  · exact hnot

theorem write_ok {a : Fate} {u : Unit} (h : (w.write w' a).1 = .ok u) :
    (w.write w' a).2 = w' := by
  cases a with
  | ok => rfl
  | failed msg => cases h
  | lostReply msg => cases h

/-- A commit changes nothing, or runs its statements. -/
theorem commit_cases (w : World) (pending : List Write) (a : Fate) :
    ((w.commit pending a).2 = w ∧ ∀ u, (w.commit pending a).1 ≠ .ok u)
      ∨ ∃ db, w.db.writeAll pending = some db
        ∧ (w.commit pending a).2 = { w with db := db } := by
  unfold World.commit
  cases hw : w.db.writeAll pending with
  | none => exact .inl ⟨rfl, fun u h => nomatch h⟩
  | some db =>
      cases a with
      | ok => exact .inr ⟨db, rfl, rfl⟩
      | failed msg => exact .inl ⟨rfl, fun u h => nomatch h⟩
      | lostReply msg => exact .inr ⟨db, rfl, rfl⟩

/-- A commit changes nothing but rows. -/
theorem commit_rows (w : World) (pending : List Write) (a : Fate) :
    ∃ db, (w.commit pending a).2 = { w with db := db } := by
  rcases commit_cases w pending a with ⟨hw, -⟩ | ⟨db, -, hw⟩
  · exact ⟨w.db, hw⟩
  · exact ⟨db, hw⟩

theorem commit_ok {pending : List Write} {a : Fate} {u : Unit}
    (h : (w.commit pending a).1 = .ok u) :
    ∃ db, w.db.writeAll pending = some db
      ∧ (w.commit pending a).2 = { w with db := db } := by
  rcases commit_cases w pending a with ⟨-, hne⟩ | hrun
  · exact absurd h (hne u)
  · exact hrun

@[simp] theorem writeAll_nil (db : Db) : db.writeAll [] = some db := rfl

@[simp] theorem writeAll_one (db : Db) (x : Write) :
    db.writeAll [x] = db.write x := by
  unfold Db.writeAll
  cases db.write x <;> rfl

theorem write_insertCandidate {db db' : Db} {row : Candidate}
    (h : db.write (.insertCandidate row) = some db') :
    ∃ t, db.candidates.insert? row = some t
      ∧ db' = { db with candidates := t } := by
  obtain ⟨t, ht, he⟩ := Option.map_eq_some_iff.mp h
  exact ⟨t, ht, he.symm⟩

theorem write_updateCandidate {db db' : Db} {id : UUID} {set : CandidatePatch}
    (h : db.write (.updateCandidate id set) = some db') :
    ∃ t, db.candidates.update? (fun c => c.id == id) set.apply = some t
      ∧ db' = { db with candidates := t } := by
  obtain ⟨t, ht, he⟩ := Option.map_eq_some_iff.mp h
  exact ⟨t, ht, he.symm⟩

theorem write_insertJob {db db' : Db} {row : Job}
    (h : db.write (.insertJob row) = some db') :
    ∃ t, db.jobs.insert? row = some t ∧ db' = { db with jobs := t } := by
  obtain ⟨t, ht, he⟩ := Option.map_eq_some_iff.mp h
  exact ⟨t, ht, he.symm⟩

/-- Statements on other tables leave candidates and jobs alone. -/
theorem write_elsewhere {db db' : Db} {x : Write} (hx : elsewhere x = true)
    (h : db.write x = some db') :
    db'.candidates = db.candidates ∧ db'.jobs = db.jobs := by
  cases x with
  | insertCandidate row => cases hx
  | updateCandidate id set => cases hx
  | insertJob row => cases hx
  | insertPlan row =>
      obtain ⟨t, -, rfl⟩ := Option.map_eq_some_iff.mp h
      exact ⟨rfl, rfl⟩
  | insertSubscription row =>
      obtain ⟨t, -, rfl⟩ := Option.map_eq_some_iff.mp h
      exact ⟨rfl, rfl⟩
  | updateSubscription id set =>
      obtain ⟨t, -, rfl⟩ := Option.map_eq_some_iff.mp h
      exact ⟨rfl, rfl⟩
  | insertMatchResult row =>
      simp only [Db.write] at h
      split at h
      · cases h
        exact ⟨rfl, rfl⟩
      · cases h

theorem writeAll_elsewhere {pending : List Write}
    (hall : pending.all elsewhere = true) :
    ∀ {db db' : Db}, db.writeAll pending = some db' →
      db'.candidates = db.candidates ∧ db'.jobs = db.jobs := by
  induction pending with
  | nil =>
      intro db db' h
      cases h
      exact ⟨rfl, rfl⟩
  | cons x xs ih =>
      intro db db' h
      simp only [List.all_cons, Bool.and_eq_true] at hall
      unfold Db.writeAll at h
      cases hx : db.write x with
      | none => simp [hx] at h
      | some db₁ =>
          obtain ⟨hc₁, hj₁⟩ := write_elsewhere hall.1 hx
          have hrest : db₁.writeAll xs = some db' := by simpa [hx] using h
          obtain ⟨hc, hj⟩ := ih hall.2 hrest
          exact ⟨hc.trans hc₁, hj.trans hj₁⟩

-- =========================================================== quiet actions

/-- Two worlds with the same candidates, jobs, vectors, files, messages,
statuses and drawn identifiers. -/
structure Same (w w' : World) : Prop where
  candidates : w'.db.candidates = w.db.candidates
  jobs : w'.db.jobs = w.db.jobs
  pinecone : w'.pinecone = w.pinecone
  s3 : w'.s3 = w.s3
  queue : w'.queue = w.queue
  nextReceipt : w'.nextReceipt = w.nextReceipt
  dynamo : w'.dynamo = w.dynamo
  usedIds : w'.usedIds = w.usedIds

theorem Same.refl (w : World) : Same w w :=
  ⟨rfl, rfl, rfl, rfl, rfl, rfl, rfl, rfl⟩

theorem read_snd {α : Type} (a : Except String Unit) (v : α) :
    (w.read a v).2 = w := by
  cases a <;> rfl

theorem readOr_snd {α : Type} (a : Except String Unit) (v : Option α) :
    (w.readOr a v).2 = w := by
  cases a with
  | ok u => cases v <;> rfl
  | error msg => cases v <;> rfl

/-- The actions that leave the world as it is, whatever their fate. -/
def inert : Act → Bool
  | .commit _ | .uuid4 | .upsert .. | .putObject .. | .sendMessage _
  | .receiveMessage | .deleteMessage _ | .updateItem ..
  | .createRazorpaySubscription _ | .countOutcome _ => false
  | _ => true

theorem inert_same {e : Act} (h : inert e = true) (a : e.Ans) (w : World) :
    (perform env e a w).2 = w := by
  cases e with
  | selectCandidate => exact read_snd a _
  | selectCandidates => exact read_snd a _
  | selectJob => exact read_snd a _
  | selectJobs => exact read_snd a _
  | selectSubscription => exact read_snd a _
  | selectSubscriptionByRazorpayId => exact read_snd a _
  | getPlan => exact read_snd a _
  | countCandidates => exact read_snd a _
  | embedQuery => exact read_snd a _
  | refreshCandidate => exact readOr_snd a _
  | refreshJob => exact readOr_snd a _
  | refreshSubscription => exact readOr_snd a _
  | getObject => exact readOr_snd a _
  | flush => rfl
  | utcNow => rfl
  | transactionNow => cases (a : Except String Py.DateTime) <;> rfl
  | parseResume => cases (a : Except LibraryError ParsedResume) <;> rfl
  | explainMatch => cases (a : Except LibraryError MatchExplanation) <;> rfl
  | query => cases (a : Except String (List QueryMatch)) <;> rfl
  | _ => cases h

/-- A quiet action leaves the pipeline's stores as they were. -/
theorem quiet_same {e : Act} (h : quiet e = true) (a : e.Ans) (w : World) :
    Same w (perform env e a w).2 := by
  by_cases hinert : inert e = true
  · rw [inert_same hinert]
    exact .refl w
  cases e with
  | countOutcome => exact ⟨rfl, rfl, rfl, rfl, rfl, rfl, rfl, rfl⟩
  | createRazorpaySubscription =>
      cases (a : Except String RazorpayResponse) with
      | ok r => exact ⟨rfl, rfl, rfl, rfl, rfl, rfl, rfl, rfl⟩
      | error msg => exact .refl w
  | commit pending =>
      show Same w (w.commit pending a).2
      rcases commit_cases w pending a with ⟨hw, -⟩ | ⟨db, hdb, hw⟩
      · rw [hw]
        exact .refl w
      · obtain ⟨hc, hj⟩ := writeAll_elsewhere h hdb
        rw [hw]
        exact ⟨hc, hj, rfl, rfl, rfl, rfl, rfl, rfl⟩
  | _ =>
      first
      | exact absurd rfl hinert
      | cases h

-- ==================================================================== keys

/-- Distinct uploads have distinct keys. -/
theorem uploadKey_injective {c c' : UUID} (h : uploadKey c = uploadKey c') :
    c = c' := by
  unfold uploadKey at h
  have htext : "uploads/" ++ c.str = "uploads/" ++ c'.str :=
    (String.append_left_inj ".pdf").mp h
  exact UUID.str_injective ((String.append_right_inj _).mp htext)

theorem candidateVectorId_injective {c c' : UUID}
    (h : candidateVectorId c.str = candidateVectorId c'.str) : c = c' :=
  UUID.str_injective ((String.append_right_inj _).mp h)

theorem jobVectorId_injective {j j' : UUID}
    (h : jobVectorId j.str = jobVectorId j'.str) : j = j' :=
  UUID.str_injective ((String.append_right_inj _).mp h)

/-- A candidate's vector and a job's never share an id. -/
theorem candidateVectorId_ne_jobVectorId (c j : String) :
    candidateVectorId c ≠ jobVectorId j := by
  intro h
  have hlist := congrArg (fun s => s.toList.head?) h
  simp [candidateVectorId, jobVectorId] at hlist

/-- What an upload's message says. -/
theorem names_uploadBody {t c t' c' : UUID} {text : String}
    (h : Names (uploadBody env t c) t' c' text) :
    t' = t ∧ c' = c ∧ text = c.str := by
  obtain ⟨fields, tenantText, hobj, hc, ht, hpt⟩ := h.object
  cases hobj
  have htext : c.str = text := by
    have := hc
    simp only [List.lookup_cons, beq_self_eq_true, Option.some.injEq,
      JsonValue.text.injEq] at this
    exact this
  have htenant : t.str = tenantText := by
    have hne : ("tenant_id" == "candidate_id") = false := by decide
    simp only [List.lookup_cons, hne, beq_self_eq_true, Option.some.injEq,
      JsonValue.text.injEq] at ht
    exact ht
  have hparse := h.parse
  rw [← htext, UUID.parse_str, Option.some.injEq] at hparse
  rw [← htenant, UUID.parse_str, Option.some.injEq] at hpt
  exact ⟨hpt.symm, hparse.symm, htext.symm⟩

theorem locates_uploadBody {t c : UUID} {bucket key : String}
    (h : Locates (uploadBody env t c) bucket key) :
    bucket = env.s3BucketName ∧ key = uploadKey c := by
  obtain ⟨fields, hobj, hb, hk⟩ := h
  cases hobj
  have h₁ : ("s3_bucket" == "candidate_id") = false := by decide
  have h₂ : ("s3_bucket" == "tenant_id") = false := by decide
  have h₃ : ("s3_key" == "candidate_id") = false := by decide
  have h₄ : ("s3_key" == "tenant_id") = false := by decide
  have h₅ : ("s3_key" == "s3_bucket") = false := by decide
  simp only [List.lookup_cons, h₁, h₂, beq_self_eq_true, Option.some.injEq,
    JsonValue.text.injEq] at hb
  simp only [List.lookup_cons, h₃, h₄, h₅, beq_self_eq_true, Option.some.injEq,
    JsonValue.text.injEq] at hk
  exact ⟨hb.symm, hk.symm⟩

theorem uploadBody_injective {t t' c c' : UUID}
    (h : uploadBody env t c = uploadBody env t' c') : t = t' ∧ c = c' := by
  simp only [uploadBody, Body.object.injEq, List.cons.injEq, Prod.mk.injEq,
    JsonValue.text.injEq, true_and, and_true] at h
  exact ⟨UUID.str_injective h.2.1, UUID.str_injective h.1⟩

end ResumeScreening.Pipeline
