/-
An upload that fails.

`enqueue_resume_upload` commits the placeholder row before it stores the
file and publishes the message. Nothing undoes the commit, so what a
failed upload costs depends on one step: once the commit has taken
effect, only a published message makes the request a success, and any
other end leaves a row that every later count and list includes
(`failed_uploads`).
-/
import ResumeScreening.Lib.Recorded
import ResumeScreening.Pipeline.Conform
import ResumeScreening.Pipeline.Effects

namespace ResumeScreening.Failures

open Effect Prog Pipeline

variable {env : Env} {w w' : World} {as : List (Given (machine env))}
  {t : UUID}

-- ============================================================ the statement

/-- The committed candidate rows of a tenant. -/
def candidatesOf (w : World) (t : UUID) : List Candidate :=
  w.db.candidates.select fun c => c.tenantId == t

/-- The tenant's rows are the same, and so is every answer of the quota
gate and of the list that is given the same instants and failures. -/
structure SameFor (env : Env) (t : UUID) (w w' : World) : Prop where
  rows : candidatesOf w' t = candidatesOf w t
  gated : ∀ (O : Oracle (machine env)) n,
    ((enforceQuota env t).run O n w').1 = ((enforceQuota env t).run O n w).1
  listed : ∀ (O : Oracle (machine env)) n,
    ((listCandidates t).run O n w').1 = ((listCandidates t).run O n w).1

/-- A request that is not accepted costs the tenant nothing. -/
def CostsNothing (env : Env) (t : UUID) (w : World)
    (r : Option (Except Exn Candidate)) (w' : World) : Prop :=
  (∀ c, r ≠ some (.ok c)) → SameFor env t w w'

/-- A commit that took effect, whatever it replied. -/
def commits : Given (machine env) → Bool
  | ⟨.commit _, (a : Fate)⟩ => a.applied
  | _ => false

/-- A message that was published. -/
def publishes : Given (machine env) → Bool
  | ⟨.sendMessage _, (a : Fate)⟩ => decide (a = .ok)
  | _ => false

/-- How an upload ends: before its row is committed, with the row
committed and the request not accepted, or accepted. -/
inductive UploadEnds (t : UUID) (w : World) (as : List (Given (machine env))) :
    Option (Except Exn Candidate) → World → Prop
  | early {r w'} : ¬ Saw commits as → w'.db = w.db → UploadEnds t w as r w'
  | charged {r w'} : Saw commits as → ¬ Saw publishes as →
      (∀ c, r ≠ some (.ok c)) → candidatesOf w' t ≠ candidatesOf w t →
      UploadEnds t w as r w'
  | accepted {c w'} : Saw publishes as → UploadEnds t w as (some (.ok c)) w'

-- ============================================================== later answers

/-- What the gate and the list of a tenant read. -/
def readsOf (t : UUID) : Act → Prop
  | .selectSubscription t' => t' = t
  | .selectCandidates t' => t' = t
  | .countCandidates t' _ => t' = t
  | .getPlan _ | .utcNow => True
  | _ => False

theorem readsOf_same {e : Act} (h : readsOf t e) (a : e.Ans) (w : World) :
    ((machine env).perform e a w).2 = w := by
  have hinert : inert e = true := by
    cases e with
    | selectSubscription => rfl
    | selectCandidates => rfl
    | countCandidates => rfl
    | getPlan => rfl
    | utcNow => rfl
    | _ => exact h.elim
  exact inert_same hinert a w

/-- A count of a tenant's rows is a count over its own rows. -/
theorem count_of_own (w : World) (t : UUID) (q : Candidate → Bool) :
    (w.db.candidates.count fun c => c.tenantId == t && q c)
      = (candidatesOf w t).countP q := by
  unfold candidatesOf Relational.Table.count Relational.Table.select
  rw [List.countP_filter]
  exact congrArg (List.countP · _) (funext fun c => Bool.and_comm _ _)

/-- Rows that are the same are read the same. -/
theorem SameFor.of_rows (hrows : candidatesOf w' t = candidatesOf w t)
    (hsubs : w'.db.subscriptions = w.db.subscriptions)
    (hplans : w'.db.plans = w.db.plans) : SameFor env t w w' := by
  have hread : ∀ (e : Act) (a : e.Ans), readsOf t e →
      ((machine env).perform e a w').1 = ((machine env).perform e a w).1 := by
    intro e a he
    cases e with
    | selectSubscription t' =>
        show (w'.read a _).1 = (w.read a _).1
        rw [hsubs]
        cases a <;> rfl
    | selectCandidates t' =>
        cases (he : t' = t)
        show (w'.read a (newestFirst _ (candidatesOf w' t))).1
          = (w.read a (newestFirst _ (candidatesOf w t))).1
        rw [hrows]
        cases a <;> rfl
    | countCandidates t' since =>
        cases (he : t' = t)
        show (w'.read a _).1 = (w.read a _).1
        rw [count_of_own, count_of_own, hrows]
        cases a <;> rfl
    | getPlan p =>
        show (w'.read a _).1 = (w.read a _).1
        rw [hplans]
        cases a <;> rfl
    | utcNow => rfl
    | _ => exact he.elim
  have hkeep : ∀ (e : Act) (a : e.Ans) w, readsOf t e →
      ((machine env).perform e a w).2 = w := fun e a w he => readsOf_same he a w
  refine ⟨hrows, fun O n => ?_, fun O n => ?_⟩
  · refine Uses.run_same (q := readsOf t) hread hkeep ?_
    exact uses_enforceQuota rfl (fun _ => trivial) trivial fun _ => rfl
  · refine Uses.run_same (q := readsOf t) hread hkeep ?_
    exact (uses_perform (S := sig) (readsOf t) _).mpr rfl

theorem UploadEnds.costs_iff {r : Option (Except Exn Candidate)}
    (h : UploadEnds t w as r w') :
    CostsNothing env t w r w' ↔ ¬ Saw commits as ∨ Saw publishes as := by
  cases h with
  | early hno hdb =>
      refine ⟨fun _ => .inl hno, fun _ _ => SameFor.of_rows ?_ ?_ ?_⟩
      · unfold candidatesOf
        rw [hdb]
      · rw [hdb]
      · rw [hdb]
  | charged hyes hno hr hrows =>
      constructor
      · exact fun hfree => absurd (hfree hr).rows hrows
      · rintro (h | h)
        · exact absurd hyes h
        · exact absurd h hno
  | @accepted c _ hyes =>
      exact ⟨fun _ => .inr hyes, fun _ hr => absurd rfl (hr c)⟩

-- ================================================================= the upload

section

variable {β : Type} {e : Act} {f : e.Ret → Py Candidate}
  {r : Option (Except Exn Candidate)}

/-- An action in front that neither commits nor publishes, and leaves the
rows alone. -/
theorem UploadEnds.call
    (hc : ∀ a : e.Ans, commits (⟨e, a⟩ : Given (machine env)) = false)
    (hp : ∀ a : e.Ans, publishes (⟨e, a⟩ : Given (machine env)) = false)
    (hdb : ∀ a : e.Ans, ((machine env).perform e a w).2.db = w.db)
    (hrest : ∀ v a as₂, ((machine env).perform e a w).1 = .ok v →
      Went (machine env) (f v) ((machine env).perform e a w).2 as₂ r w' →
      UploadEnds t ((machine env).perform e a w).2 as₂ r w')
    (h : Went (machine env) ((call e).bind f) w as r w') :
    UploadEnds t w as r w' := by
  rcases h.call with
    ⟨rfl, rfl, rfl⟩ | ⟨a, as₂, -, rfl, ⟨x, -, rfl, rfl, rfl⟩ | ⟨v, hv, h⟩⟩
  · exact .early (by simp) rfl
  · exact .early (by simp [hc]) (hdb a)
  have hrows : candidatesOf ((machine env).perform e a w).2 t
      = candidatesOf w t := by
    unfold candidatesOf
    rw [hdb]
  cases hrest v a as₂ hv h with
  | early hno hsame => exact .early (by simp [hc, hno]) (hsame.trans (hdb a))
  | charged hyes hno hr hdiff =>
      rw [hrows] at hdiff
      exact .charged (by simp [hyes]) (by simp [hp, hno]) hr hdiff
  | accepted hyes => exact .accepted (by simp [hyes])

/-- From the commit on the rows stay, and the request is accepted exactly
where its message was published. -/
def Tail (w : World) (as : List (Given (machine env)))
    (r : Option (Except Exn Candidate)) (w' : World) : Prop :=
  w'.db = w.db ∧ (Saw publishes as ↔ ∃ c, r = some (.ok c))

theorem Tail.call
    (hp : ∀ a : e.Ans, publishes (⟨e, a⟩ : Given (machine env)) = false)
    (hdb : ∀ a : e.Ans, ((machine env).perform e a w).2.db = w.db)
    (hrest : ∀ v w₁ as₂, Went (machine env) (f v) w₁ as₂ r w' →
      Tail w₁ as₂ r w')
    (h : Went (machine env) ((call e).bind f) w as r w') : Tail w as r w' := by
  rcases h.call with
    ⟨rfl, rfl, rfl⟩ | ⟨a, as₂, -, rfl, ⟨x, -, rfl, rfl, rfl⟩ | ⟨v, -, h⟩⟩
  · exact ⟨rfl, by simp⟩
  · exact ⟨hdb a, by simp [hp]⟩
  · obtain ⟨hsame, hiff⟩ := hrest v _ as₂ h
    exact ⟨hsame.trans (hdb a), by simp [hp, hiff]⟩

theorem write_db {w₁ : World} (a : Fate) (h : w₁.db = w.db) :
    (w.write w₁ a).2.db = w.db := by
  cases a with
  | ok => exact h
  | failed msg => rfl
  | lostReply msg => exact h

theorem tail_went {id : UUID} {bytes : List UInt8}
    (h : Went (machine env) ((call (.refreshCandidate id)).bind fun refreshed =>
      (uploadResumeAndEnqueue env id t bytes).bind fun _ => ret refreshed)
      w as r w') : Tail w as r w' := by
  refine Tail.call (fun _ => rfl) ?_ ?_ h
  · exact fun a => congrArg World.db (readOr_snd a _)
  intro refreshed w₁ as₂ h
  unfold uploadResumeAndEnqueue at h
  simp only [bind_eq, bind_assoc] at h
  refine Tail.call (fun _ => rfl) ?_ ?_ h
  · exact fun a => write_db a rfl
  intro _ w₂ as₃ h
  rcases h.call with
    ⟨rfl, rfl, rfl⟩ | ⟨a, as₄, -, rfl, ⟨x, hx, rfl, rfl, rfl⟩ | ⟨v, hv, h⟩⟩
  · exact ⟨rfl, by simp⟩
  · refine ⟨write_db a rfl, ?_⟩
    cases (a : Fate) with
    | ok => cases hx
    | failed msg => simp [publishes]
    | lostReply msg => simp [publishes]
  · obtain ⟨rfl, rfl, rfl⟩ := Went.ret_iff.mp h
    refine ⟨write_db a rfl, ?_⟩
    cases (a : Fate) with
    | ok => simp [publishes]
    | failed msg => cases hv
    | lostReply msg => cases hv

/-- A tenant's rows with a row of its own committed are other rows. -/
theorem candidatesOf_insert {row : Candidate} {db : Db}
    (hrow : row.tenantId = t)
    (hdb : w.db.writeAll [.insertCandidate row] = some db)
    (hsame : w'.db = db) : candidatesOf w' t ≠ candidatesOf w t := by
  rw [writeAll_one] at hdb
  obtain ⟨rows, hrows, hset⟩ := write_insertCandidate hdb
  have hmore : candidatesOf w' t = candidatesOf w t ++ [row] := by
    unfold candidatesOf
    rw [hsame, hset, Relational.Table.select_insert? hrows]
    simp [hrow]
  intro h
  rw [hmore] at h
  exact absurd h (by simp)

/-- An upload from its commit on. -/
theorem committed_went {row : Candidate} {bytes : List UInt8} {db : Db}
    (hrow : row.tenantId = t)
    (hdb : w.db.writeAll [.insertCandidate row] = some db)
    (h : Went (machine env) ((call (.commit [.insertCandidate row])).bind
      fun _ => (call (.refreshCandidate row.id)).bind fun refreshed =>
        (uploadResumeAndEnqueue env row.id t bytes).bind
          fun _ => ret refreshed) w as r w') : UploadEnds t w as r w' := by
  have hwrite : ∀ a : Fate, (machine env).perform
      (.commit [.insertCandidate row]) a w = w.write { w with db := db } a := by
    intro a
    show w.commit _ a = _
    unfold World.commit
    rw [hdb]
  rcases h.call with
    ⟨rfl, rfl, rfl⟩ | ⟨a, as₂, -, rfl, ⟨x, hx, rfl, rfl, rfl⟩ | ⟨v, hv, h⟩⟩
  · exact .early (by simp) rfl
  · rw [hwrite a] at hx ⊢
    cases (a : Fate) with
    | ok => cases hx
    | failed msg => exact .early (by simp [commits, Fate.applied]) rfl
    | lostReply msg =>
        refine .charged ?_ ?_ (fun c hc => nomatch hc)
          (candidatesOf_insert hrow hdb rfl)
        · simp [commits, Fate.applied]
        · simp [publishes]
  · rw [hwrite a] at hv h
    cases (a : Fate) with
    | failed msg => cases hv
    | lostReply msg => cases hv
    | ok =>
        obtain ⟨hsame, hiff⟩ := tail_went h
        by_cases hpub : Saw publishes as₂
        · obtain ⟨c, rfl⟩ := hiff.mp hpub
          exact .accepted (by simp [hpub])
        · refine .charged ?_ ?_ (fun c hc => hpub (hiff.mpr ⟨c, hc⟩))
            (candidatesOf_insert hrow hdb hsame)
          · simp [commits, Fate.applied]
          · simp [publishes, hpub]

theorem enqueue_ends {bytes : List UInt8}
    (h : Went (machine env) (enqueueResumeUpload env t bytes) w as r w') :
    UploadEnds t w as r w' := by
  unfold enqueueResumeUpload CandidateRepository.add at h
  simp only [bind_eq, pure_eq, bind_assoc, ret_bind] at h
  refine UploadEnds.call (fun _ => rfl) (fun _ => rfl) (fun _ => rfl) ?_ h
  intro id a as₂ _ h
  refine UploadEnds.call (fun _ => rfl) (fun _ => rfl) ?_ ?_ h
  · intro b
    cases b <;> rfl
  intro now b as₃ _ h
  refine UploadEnds.call (fun _ => rfl) (fun _ => rfl) (fun _ => rfl) ?_ h
  intro u c as₄ hflush h
  obtain ⟨db, hdb, -⟩ := commit_ok hflush
  exact committed_went rfl hdb h

end

-- ============================================================ the whole route

theorem reads_silent (g : Given (machine env)) (h : readsOf t g.act) :
    commits g = false ∧ publishes g = false := by
  obtain ⟨e, a⟩ := g
  cases e <;> first | exact ⟨rfl, rfl⟩ | exact h.elim

/-- What is answered in front without a commit or a message. -/
theorem UploadEnds.behind {as₀ : List (Given (machine env))}
    {r : Option (Except Exn Candidate)} (h : UploadEnds t w as r w')
    (hno : ¬ Saw commits as₀) (hno' : ¬ Saw publishes as₀) :
    UploadEnds t w (as₀ ++ as) r w' := by
  cases h with
  | early hc hdb => exact .early (by simp [hno, hc]) hdb
  | charged hc hp hr hrows =>
      exact .charged (by simp [hc]) (by simp [hno', hp]) hr hrows
  | accepted hp => exact .accepted (by simp [hp])

theorem upload_ends {file : UploadFile} {r : Option (Except Exn Candidate)}
    (h : Went (machine env) (uploadResume env t file) w as r w') :
    UploadEnds t w as r w' := by
  have huses : (enforceQuota env t).Uses (readsOf t) :=
    uses_enforceQuota rfl (fun _ => trivial) trivial fun _ => rfl
  unfold uploadResume at h
  rcases h.bind with
    ⟨t', as₁, w₁, as₂, rfl, hgate, hrest⟩ | ⟨x, rfl, hgate⟩ | ⟨rfl, hgate⟩
  · obtain rfl := hgate.same_world huses fun e a w he => readsOf_same he a w
    obtain rfl : t' = t := hgate.returns (returns_enforceQuota t)
    have hno := hgate.not_saw huses fun g hg => (reads_silent g hg).1
    have hno' := hgate.not_saw huses fun g hg => (reads_silent g hg).2
    refine UploadEnds.behind ?_ hno hno'
    split at hrest
    · obtain ⟨rfl, rfl, rfl⟩ := Went.raise_iff.mp hrest
      exact .early (by simp) rfl
    · exact enqueue_ends hrest
  · obtain rfl := hgate.same_world huses fun e a w he => readsOf_same he a w
    exact .early (hgate.not_saw huses fun g hg => (reads_silent g hg).1) rfl
  · obtain rfl := hgate.same_world huses fun e a w he => readsOf_same he a w
    exact .early (hgate.not_saw huses fun g hg => (reads_silent g hg).1) rfl

/-- An upload that is not accepted leaves the tenant's rows and every later
answer of the gate and the list as they were, unless the commit of its
row took effect and its message was not published. -/
theorem failed_uploads (env : Env) (t : UUID) (file : UploadFile) (w : World)
    (as : List (Given (machine env))) (r : Option (Except Exn Candidate))
    (w' : World) (h : Went (machine env) (uploadResume env t file) w as r w') :
    CostsNothing env t w r w' ↔ ¬ Saw commits as ∨ Saw publishes as :=
  (upload_ends h).costs_iff

-- ================================================================== samples

/-- An outside where the session loses its connection at the commit. -/
def lostSession : Oracle (machine sampleEnv)
  | _, .commit _ => some (Fate.failed "connection lost")
  | n, e => sampleOracle n e

/-- An outside where the bucket takes no file. -/
def noBucket : Oracle (machine sampleEnv)
  | _, .putObject .. => some (Fate.failed "503")
  | n, e => sampleOracle n e

/-- An upload whose commit fails costs nothing. -/
theorem failed_uploads_sample : ∃ as x w',
    Went (machine sampleEnv) (uploadResume sampleEnv sampleTenant samplePdf)
      World.empty as (some (.error x)) w'
    ∧ SameFor sampleEnv sampleTenant World.empty w' := by
  have hwent := Went.of_run (M := machine sampleEnv) (O := lostSession) (n := 0)
    (p := uploadResume sampleEnv sampleTenant samplePdf) (w := World.empty)
    (r := some (.error (.external "connection lost")))
    (by decide +kernel) (by decide +kernel)
  have hno : ¬ Saw commits ((uploadResume sampleEnv sampleTenant samplePdf).run
      (M := (machine sampleEnv).recorded) lostSession 0 (World.empty, [])).2.2 := by
    unfold Saw
    decide +kernel
  have hfree := (failed_uploads _ _ _ _ _ _ _ hwent).mpr (.inl hno)
  exact ⟨_, _, _, hwent, hfree fun c hc => nomatch hc⟩

/-- The bucket takes no file, after the row was committed: the request
fails, the row stays, and with a limit of one the tenant's next upload is
turned away. -/
theorem failed_upload_charged : ∃ as x w',
    Went (machine sampleEnv) (uploadResume sampleEnv sampleTenant samplePdf)
      World.empty as (some (.error x)) w'
    ∧ candidatesOf World.empty sampleTenant = []
    ∧ candidatesOf w' sampleTenant = [sampleRow]
    ∧ ((enforceQuota sampleEnv sampleTenant).run sampleOracle 0
        World.empty).1 = some (.ok sampleTenant)
    ∧ ((enforceQuota sampleEnv sampleTenant).run sampleOracle 0 w').1
      = some (.error (freeTierExceeded sampleEnv)) := by
  have hwent := Went.of_run (M := machine sampleEnv) (O := noBucket) (n := 0)
    (p := uploadResume sampleEnv sampleTenant samplePdf) (w := World.empty)
    (r := some (.error (.external "503")))
    (by decide +kernel) (by decide +kernel)
  refine ⟨_, _, _, hwent, ?_, ?_, ?_, ?_⟩ <;> decide +kernel

end ResumeScreening.Failures
