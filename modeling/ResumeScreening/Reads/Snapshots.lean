/-
The requests that only read.

`answered` is what each of them says of one state of the database: a
tenant's rows, newest first, or one of its rows, or that it has no such
row. Whatever else is going on, a request is answered from one such
state, between the one it arrived after and the one it is answered in
(`answered_of_ended`), and a listing is all of the tenant's rows of that
state, each once (`listing_candidates`, `listing_jobs`).
-/
import ResumeScreening.Lib.Moments
import ResumeScreening.Lib.Stable
import ResumeScreening.Lib.Table
import ResumeScreening.Model.Service

namespace ResumeScreening.Reads

open Effect (Prog Guard Run Sys)

variable {env : Env} {w : World}

/-- The tenant's candidates, newest first. -/
def candidatesOf (db : Db) (t : UUID) : List Candidate :=
  newestFirst Candidate.createdAt
    (db.candidates.select fun r => r.tenantId == t)

def jobsOf (db : Db) (t : UUID) : List Job :=
  newestFirst Job.createdAt (db.jobs.select fun r => r.tenantId == t)

/-- The answer to a request for one row. -/
def rowOr404 {α : Type} (resp : α → Resp) (missing : String) :
    Option α → Except Exn Resp
  | some row => .ok (resp row)
  | none => .error (.http 404 missing)

/-- What a request that only reads is answered from one state of the
database. -/
def answered (db : Db) : Op → Option (Except Exn Resp)
  | .listCandidates t => some (.ok (.candidates (candidatesOf db t)))
  | .listJobs t => some (.ok (.jobs (jobsOf db t)))
  | .getCandidate t c => some (rowOr404 .candidate "Candidate not found"
      (db.candidates.find? fun r => r.id == c && r.tenantId == t))
  | .getJob t j => some (rowOr404 .job "Job not found"
      (db.jobs.find? fun r => r.id == j && r.tenantId == t))
  | _ => none

/-- The operation is one action that reads, and what is made of its reply
is what `answered` says, unless it fails. -/
structure ReadsOnly (env : Env) (op : Op) (e : Act)
    (f : Except Exn e.Ret → Except Exn Resp) : Prop where
  reads : (serve env op).OneRead e f
  told : ∀ (w : World) (a : e.Ans),
    answered w.db op = some (f (perform env e a w).1)
      ∨ ∃ msg, f (perform env e a w).1 = .error (.external msg)

/-- What is made of the rows a listing is told. -/
def listed {α : Type} (resp : List α → Resp) :
    Except Exn (List α) → Except Exn Resp
  | .ok rows => .ok (resp rows)
  | .error x => .error x

/-- What is made of the row a lookup is told; a missing one is a 404. -/
def found {α : Type} (resp : α → Resp) (missing : String) :
    Except Exn (Option α) → Except Exn Resp
  | .ok (some row) => .ok (resp row)
  | .ok none => .error (.http 404 missing)
  | .error (.resourceNotFound msg) => .error (.http 404 msg)
  | .error x => .error x

theorem listCandidates_reads (t : UUID) :
    ReadsOnly env (.listCandidates t) (.selectCandidates t)
      (listed .candidates) where
  reads := Prog.reads_act fun r => by cases r <;> rfl
  told w a := by
    cases a with
    | ok _ => exact .inl rfl
    | error msg => exact .inr ⟨msg, rfl⟩

theorem listJobs_reads (t : UUID) :
    ReadsOnly env (.listJobs t) (.selectJobs t) (listed .jobs) where
  reads := Prog.reads_act fun r => by cases r <;> rfl
  told w a := by
    cases a with
    | ok _ => exact .inl rfl
    | error msg => exact .inr ⟨msg, rfl⟩

theorem getCandidate_reads (t c : UUID) :
    ReadsOnly env (.getCandidate t c) (.selectCandidate t c)
      (found .candidate "Candidate not found") where
  reads := Prog.reads_act fun r => by
    rcases r with x | _ | row
    · cases x <;> rfl
    · rfl
    · rfl
  told w a := by
    cases a with
    | error msg => exact .inr ⟨msg, rfl⟩
    | ok _ =>
        refine .inl ?_
        show some (rowOr404 _ _ (w.db.candidates.find? fun r =>
            r.id == c && r.tenantId == t))
          = some (found _ _ (.ok (w.db.candidates.find? fun r =>
            r.id == c && r.tenantId == t)))
        cases w.db.candidates.find? fun r => r.id == c && r.tenantId == t with
        | none => rfl
        | some row => rfl

theorem getJob_reads (t j : UUID) :
    ReadsOnly env (.getJob t j) (.selectJob t j)
      (found .job "Job not found") where
  reads := Prog.reads_act fun r => by
    rcases r with x | _ | row
    · cases x <;> rfl
    · rfl
    · rfl
  told w a := by
    cases a with
    | error msg => exact .inr ⟨msg, rfl⟩
    | ok _ =>
        refine .inl ?_
        show some (rowOr404 _ _ (w.db.jobs.find? fun r =>
            r.id == j && r.tenantId == t))
          = some (found _ _ (.ok (w.db.jobs.find? fun r =>
            r.id == j && r.tenantId == t)))
        cases w.db.jobs.find? fun r => r.id == j && r.tenantId == t with
        | none => rfl
        | some row => rfl

theorem readsOnly (env : Env) {op : Op} (h : (answered Db.empty op).isSome) :
    ∃ e f, ReadsOnly env op e f := by
  cases op with
  | listCandidates t => exact ⟨_, _, listCandidates_reads t⟩
  | getCandidate t c => exact ⟨_, _, getCandidate_reads t c⟩
  | listJobs t => exact ⟨_, _, listJobs_reads t⟩
  | getJob t j => exact ⟨_, _, getJob_reads t j⟩
  | _ => cases h

-- ====================================================================== runs

variable {ok : Guard (service env)} {s₀ s : Sys (service env)} {op : Op}
  {i : Nat}

/-- A request that only reads is answered from one state of the run, between
the one it arrived after and the one it has ended in, or fails with the
database. -/
theorem answered_of_ended (h : Run ok s₀ s) (hop : (answered Db.empty op).isSome)
    (hi : s₀.threads.length ≤ i) {x : Except Exn Resp} (hend : s.Ended i op x) :
    ∃ u, Run ok s₀ u ∧ Run ok u s
      ∧ (answered u.world.db op = some x ∨ ∃ msg, x = .error (.external msg)) := by
  obtain ⟨e, f, hreads⟩ := readsOnly env hop
  have hloop : op.loops = false := by
    cases op with
    | worker => cases hop
    | _ => rfl
  obtain ⟨u, a, hu, hus, -, rfl⟩ := h.read hreads.reads hloop hi hend
  exact ⟨u, hu, hus, hreads.told u.world a⟩

/-- A list of a tenant's rows, newest first, each once. -/
structure Listing {α : Type} (created : α → Py.DateTime) (mem : α → Prop)
    (rows : List α) : Prop where
  exactly : ∀ r, r ∈ rows ↔ mem r
  once : rows.Nodup
  sorted : rows.Pairwise fun a b => (created b).micros ≤ (created a).micros

theorem listing_newestFirst {α : Type} (created : α → Py.DateTime)
    {rows : List α} (h : rows.Nodup) :
    Listing created (· ∈ rows) (newestFirst created rows) where
  exactly _ := List.mem_mergeSort
  once := (List.mergeSort_perm rows _).nodup_iff.mpr h
  sorted := (Sorting.stable_mergeSort (fun r => (created r).micros) rows).sorted

theorem listing_candidates (db : Db) (t : UUID) :
    Listing Candidate.createdAt
      (fun r => r ∈ db.candidates.rows ∧ r.tenantId = t) (candidatesOf db t) := by
  have hnodup : (db.candidates.select fun r => r.tenantId == t).Nodup :=
    (db.candidates.nodup fun r => by simp [candidateSchema]).filter _
  have h := listing_newestFirst Candidate.createdAt hnodup
  refine ⟨fun r => ?_, h.once, h.sorted⟩
  rw [candidatesOf, h.exactly, Relational.Table.mem_select, beq_iff_eq]

theorem listing_jobs (db : Db) (t : UUID) :
    Listing Job.createdAt (fun j => j ∈ db.jobs.rows ∧ j.tenantId = t)
      (jobsOf db t) := by
  have hnodup : (db.jobs.select fun j => j.tenantId == t).Nodup :=
    (db.jobs.nodup fun j => by simp [jobSchema]).filter _
  have h := listing_newestFirst Job.createdAt hnodup
  refine ⟨fun j => ?_, h.once, h.sorted⟩
  rw [jobsOf, h.exactly, Relational.Table.mem_select, beq_iff_eq]

/-- A lookup says of one state whether the tenant has the row. -/
structure Lookup {α : Type} (mem : α → Prop) (resp : α → Resp)
    (missing : String) (x : Except Exn Resp) : Prop where
  found : ∀ r, x = .ok r → ∃ row, mem row ∧ r = resp row
  missing : x = .error (.http 404 missing) → ∀ row, ¬ mem row

theorem lookup_rowOr404 {ρ : Type} {σ : Relational.Schema ρ}
    (tab : Relational.Table σ) (p : ρ → Bool) (resp : ρ → Resp)
    (missing : String) :
    Lookup (fun r => r ∈ tab.rows ∧ p r = true) resp missing
      (rowOr404 resp missing (tab.find? p)) := by
  cases hfind : tab.find? p with
  | some row =>
      refine ⟨fun r hr => ?_, fun h => by cases h⟩
      cases hr
      exact ⟨row, Relational.Table.find?_mem hfind, rfl⟩
  | none =>
      refine ⟨fun r hr => (by cases hr), fun _ row hrow => ?_⟩
      have hno := List.find?_eq_none.mp hfind row hrow.1
      exact hno hrow.2

end ResumeScreening.Reads
