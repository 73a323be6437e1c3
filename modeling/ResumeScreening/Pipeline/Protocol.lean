/-
The ingestion pipeline as a protocol: what a thread of the service has
done so far, as far as candidate rows, vectors, files and messages are
concerned, and which of its actions move it on.

# Phases

A request is `idle` until it draws an identifier. `createCandidate`
then goes `named → drafted → stored → idle`, an upload
`named → drafted → placed → kept → sent`, a job
`named → draftedJob → storedJob → idle`. A worker holds a `batch`; its
first message goes `fetched → loaded → marked` and from there to
`discarded` (a bad resume) or `parsed → indexing → finished →
reported`. `batch (m :: ms)` is also where a message ends up whose
handling is over but not yet counted.

# Pinned phases

In some phases the thread has exactly one action left that it can
perform next (`Phase.due`). Conditions on a run speak about the next
action of a thread, invariants about its phase; `Tracks.next_of_due`
joins the two.
-/
import ResumeScreening.Model.Service

namespace ResumeScreening.Pipeline

open Effect

-- ========================================================== quiet actions

/-- A write to no candidate and no job. -/
def elsewhere : Write → Bool
  | .insertPlan _ | .insertSubscription _ | .updateSubscription ..
  | .insertMatchResult _ => true
  | _ => false

/-- An action that leaves candidates, jobs, vectors, files, messages,
statuses and drawn identifiers alone. -/
def quiet : Act → Bool
  | .commit pending => pending.all elsewhere
  | .uuid4 | .upsert .. | .putObject .. | .sendMessage .. | .receiveMessage
  | .deleteMessage .. | .updateItem .. => false
  | _ => true

-- ================================================================= phases

/-- A message in hand: the tenant, the candidate and the file its
handling has read. -/
structure Task where
  message : Message
  rest : List Message
  tenantId : UUID
  candidateId : UUID
  text : String
  bytes : List UInt8

inductive Phase
  | idle
  | named (id : UUID)
  | drafted (row : Candidate)
  | stored (row : Candidate)
  | placed (row : Candidate)
  | kept (row : Candidate)
  | sent (row : Candidate)
  | draftedJob (row : Job)
  | storedJob (row : Job)
  | batch (ms : List Message)
  | fetched (m : Message) (ms : List Message) (bytes : List UInt8)
  | loaded (k : Task) (row : Candidate)
  | marked (k : Task) (row : Candidate)
  | rejected (k : Task) (row : Candidate) (text : String)
  | discarded (k : Task)
  | parsed (k : Task) (row : Candidate) (text : String) (p : ParsedResume)
  | indexing (k : Task) (row : Candidate) (text : String) (p : ParsedResume)
  | finished (k : Task)
  | reported (k : Task)

/-- The row with its vector's id, as the last write of a create has
it. -/
def withVector (row : Candidate) : Candidate :=
  { row with pineconeId := some (candidateVectorId row.id.str) }

def jobWithVector (row : Job) : Job :=
  { row with pineconeId := some (jobVectorId row.id.str) }

/-- The row a handling ends with. -/
def indexed (row : Candidate) (p : ParsedResume) (text : String) :
    Candidate :=
  withVector (filled row p text)

def processingWrites (row : Candidate) : List Write :=
  setStatus row .processing

def failedWrite (row : Candidate) : Write :=
  .updateCandidate row.id { status := some .failed }

def indexWrite (row : Candidate) (p : ParsedResume) (text : String) :
    Write :=
  .updateCandidate row.id (filledPatch (indexed row p text))

/-- The vector a handling, or a create, stores for a row. -/
def vectorOf (env : Env) (row : Candidate) : VectorRecord :=
  candidateVector row.id.str (env.embed (buildCandidateEmbedText row))
    [("full_name", Py.optOr row.fullName "")]

def jobVectorOf (env : Env) (row : Job) : VectorRecord :=
  jobVector row.id.str (env.embed (buildJobEmbedText row))
    [("title", row.title), ("company", Py.optOr row.company "")]

/-- The one action a thread can perform next, in the phases where there
is one. -/
def Phase.due : Phase → Option Act
  | .stored row => some (.commit [.insertCandidate (withVector row)])
  | .storedJob row => some (.commit [.insertJob (jobWithVector row)])
  | .loaded _ row => some (.commit (processingWrites row))
  | .rejected _ row _ => some (.commit [failedWrite row])
  | .indexing _ row text p => some (.commit [indexWrite row p text])
  | _ => none

/-- The message being handled and those after it, in the phases where
only the counter may be left to do. -/
def Phase.current : Phase → Option (Message × List Message)
  | .batch (m :: ms) => some (m, ms)
  | .fetched m ms _ => some (m, ms)
  | .marked k _ | .discarded k | .parsed k .. | .finished k | .reported k =>
      some (k.message, k.rest)
  | _ => none

/-- The identifier a request has drawn and not yet put a file under. -/
def Phase.owns : Phase → Option UUID
  | .named id => some id
  | .drafted row | .stored row | .placed row => some row.id
  | .draftedJob row | .storedJob row => some row.id
  | _ => none

/-- The phases before the owned identifier's row is committed. -/
def Phase.unborn : Phase → Bool
  | .placed _ => false
  | _ => true

-- ================================================================== moves

/-- The fields of a message body, as the worker reads them. -/
structure Names (body : Body) (tenantId candidateId : UUID)
    (text : String) : Prop where
  object : ∃ fields tenantText, body = .object fields
    ∧ fields.lookup "candidate_id" = some (.text text)
    ∧ fields.lookup "tenant_id" = some (.text tenantText)
    ∧ UUID.parse tenantText = some tenantId
  parse : UUID.parse text = some candidateId

/-- Where a message body says its file is. -/
def Locates (body : Body) (bucket key : String) : Prop :=
  ∃ fields, body = .object fields
    ∧ fields.lookup "s3_bucket" = some (.text bucket)
    ∧ fields.lookup "s3_key" = some (.text key)

/-- The text a file holds, where it holds any. -/
def Reads (env : Env) (bytes : List UInt8) (text : String) : Prop :=
  extractTextFromPdf env bytes = .ok text ∧ text ≠ ""

/-- Where a write leads: `no` covers a write that was applied without
its reply getting back. -/
def after {α : Type} (r : Except Exn α) (yes no : Phase) : Phase :=
  match r with
  | .ok _ => yes
  | .error _ => no

/-- What is read off the phase a write leads to is read off one of its
two outcomes. -/
theorem after_view {α β : Type} (f : Phase → Option β) {r : Except Exn α}
    {yes no : Phase} {b : β} (h : f (after r yes no) = some b) :
    (f yes = some b ∧ ∃ v, r = .ok v) ∨ f no = some b := by
  cases r with
  | ok v => exact .inl ⟨h, v, rfl⟩
  | error x => exact .inr h

/-- What neither outcome of a write shows is not shown. -/
theorem after_elim {α β : Type} (f : Phase → Option β) {r : Except Exn α}
    {yes no : Phase} {b : β} {goal : Prop} (h : f (after r yes no) = some b)
    (hyes : f yes = none) (hno : f no = none) : goal := by
  rcases after_view f h with ⟨h, -⟩ | h
  · rw [hyes] at h
    cases h
  · rw [hno] at h
    cases h

/-- Where a message whose handling failed leads. -/
def Task.over (k : Task) : Phase := .batch (k.message :: k.rest)

inductive Move (env : Env) : Op → Phase → Event sig → Phase → Prop
  | quiet {op ph e r} : quiet e = true → ph.due = none →
      Move env op ph ⟨e, r⟩ ph
  | draw {op u} : Move env op .idle ⟨.uuid4, .ok u⟩ (.named u)
  -- uploads
  | draft {t file id now} :
      Move env (.uploadResume t file) (.named id) ⟨.transactionNow, .ok now⟩
        (.drafted (placeholder t id now))
  | place {t file row r} :
      Move env (.uploadResume t file) (.drafted row)
        ⟨.commit [.insertCandidate row], r⟩ (after r (.placed row) .idle)
  | keep {t file row r} :
      Move env (.uploadResume t file) (.placed row)
        ⟨.putObject env.s3BucketName (uploadKey row.id) file.bytes, r⟩
        (after r (.kept row) .idle)
  | send {t file row r} :
      Move env (.uploadResume t file) (.kept row)
        ⟨.sendMessage (uploadBody env t row.id), r⟩
        (after r (.sent row) .idle)
  -- creates
  | draftCreate {t payload id now} :
      Move env (.createCandidate t payload) (.named id)
        ⟨.transactionNow, .ok now⟩
        (.drafted (createdCandidate t payload id now))
  | store {t payload row r} :
      Move env (.createCandidate t payload) (.drafted row)
        ⟨.upsert t.str (vectorOf env row), r⟩
        (after r (.stored row) (.drafted row))
  | create {t payload row r} :
      Move env (.createCandidate t payload) (.stored row)
        ⟨.commit [.insertCandidate (withVector row)], r⟩ .idle
  | draftJob {t payload id now} :
      Move env (.createJob t payload) (.named id) ⟨.transactionNow, .ok now⟩
        (.draftedJob (createdJob t payload id now))
  | storeJob {t payload row r} :
      Move env (.createJob t payload) (.draftedJob row)
        ⟨.upsert t.str (jobVectorOf env row), r⟩
        (after r (.storedJob row) (.draftedJob row))
  | createJob {t payload row r} :
      Move env (.createJob t payload) (.storedJob row)
        ⟨.commit [.insertJob (jobWithVector row)], r⟩ .idle
  -- workers
  | receive {ms} : Move env .worker .idle ⟨.receiveMessage, .ok ms⟩ (.batch ms)
  | receiveFailed {x} :
      Move env .worker .idle ⟨.receiveMessage, .error x⟩ .idle
  | count {ph m ms o r} : ph.current = some (m, ms) →
      Move env .worker ph ⟨.countOutcome o, r⟩ (.batch ms)
  | fetch {m ms bucket key bytes} : Locates m.body bucket key →
      Move env .worker (.batch (m :: ms)) ⟨.getObject bucket key, .ok bytes⟩
        (.fetched m ms bytes)
  | load {m ms bytes t c text row} : Names m.body t c text →
      Move env .worker (.fetched m ms bytes)
        ⟨.selectCandidate t c, .ok (some row)⟩
        (.loaded ⟨m, ms, t, c, text, bytes⟩ row)
  | mark {k row r} :
      Move env .worker (.loaded k row) ⟨.commit (processingWrites row), r⟩
        (after r (.marked k row) k.over)
  | parse {k row text p} : Reads env k.bytes text →
      Move env .worker (.marked k row) ⟨.parseResume text, .ok p⟩
        (.parsed k row text p)
  | reject {k row text msg} : Reads env k.bytes text →
      Move env .worker (.marked k row)
        ⟨.parseResume text, .error (.valueError msg)⟩ (.rejected k row text)
  | discardFile {k row r} : (∀ text, ¬ Reads env k.bytes text) →
      Move env .worker (.marked k row) ⟨.commit [failedWrite row], r⟩
        (after r (.discarded k) (.marked k row))
  | discardAnswer {k row text r} :
      Move env .worker (.rejected k row text) ⟨.commit [failedWrite row], r⟩
        (after r (.discarded k) k.over)
  | index {k row text p r} :
      Move env .worker (.parsed k row text p)
        ⟨.upsert k.tenantId.str (vectorOf env (filled row p text)), r⟩
        (after r (.indexing k row text p) (.parsed k row text p))
  | finish {k row text p r} :
      Move env .worker (.indexing k row text p)
        ⟨.commit [indexWrite row p text], r⟩
        (after r (.finished k) k.over)
  | report {k r} :
      Move env .worker (.finished k) ⟨.updateItem k.text "ai-processed", r⟩
        (after r (.reported k) (.finished k))
  | delete {k ph r} : ph = .discarded k ∨ ph = .reported k →
      Move env .worker ph ⟨.deleteMessage k.message.receiptHandle, r⟩
        (after r k.over ph)

/-- How a thread may end: never with its due action undone; a worker's
pass with an empty batch; an upload that answers with its message
sent. -/
structure Final (op : Op) (ph : Phase) (r : Except Exn Resp) : Prop where
  due : ph.due = none
  pass : op = .worker → ∀ x, r = .ok x → ph = .batch []
  upload : ∀ t file c, op = .uploadResume t file →
    r = .ok (.candidate c) → ∃ row, ph = .sent row ∧ c.id = row.id

/-- The protocol of the pipeline. -/
def protocol (env : Env) : Protocol (service env) Phase where
  start _ := .idle
  next := Move env
  final := Final

end ResumeScreening.Pipeline
