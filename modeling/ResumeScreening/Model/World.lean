/-
The world the service runs in, and what one action does to it.

Five stores: Postgres (`Db`, committed rows only), the Pinecone index,
the S3 bucket, the SQS queue with its dead-letter queue, and the
DynamoDB status table. A session's pending statements are not here:
they live in the program holding the session until it commits them, so
another session never sees them and a crash loses them.

# Actions and their fates

Every remote call may fail, and a write may also take effect and lose
its reply (`Fate.lostReply`): the caller sees an exception, the store
has the write. `Ans` is what the outside chooses for an action — a
fate, a fresh identifier, a language-model answer, the messages a
receive call returns — and `admits` is what the outside promises about
that choice: identifiers are fresh, a receive call returns at most five
distinct receivable messages, a validated score lies in its range.

A write Postgres' constraints forbid fails whatever the fate.
-/
import ResumeScreening.Lib.Prog
import ResumeScreening.Lib.Table
import ResumeScreening.Model.Schemas

namespace ResumeScreening

open Relational (Schema Table)
open Py (Dict DateTime)

-- ============================================================== constraints

/-- A text Postgres can store: no NUL character. -/
def storable (s : String) : Bool := !s.toList.contains (Char.ofNat 0)

/-- A value of a `String(n)` column. -/
def fits (n : Nat) (s : String) : Bool := decide (s.length ≤ n) && storable s

/-- A value of an `Integer` column. -/
def fitsInt (n : Int) : Bool := decide (-2147483648 ≤ n ∧ n ≤ 2147483647)

/-- A JSONB object of strings. -/
def storableDict (d : Dict) : Bool :=
  d.all fun kv => storable kv.1 && kv.2.all storable

/-- Two optional values that a unique column forbids together: `NULL`s
never clash. -/
def sameUnique (a b : Option String) : Bool := a.isSome && a == b

theorem sameUnique_symm (a b : Option String) :
    sameUnique a b = sameUnique b a := by
  unfold sameUnique
  by_cases h : a = b
  · rw [h]
  · rw [beq_false_of_ne h, beq_false_of_ne (Ne.symm h), Bool.and_false,
      Bool.and_false]

theorem beq_symm {α : Type} [DecidableEq α] (a b : α) :
    (a == b) = (b == a) := by
  by_cases h : a = b
  · rw [h]
  · rw [beq_false_of_ne h, beq_false_of_ne (Ne.symm h)]

def candidateSchema : Schema Candidate where
  valid c :=
    c.fullName.all (fits 255) && c.email.all (fits 255)
      && c.phone.all (fits 50) && c.summary.all storable
      && c.skills.all storable && c.experience.all storableDict
      && c.education.all storableDict && c.rawText.all storable
      && c.pineconeId.all (fits 255)
  clash a b := a.id == b.id || sameUnique a.pineconeId b.pineconeId
  clash_symm a b := by
    rw [beq_symm a.id b.id, sameUnique_symm a.pineconeId b.pineconeId]

def jobSchema : Schema Job where
  valid j :=
    fits 255 j.title && j.company.all (fits 255) && storable j.description
      && j.requiredSkills.all storable && j.preferredSkills.all storable
      && j.pineconeId.all (fits 255)
  clash a b := a.id == b.id || sameUnique a.pineconeId b.pineconeId
  clash_symm a b := by
    rw [beq_symm a.id b.id, sameUnique_symm a.pineconeId b.pineconeId]

def planSchema : Schema Plan where
  valid p :=
    fits 100 p.name && fitsInt p.price && fits 3 p.currency
      && p.monthlyResumeQuota.all fitsInt && fitsInt p.durationMonths
      && fits 255 p.razorpayPlanId
  clash a b := a.id == b.id || a.razorpayPlanId == b.razorpayPlanId
  clash_symm a b := by
    rw [beq_symm a.id b.id, beq_symm a.razorpayPlanId b.razorpayPlanId]

def subscriptionSchema : Schema Subscription where
  valid s := fits 20 s.status && fits 255 s.razorpaySubscriptionId
  clash a b :=
    a.id == b.id || a.tenantId == b.tenantId
      || a.razorpaySubscriptionId == b.razorpaySubscriptionId
  clash_symm a b := by
    rw [beq_symm a.id b.id, beq_symm a.tenantId b.tenantId,
      beq_symm a.razorpaySubscriptionId b.razorpaySubscriptionId]

/-- Two candidates with one identifier are one row. -/
theorem candidate_unique {t : Table candidateSchema} {a b : Candidate}
    (ha : a ∈ t.rows) (hb : b ∈ t.rows) (h : a.id = b.id) : a = b :=
  t.eq_of_clash ha hb (by simp [candidateSchema, h])

theorem job_unique {t : Table jobSchema} {a b : Job} (ha : a ∈ t.rows)
    (hb : b ∈ t.rows) (h : a.id = b.id) : a = b :=
  t.eq_of_clash ha hb (by simp [jobSchema, h])

theorem subscription_unique {t : Table subscriptionSchema}
    {a b : Subscription} (ha : a ∈ t.rows) (hb : b ∈ t.rows)
    (h : a.id = b.id) : a = b :=
  t.eq_of_clash ha hb (by simp [subscriptionSchema, h])

theorem razorpay_unique {t : Table subscriptionSchema} {a b : Subscription}
    (ha : a ∈ t.rows) (hb : b ∈ t.rows)
    (h : a.razorpaySubscriptionId = b.razorpaySubscriptionId) : a = b :=
  t.eq_of_clash ha hb (by simp [subscriptionSchema, h])

-- ================================================================= database

/-- The columns of a `candidates` row a session has assigned since it
last loaded it: the `SET` clause of the `UPDATE` its flush emits. -/
structure CandidatePatch where
  fullName : Option (Option String) := none
  email : Option (Option String) := none
  phone : Option (Option String) := none
  summary : Option (Option String) := none
  skills : Option (List String) := none
  experience : Option (List Dict) := none
  education : Option (List Dict) := none
  rawText : Option (Option String) := none
  pineconeId : Option (Option String) := none
  status : Option Status := none
deriving DecidableEq

def CandidatePatch.apply (set : CandidatePatch) (c : Candidate) : Candidate :=
  { c with
    fullName := set.fullName.getD c.fullName
    email := set.email.getD c.email
    phone := set.phone.getD c.phone
    summary := set.summary.getD c.summary
    skills := set.skills.getD c.skills
    experience := set.experience.getD c.experience
    education := set.education.getD c.education
    rawText := set.rawText.getD c.rawText
    pineconeId := set.pineconeId.getD c.pineconeId
    status := set.status.getD c.status }

/-- The same for a `subscriptions` row. -/
structure SubscriptionPatch where
  planId : Option UUID := none
  status : Option String := none
  razorpaySubscriptionId : Option String := none
  currentPeriodEnd : Option (Option DateTime) := none
deriving DecidableEq

def SubscriptionPatch.apply (set : SubscriptionPatch) (s : Subscription) :
    Subscription :=
  { s with
    planId := set.planId.getD s.planId
    status := set.status.getD s.status
    razorpaySubscriptionId :=
      set.razorpaySubscriptionId.getD s.razorpaySubscriptionId
    currentPeriodEnd := set.currentPeriodEnd.getD s.currentPeriodEnd }

/-- One pending statement of a session. -/
inductive Write
  | insertCandidate (row : Candidate)
  | updateCandidate (id : UUID) (set : CandidatePatch)
  | insertJob (row : Job)
  | insertPlan (row : Plan)
  | insertSubscription (row : Subscription)
  | updateSubscription (id : UUID) (set : SubscriptionPatch)
  | insertMatchResult (row : MatchResult)
deriving DecidableEq

/-- The committed rows. -/
structure Db where
  candidates : Table candidateSchema
  jobs : Table jobSchema
  plans : Table planSchema
  subscriptions : Table subscriptionSchema
  matchResults : List MatchResult

def Db.empty : Db := ⟨.empty _, .empty _, .empty _, .empty _, []⟩

/-- Execute one statement; `none` where a constraint rejects it. -/
def Db.write (db : Db) : Write → Option Db
  | .insertCandidate row =>
      (db.candidates.insert? row).map fun t => { db with candidates := t }
  | .updateCandidate id set =>
      (db.candidates.update? (fun c => c.id == id) set.apply).map
        fun t => { db with candidates := t }
  | .insertJob row =>
      (db.jobs.insert? row).map fun t => { db with jobs := t }
  | .insertPlan row =>
      (db.plans.insert? row).map fun t => { db with plans := t }
  | .insertSubscription row =>
      (db.subscriptions.insert? row).map
        fun t => { db with subscriptions := t }
  | .updateSubscription id set =>
      (db.subscriptions.update? (fun s => s.id == id) set.apply).map
        fun t => { db with subscriptions := t }
  | .insertMatchResult row =>
      if storable row.explanation then
        some { db with matchResults := db.matchResults ++ [row] }
      else none

/-- Execute a session's pending statements in order, all or nothing. -/
def Db.writeAll (db : Db) : List Write → Option Db
  | [] => some db
  | w :: ws =>
      match db.write w with
      | some db' => db'.writeAll ws
      | none => none

-- ============================================================ other stores

/-- A vector of the Pinecone index. -/
structure VectorRecord where
  id : String
  values : List Rat
  metadata : List (String × String)
deriving DecidableEq

/-- A JSON value under a key of a message body. -/
inductive JsonValue
  | text (s : String)
  | other
deriving DecidableEq

/-- A message body: text that is not JSON, a JSON object, or another
JSON value. -/
inductive Body
  | malformed
  | object (fields : List (String × JsonValue))
  | value
deriving DecidableEq

/-- What a receive call hands a worker: the body and the receipt handle
of one message. -/
structure Message where
  receiptHandle : Nat
  body : Body
deriving DecidableEq

/-- A message the queue holds: how often it was received, whether its
visibility window has passed, and whether it sits on the dead-letter
queue. -/
structure Queued where
  message : Message
  receives : Nat := 0
  visible : Bool := true
  deadLetter : Bool := false
deriving DecidableEq

/-- The outcome labels of the worker's message counter. -/
inductive Outcome
  | success
  | contentError
  | transientError
  | unexpectedError
deriving DecidableEq

/-- The stores, the identifiers handed out so far by `uuid4` and by
Razorpay, and the worker's counters. -/
structure World where
  db : Db
  pinecone : String → String → Option VectorRecord
  s3 : String → String → Option (List UInt8)
  queue : List Queued
  nextReceipt : Nat
  dynamo : String → Option String
  usedIds : List UUID
  usedSubscriptionIds : List String
  outcomes : List Outcome

def World.empty : World where
  db := .empty
  pinecone _ _ := none
  s3 _ _ := none
  queue := []
  nextReceipt := 0
  dynamo _ := none
  usedIds := []
  usedSubscriptionIds := []
  outcomes := []

-- ================================================================== actions

/-- What the language model is asked about one candidate: the values
`generate_match_explanation` passes to the prompt. -/
structure MatchPrompt where
  jobTitle : String
  company : String
  jobDescription : String
  requiredSkills : String
  preferredSkills : String
  candidateName : Option String
  candidateSummary : String
  candidateSkills : String
  candidateExperience : String
  candidateEducation : String
deriving DecidableEq

/-- Every interaction of the service with the world. -/
inductive Act
  -- Postgres, through the session of the request or of the worker
  | selectCandidate (tenantId candidateId : UUID)
  | selectCandidates (tenantId : UUID)
  | selectJob (tenantId jobId : UUID)
  | selectJobs (tenantId : UUID)
  | selectSubscription (tenantId : UUID)
  | selectSubscriptionByRazorpayId (razorpayId : String)
  | getPlan (planId : UUID)
  | countCandidates (tenantId : UUID) (since : Option DateTime)
  | transactionNow
  | flush (pending : List Write)
  | commit (pending : List Write)
  | refreshCandidate (id : UUID)
  | refreshJob (id : UUID)
  | refreshSubscription (id : UUID)
  -- the process
  | uuid4
  | utcNow
  -- Ollama
  | embedQuery (text : String)
  | parseResume (text : String)
  | explainMatch (prompt : MatchPrompt)
  -- Pinecone
  | upsert (namespc : String) (vector : VectorRecord)
  | query (namespc : String) (vector : List Rat) (topK : Int)
  -- S3, SQS, DynamoDB
  | putObject (bucket key : String) (body : List UInt8)
  | getObject (bucket key : String)
  | sendMessage (body : Body)
  | receiveMessage
  | deleteMessage (receiptHandle : Nat)
  | updateItem (candidateId status : String)
  -- Razorpay
  | createRazorpaySubscription (razorpayPlanId : String)
  -- Prometheus
  | countOutcome (outcome : Outcome)
deriving DecidableEq

/-- One match of a vector query. -/
structure QueryMatch where
  candidateId : Option String
  score : Option Rat
deriving DecidableEq

/-- Razorpay's answer to a create call. -/
structure RazorpayResponse where
  id : String
  status : String
  shortUrl : String
deriving DecidableEq

/-- The type of an action's reply. -/
@[reducible] def Act.Ret : Act → Type
  | .selectCandidate .. => Option Candidate
  | .selectCandidates .. => List Candidate
  | .selectJob .. => Option Job
  | .selectJobs .. => List Job
  | .selectSubscription .. => Option Subscription
  | .selectSubscriptionByRazorpayId .. => Option Subscription
  | .getPlan .. => Option Plan
  | .countCandidates .. => Nat
  | .transactionNow => DateTime
  | .refreshCandidate .. => Candidate
  | .refreshJob .. => Job
  | .refreshSubscription .. => Subscription
  | .uuid4 => UUID
  | .utcNow => DateTime
  | .embedQuery .. => List Rat
  | .parseResume .. => ParsedResume
  | .explainMatch .. => MatchExplanation
  | .query .. => List QueryMatch
  | .getObject .. => List UInt8
  | .receiveMessage => List Message
  | .createRazorpaySubscription .. => RazorpayResponse
  | .flush .. | .commit .. | .upsert .. | .putObject .. | .sendMessage ..
  | .deleteMessage .. | .updateItem .. | .countOutcome .. => Unit

/-- The signature of the service's programs. -/
abbrev sig : Effect.Sig := ⟨Act, Act.Ret, Exn⟩

/-- A program of the service. -/
abbrev Py (α : Type) : Type := Effect.Prog sig α

/-- An exception out of a library: of the `ValueError` family or not. -/
inductive LibraryError
  | valueError (msg : String)
  | other (msg : String)
deriving DecidableEq

def LibraryError.exn : LibraryError → Exn
  | .valueError msg => .valueError msg
  | .other msg => .external msg

/-- Settings (app/config.py) and the two libraries that compute: pypdf's
page texts, and the embedding model taken as a function of the text. -/
structure Env where
  freeTierResumeLimit : Int
  freeTierResumeLimit_pos : 0 < freeTierResumeLimit
  vectorTopK : Int
  vectorTopK_pos : 0 < vectorTopK
  rankingTopN : Int
  rankingTopN_pos : 0 < rankingTopN
  s3BucketName : String
  pdfPages : List UInt8 → Except LibraryError (List String)
  embed : String → List Rat

/-- The fate of a remote write. -/
inductive Fate
  | ok
  | failed (msg : String)
  | lostReply (msg : String)
deriving DecidableEq

/-- The write reached its store. -/
def Fate.applied : Fate → Bool
  | .failed _ => false
  | _ => true

/-- What the outside chooses for an action. -/
@[reducible] def Act.Ans : Act → Type
  | .uuid4 => UUID
  | .utcNow => DateTime
  | .transactionNow => Except String DateTime
  | .parseResume .. => Except LibraryError ParsedResume
  | .explainMatch .. => Except LibraryError MatchExplanation
  | .query .. => Except String (List QueryMatch)
  | .receiveMessage => Except String (List Nat)
  | .createRazorpaySubscription .. => Except String RazorpayResponse
  | .flush .. | .commit .. | .upsert .. | .putObject .. | .sendMessage ..
  | .deleteMessage .. | .updateItem .. => Fate
  | .countOutcome .. => Unit
  | _ => Except String Unit

/-- May a receive call return this message? -/
def Queued.receivable (q : Queued) : Bool := q.visible && !q.deadLetter

/-- What the outside promises about its choice. -/
def admits (w : World) : (e : Act) → e.Ans → Bool
  | .uuid4, (u : UUID) => !w.usedIds.contains u
  | .receiveMessage, (a : Except String (List Nat)) =>
      match a with
      | .error _ => true
      | .ok handles =>
          decide (handles.length ≤ 5 ∧ handles.Nodup)
            && handles.all fun h =>
              w.queue.any fun q =>
                q.message.receiptHandle == h && q.receivable
  | .createRazorpaySubscription _, (a : Except String RazorpayResponse) =>
      match a with
      | .error _ => true
      | .ok r => !w.usedSubscriptionIds.contains r.id
  | .explainMatch _, (a : Except LibraryError MatchExplanation) =>
      match a with
      | .error _ => true
      | .ok m => decide (0 ≤ m.score ∧ m.score ≤ 100)
  | _, _ => true

-- ================================================================ semantics

/-- A read: it replies, or fails and tells nothing. -/
def World.read {α : Type} (w : World) (a : Except String Unit) (v : α) :
    Except Exn α × World :=
  match a with
  | .ok _ => (.ok v, w)
  | .error msg => (.error (.external msg), w)

/-- A read of something that may not be there. -/
def World.readOr {α : Type} (w : World) (a : Except String Unit)
    (v : Option α) : Except Exn α × World :=
  match a, v with
  | .ok _, some v => (.ok v, w)
  | .ok _, none => (.error (.external "not found"), w)
  | .error msg, _ => (.error (.external msg), w)

/-- A remote write taking `w` to `w'`. -/
def World.write (w w' : World) : Fate → Except Exn Unit × World
  | .ok => (.ok (), w')
  | .failed msg => (.error (.external msg), w)
  | .lostReply msg => (.error (.external msg), w')

/-- A commit: the statements run under the database's constraints. -/
def World.commit (w : World) (pending : List Write) (a : Fate) :
    Except Exn Unit × World :=
  match w.db.writeAll pending with
  | some db => w.write { w with db := db } a
  | none => (.error (.external "IntegrityError or DataError"), w)

/-- Hand out messages: each stays on the queue, invisible. -/
def World.receive (w : World) (handles : List Nat) : World :=
  { w with queue := w.queue.map fun q =>
      if handles.contains q.message.receiptHandle then
        { q with receives := q.receives + 1, visible := false }
      else q }

/-- Replace the value of a two-key store at one point. -/
def setAt {α : Type} (store : String → String → Option α) (a b : String)
    (v : α) : String → String → Option α :=
  fun a' b' => if a' = a ∧ b' = b then some v else store a' b'

/-- The rows of a select, most recently created first. -/
def newestFirst {α : Type} (created : α → DateTime) (rows : List α) :
    List α :=
  rows.mergeSort fun a b => decide ((created b).micros ≤ (created a).micros)

/-- What an answered action replies and does. -/
def perform (env : Env) : (e : Act) → e.Ans → World →
    Except Exn e.Ret × World
  | .selectCandidate t c, a, w =>
      w.read a (w.db.candidates.find? fun r => r.id == c && r.tenantId == t)
  | .selectCandidates t, a, w =>
      w.read a (newestFirst Candidate.createdAt
        (w.db.candidates.select fun r => r.tenantId == t))
  | .selectJob t j, a, w =>
      w.read a (w.db.jobs.find? fun r => r.id == j && r.tenantId == t)
  | .selectJobs t, a, w =>
      w.read a (newestFirst Job.createdAt
        (w.db.jobs.select fun r => r.tenantId == t))
  | .selectSubscription t, a, w =>
      w.read a (w.db.subscriptions.find? fun r => r.tenantId == t)
  | .selectSubscriptionByRazorpayId rid, a, w =>
      w.read a (w.db.subscriptions.find?
        fun r => r.razorpaySubscriptionId == rid)
  | .getPlan p, a, w => w.read a (w.db.plans.find? fun r => r.id == p)
  | .countCandidates t since, a, w =>
      w.read a (w.db.candidates.count fun r => r.tenantId == t
        && since.all fun start => decide (start.micros ≤ r.createdAt.micros))
  | .transactionNow, (a : Except String DateTime), w =>
      match a with
      | .ok now => (.ok now, w)
      | .error msg => (.error (.external msg), w)
  | .flush pending, (a : Fate), w =>
      -- executed inside the open transaction: nothing is visible yet
      ((w.commit pending a).1, w)
  | .commit pending, a, w => w.commit pending a
  | .refreshCandidate id, a, w =>
      w.readOr a (w.db.candidates.find? fun r => r.id == id)
  | .refreshJob id, a, w =>
      w.readOr a (w.db.jobs.find? fun r => r.id == id)
  | .refreshSubscription id, a, w =>
      w.readOr a (w.db.subscriptions.find? fun r => r.id == id)
  | .uuid4, (u : UUID), w => (.ok u, { w with usedIds := u :: w.usedIds })
  | .utcNow, (now : DateTime), w => (.ok now, w)
  | .embedQuery text, a, w => w.read a (env.embed text)
  | .parseResume _, (a : Except LibraryError ParsedResume), w =>
      match a with
      | .ok parsed => (.ok parsed, w)
      | .error x => (.error x.exn, w)
  | .explainMatch _, (a : Except LibraryError MatchExplanation), w =>
      match a with
      | .ok m => (.ok m, w)
      | .error x => (.error x.exn, w)
  | .upsert ns v, a, w =>
      w.write { w with pinecone := setAt w.pinecone ns v.id v } a
  | .query _ _ _, (a : Except String (List QueryMatch)), w =>
      match a with
      | .ok ms => (.ok ms, w)
      | .error msg => (.error (.external msg), w)
  | .putObject bucket key body, a, w =>
      w.write { w with s3 := setAt w.s3 bucket key body } a
  | .getObject bucket key, a, w => w.readOr a (w.s3 bucket key)
  | .sendMessage body, a, w =>
      w.write { w with
        queue := w.queue ++ [{ message := ⟨w.nextReceipt, body⟩ }]
        nextReceipt := w.nextReceipt + 1 } a
  | .receiveMessage, (a : Except String (List Nat)), w =>
      match a with
      | .ok handles =>
          (.ok ((w.queue.filter fun q =>
              handles.contains q.message.receiptHandle).map (·.message)),
            w.receive handles)
      | .error msg => (.error (.external msg), w)
  | .deleteMessage handle, a, w =>
      -- a handle of the main queue: a dead-lettered message stays
      w.write { w with queue := w.queue.filter fun q =>
        !(q.message.receiptHandle == handle && !q.deadLetter) } a
  | .updateItem c status, a, w =>
      w.write { w with dynamo := fun c' =>
        if c' = c then some status else w.dynamo c' } a
  | .createRazorpaySubscription _, (a : Except String RazorpayResponse), w =>
      match a with
      | .ok r => (.ok r, { w with
          usedSubscriptionIds := r.id :: w.usedSubscriptionIds })
      | .error msg => (.error (.external msg), w)
  | .countOutcome o, _, w => (.ok (), { w with outcomes := o :: w.outcomes })

/-- The machine the service's programs run on. -/
abbrev machine (env : Env) : Effect.Machine sig where
  World := World
  Ans := Act.Ans
  admits := admits
  perform := perform env

/-- Moves the surroundings make on their own: a message's visibility
window passes, or the redrive policy (`maxReceiveCount = 5`) moves a
message to the dead-letter queue. -/
inductive Surroundings
  | visibilityPasses (handle : Nat)
  | redrive (handle : Nat)
deriving DecidableEq

/-- `maxReceiveCount` of the queue's redrive policy. -/
def maxReceiveCount : Nat := 5

def Surroundings.move : Surroundings → World → Option World
  | .visibilityPasses h, w =>
      some { w with queue := w.queue.map fun q =>
        if q.message.receiptHandle == h then { q with visible := true }
        else q }
  | .redrive h, w =>
      some { w with queue := w.queue.map fun q =>
        if q.message.receiptHandle == h
            && decide (maxReceiveCount ≤ q.receives) then
          { q with deadLetter := true }
        else q }

end ResumeScreening
