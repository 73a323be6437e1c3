/-
The deployment: every operation a client, an operator, Razorpay or a
worker process can have running, as threads over one world.
-/
import ResumeScreening.Lib.Interleave
import ResumeScreening.Model.Ranking
import ResumeScreening.Model.Billing
import ResumeScreening.Model.Worker

namespace ResumeScreening

open Py (DateTime)

/-- The operations. `worker` is one process of `python -m app.worker`;
the tenant of a request is the one its credentials resolved to. -/
inductive Op
  | createCandidate (tenantId : UUID) (payload : CandidateCreate)
  | listCandidates (tenantId : UUID)
  | getCandidate (tenantId candidateId : UUID)
  | uploadResume (tenantId : UUID) (file : UploadFile)
  | createJob (tenantId : UUID) (payload : JobCreate)
  | listJobs (tenantId : UUID)
  | getJob (tenantId jobId : UUID)
  | rankCandidates (tenantId jobId : UUID) (topK topN : Option Int)
  | createPlan (payload : PlanCreate)
  | subscribe (tenantId planId : UUID)
  | webhook (eventType : String) (payload : WebhookPayload)
  | worker
deriving DecidableEq

/-- What an operation answers with. -/
inductive Resp
  | candidate (c : Candidate)
  | candidates (cs : List Candidate)
  | job (j : Job)
  | jobs (js : List Job)
  | screening (s : ScreeningResponse)
  | plan (p : Plan)
  | subscribe (s : SubscribeResponse)
  | done
deriving DecidableEq

/-- The program of an operation. -/
def serve (env : Env) : Op → Py Resp
  | .createCandidate t payload => do
      return .candidate (← createCandidateRoute t payload)
  | .listCandidates t => do return .candidates (← listCandidates t)
  | .getCandidate t c => do return .candidate (← getCandidateRoute t c)
  | .uploadResume t file => do return .candidate (← uploadResume env t file)
  | .createJob t payload => do return .job (← createJobRoute t payload)
  | .listJobs t => do return .jobs (← listJobs t)
  | .getJob t j => do return .job (← getJobRoute t j)
  | .rankCandidates t j topK topN => do
      return .screening (← rankCandidatesRoute env t j topK topN)
  | .createPlan payload => do return .plan (← createPlan payload)
  | .subscribe t p => do return .subscribe (← subscribeRoute t p)
  | .webhook eventType payload => do
      handleWebhookEvent eventType payload
      return .done
  | .worker => do
      run env
      return .done

/-- Only a worker starts over. -/
def Op.loops : Op → Bool
  | .worker => true
  | _ => false

/-- The deployment as a service over the machine. -/
abbrev service (env : Env) : Effect.Service (machine env) where
  Op := Op
  Resp := Resp
  Env := Surroundings
  body := serve env
  loops := Op.loops
  env := Surroundings.move

/-- A run of the deployment from empty stores, restricted by a guard. -/
abbrev GuardedRun (env : Env) (ok : Effect.Guard (service env))
    (s : Effect.Sys (service env)) : Prop :=
  Effect.Run ok (Effect.Sys.start (service env) World.empty) s

/-- The states the deployment reaches from empty stores. -/
abbrev Reachable (env : Env) (s : Effect.Sys (service env)) : Prop :=
  GuardedRun env (fun _ _ => True) s

-- ================================================== a deployment to try out

/-- Settings for runs on fixed inputs: one readable file, and an
embedding that tells texts apart. -/
def sampleEnv : Env where
  freeTierResumeLimit := 1
  freeTierResumeLimit_pos := by decide
  vectorTopK := 20
  vectorTopK_pos := by decide
  rankingTopN := 5
  rankingTopN_pos := by decide
  s3BucketName := "resumes"
  pdfPages bytes :=
    if bytes = [1] then .ok ["resume"] else .error (.valueError "not a PDF")
  embed text := text.toList.map fun c => (c.toNat : Rat)

/-- The readable file. -/
def samplePdf : UploadFile := ⟨"application/pdf", [1]⟩

/-- The choices of an outside where, unless said otherwise, nothing
fails. -/
structure Choices where
  id : UUID := UUID.ofNat 0
  parsed : Except LibraryError ParsedResume := .ok { fullName := "Ada" }
  commit : Fate := .ok
  handles : List Nat := [0]
  razorpay : RazorpayResponse := ⟨"sub_1", "created", "https://rzp.io/1"⟩

def Choices.answer (c : Choices) : (e : Act) → e.Ans
  | .selectCandidate .. => .ok ()
  | .selectCandidates .. => .ok ()
  | .selectJob .. => .ok ()
  | .selectJobs .. => .ok ()
  | .selectSubscription .. => .ok ()
  | .selectSubscriptionByRazorpayId .. => .ok ()
  | .getPlan .. => .ok ()
  | .countCandidates .. => .ok ()
  | .transactionNow => .ok DateTime.epoch
  | .flush .. => Fate.ok
  | .commit .. => c.commit
  | .refreshCandidate .. => .ok ()
  | .refreshJob .. => .ok ()
  | .refreshSubscription .. => .ok ()
  | .uuid4 => c.id
  | .utcNow => DateTime.epoch
  | .embedQuery .. => .ok ()
  | .parseResume .. => c.parsed
  | .explainMatch .. => .ok ⟨50, [], [], "fair"⟩
  | .upsert .. => Fate.ok
  | .query .. => .ok []
  | .putObject .. => Fate.ok
  | .getObject .. => .ok ()
  | .sendMessage .. => Fate.ok
  | .receiveMessage => .ok c.handles
  | .deleteMessage .. => Fate.ok
  | .updateItem .. => Fate.ok
  | .createRazorpaySubscription .. => .ok c.razorpay
  | .countOutcome .. => ()

/-- The outside of a call run alone where nothing fails. -/
def sampleOracle : Effect.Oracle (machine sampleEnv) := fun _ e =>
  some (({} : Choices).answer e)

/-- Thread `i` performs its next `n` actions. -/
def steps (i n : Nat) (c : Choices := {}) :
    List (Effect.Label (service sampleEnv)) :=
  List.replicate n (.act i c.answer)

def sampleTenant : UUID := UUID.ofNat 1

def samplePlan : PlanCreate where
  name := "basic"
  price := 100
  razorpayPlanId := "plan_1"

/-- An upload of the readable file, from request to answer. -/
def sampleUpload : List (Effect.Label (service sampleEnv)) :=
  .spawn (.uploadResume sampleTenant samplePdf) :: steps 0 9

/-- The row the upload answers with. -/
def sampleRow : Candidate :=
  placeholder sampleTenant (UUID.ofNat 0) DateTime.epoch

/-- What the labels reach from empty stores, each step meeting the guard,
passes a test. -/
abbrev Reaches (ls : List (Effect.Label (service sampleEnv)))
    (p : Effect.Sys (service sampleEnv) → Bool)
    (ok : Effect.Guard (service sampleEnv) := fun _ _ => True)
    [∀ s l, Decidable (ok s l)] : Prop :=
  ((Effect.Sys.start (service sampleEnv) World.empty).exec ok ls).map p
    = some true

/-- The state some labels reach from empty stores. -/
def reached (ls : List (Effect.Label (service sampleEnv)))
    (h : ((Effect.Sys.start (service sampleEnv) World.empty).exec
      (fun _ _ => True) ls).isSome = true) : Effect.Sys (service sampleEnv) :=
  Option.get _ h

theorem sampleUpload_runs : ((Effect.Sys.start (service sampleEnv)
    World.empty).exec (fun _ _ => True) sampleUpload).isSome = true := by
  decide +kernel

theorem reachable_reached {ls : List (Effect.Label (service sampleEnv))}
    (h : ((Effect.Sys.start (service sampleEnv) World.empty).exec
      (fun _ _ => True) ls).isSome = true) :
    Reachable sampleEnv (reached ls h) :=
  Effect.Run.of_exec (Option.some_get h).symm

end ResumeScreening
