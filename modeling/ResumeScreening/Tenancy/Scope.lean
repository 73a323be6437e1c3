/-
Who may touch what, as a discipline.

A `Scope` is what an operation's input entitles it to: the tenants its
credentials or its message name, the files a message locates, the
Razorpay subscription a webhook is about. A `Fact` is what a reply has
told: an identifier it drew, a row it was shown. `allows` says which
actions these entitle it to — a statement may only name rows the
program was shown, identifiers it drew, and tenants in its scope.

`allowsWrite` says of a billing UPDATE which columns it sets, too; the
results on the stored period rest on that.
-/
import ResumeScreening.Lib.Knowledge
import ResumeScreening.Pipeline.Protocol

namespace ResumeScreening.Tenancy

open Effect Pipeline

-- ==================================================================== scopes

structure Scope where
  tenants : UUID → Prop
  files : String → String → Prop
  accounts : String → Prop
  /-- The plans it may put a tenant on. -/
  plans : UUID → Prop
  /-- The status, with the period end if any, it may store for a Razorpay
  subscription. -/
  applies : String → String → Option Py.DateTime → Prop
  /-- It may touch what no tenant owns: the head of the queue and the
  plan catalogue. -/
  shared : Prop

namespace Scope

/-- A request of a tenant. -/
def request (t : UUID) : Scope where
  tenants t' := t' = t
  files _ _ := False
  accounts _ := False
  plans _ := False
  applies _ _ _ := False
  shared := False

/-- A request for a plan. -/
def subscription (t p : UUID) : Scope :=
  { request t with plans := fun p' => p' = p }

/-- An event Razorpay delivers. -/
def event (eventType : String) (payload : WebhookPayload) : Scope where
  tenants _ := False
  files _ _ := False
  accounts rid := ∃ e, payload.entity = .ok (rid, e)
  plans _ := False
  applies rid newStatus newEnd := statusEvent eventType = some newStatus
    ∧ ∃ e, payload.entity = .ok (rid, e)
      ∧ periodEnd eventType e = .ok newEnd
  shared := False

/-- A message handed to a worker. -/
def message (m : Message) : Scope where
  tenants t := ∃ c text, Names m.body t c text
  files bucket key := Locates m.body bucket key
  accounts _ := False
  plans _ := False
  applies _ _ _ := False
  shared := False

/-- A worker process. -/
def worker : Scope where
  tenants _ := True
  files _ _ := True
  accounts _ := False
  plans _ := False
  applies _ _ _ := False
  shared := True

/-- An operator. -/
def operator : Scope where
  tenants _ := False
  files _ _ := False
  accounts _ := False
  plans _ := False
  applies _ _ _ := False
  shared := True

end Scope

/-- The scope of an operation. -/
def scope : Op → Scope
  | .createCandidate t _ | .listCandidates t | .getCandidate t _
  | .uploadResume t _ | .createJob t _ | .listJobs t | .getJob t _
  | .rankCandidates t .. => .request t
  | .subscribe t p => .subscription t p
  | .webhook eventType payload => .event eventType payload
  | .worker => .worker
  | .createPlan _ => .operator

-- ===================================================================== facts

inductive Fact
  | drawn (id : UUID)
  | candidate (row : Candidate)
  | job (row : Job)
  | subscription (row : Subscription)
  | plan (row : Plan)
  | issued (razorpayPlanId : String) (response : RazorpayResponse)
  | unknown (razorpayId : String)
  | attempted
  | committed (pending : List Write)

/-- What an event teaches. -/
def learned : Event sig → List Fact
  | ⟨.uuid4, .ok id⟩ => [.drawn id]
  | ⟨.selectCandidate .., .ok (some row)⟩ => [.candidate row]
  | ⟨.selectJob .., .ok (some row)⟩ => [.job row]
  | ⟨.selectSubscription _, .ok (some row)⟩ => [.subscription row]
  | ⟨.selectSubscriptionByRazorpayId _, .ok (some row)⟩ =>
      [.subscription row]
  | ⟨.selectSubscriptionByRazorpayId rid, .ok none⟩ => [.unknown rid]
  | ⟨.getPlan _, .ok (some row)⟩ => [.plan row]
  | ⟨.createRazorpaySubscription p, .ok response⟩ => [.issued p response]
  | ⟨.commit pending, .ok _⟩ => [.committed pending, .attempted]
  | ⟨.commit _, .error _⟩ => [.attempted]
  | _ => []

-- =================================================================== actions

variable (σ : Scope) (K : List Fact)

/-- A billing UPDATE of a row that was shown: `create_subscription`
replaces its plan and its Razorpay subscription, in its only commit;
`handle_webhook_event` sets its status and the end of its period. -/
inductive AllowsUpdate (row : Subscription) : SubscriptionPatch → Prop
  | replace {plan response} : .attempted ∉ K → σ.plans plan.id →
      .plan plan ∈ K →
      .issued plan.razorpayPlanId response ∈ K →
      AllowsUpdate row (replacedPatch row plan response)
  | apply {newStatus newEnd} :
      σ.applies row.razorpaySubscriptionId newStatus newEnd →
      AllowsUpdate row (webhookPatch row newStatus newEnd)

def AllowsWrite : Write → Prop
  | .insertCandidate row => .drawn row.id ∈ K ∧ σ.tenants row.tenantId
      ∧ (row.pineconeId = none
        ∨ row.pineconeId = some (candidateVectorId row.id.str))
  | .updateCandidate id set => (∃ row, .candidate row ∈ K ∧ row.id = id)
      ∧ (set.pineconeId = none
        ∨ set.pineconeId = some (some (candidateVectorId id.str)))
  | .insertJob row => .drawn row.id ∈ K ∧ σ.tenants row.tenantId
      ∧ (row.pineconeId = none
        ∨ row.pineconeId = some (jobVectorId row.id.str))
  | .insertPlan _ => σ.shared
  | .insertSubscription row => .drawn row.id ∈ K ∧ σ.tenants row.tenantId
      ∧ .attempted ∉ K ∧ ∃ plan response, σ.plans plan.id ∧ .plan plan ∈ K
        ∧ .issued plan.razorpayPlanId response ∈ K
        ∧ row = createdSubscription row.tenantId plan response row.id
  | .updateSubscription id set => ∃ row, .subscription row ∈ K
      ∧ row.id = id ∧ AllowsUpdate σ K row set
  | .insertMatchResult m => ∃ job row, .job job ∈ K ∧ .candidate row ∈ K
      ∧ m.jobId = job.id ∧ m.candidateId = row.id
      ∧ job.tenantId = row.tenantId

def Allows (env : Env) : Act → Prop
  | .selectCandidate t _ | .selectCandidates t | .selectJob t _
  | .selectJobs t | .selectSubscription t | .countCandidates t _ =>
      σ.tenants t
  | .selectSubscriptionByRazorpayId rid => σ.accounts rid
  | .refreshCandidate id =>
      .drawn id ∈ K ∨ ∃ row, .candidate row ∈ K ∧ row.id = id
  | .refreshJob id => .drawn id ∈ K
  | .refreshSubscription id =>
      .drawn id ∈ K ∨ ∃ row, .subscription row ∈ K ∧ row.id = id
  | .flush pending | .commit pending => ∀ x ∈ pending, AllowsWrite σ K x
  | .upsert ns _ | .query ns .. => ∃ t, σ.tenants t ∧ ns = t.str
  | .putObject bucket key _ => bucket = env.s3BucketName
      ∧ ∃ id, .drawn id ∈ K ∧ key = uploadKey id
  | .getObject bucket key => σ.files bucket key
  | .updateItem text _ => ∃ row, .candidate row ∈ K
      ∧ UUID.parse text = some row.id
  | .receiveMessage => σ.shared
  | .getPlan _ | .transactionNow | .uuid4 | .utcNow | .embedQuery _
  | .parseResume _ | .explainMatch _ | .sendMessage _ | .deleteMessage _
  | .createRazorpaySubscription _ | .countOutcome _ => True

/-- What a program knows where it returns: a webhook handler found no row
of its event's Razorpay id, or has stored what the event says in the row
it found. -/
def Finished : Op → Prop
  | .webhook eventType payload => ∀ newStatus rid e,
      statusEvent eventType = some newStatus →
      payload.entity = .ok (rid, e) →
      .unknown rid ∈ K ∨ ∃ loaded newEnd, .subscription loaded ∈ K
        ∧ loaded.razorpaySubscriptionId = rid
        ∧ periodEnd eventType e = .ok newEnd
        ∧ .committed [.updateSubscription loaded.id
          (webhookPatch loaded newStatus newEnd)] ∈ K
  | _ => True

variable {σ K}

/-- The discipline of a scope. -/
def discipline (env : Env) (σ : Scope) : Discipline sig Fact where
  learned := learned
  allows K e := Allows σ K env e

end ResumeScreening.Tenancy
