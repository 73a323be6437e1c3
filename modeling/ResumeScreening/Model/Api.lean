/-
The HTTP interface: app/main.py with its routers, and the process of
app/worker.py beside it.

An operation is one request. Its program runs over the credential store
and the stores of the deployment at once: the gate of Model/Auth.lean in
front of a route of Model/Service.lean, or an admin route behind
`require_admin`. The two listings of the admin routes are questions, as
nothing else reads those tables that way.

The path, the query and the body of a request are those that passed
their schema.
-/
import ResumeScreening.Lib.Beside
import ResumeScreening.Model.Auth
import ResumeScreening.Model.Service
import ResumeScreening.Model.Webhook

namespace ResumeScreening.Api

open Effect (Prog)
open Py (DateTime)
open Accounts (TenantRow ApiKey)

-- ================================================================ signature

/-- `settings.app_name`, and what the two halves of the code run with. -/
structure Env where
  appName : String := "Resume Screening Service"
  accounts : Accounts.Env
  pipeline : ResumeScreening.Env
  libs : WebhookLibs

/-- The listings of app/routers/admin.py, as statements. -/
inductive Question
  | selectTenants (limit offset : Int)
  | selectApiKeys (tenantId : UUID)
deriving DecidableEq

abbrev asks : Effect.Asks where
  Q := Question
  Ret
    | .selectTenants .. => List TenantRow
    | .selectApiKeys .. => List ApiKey

abbrev sig : Effect.Sig := Accounts.sig.beside ResumeScreening.sig asks

/-- A program over both stores. -/
abbrev Py (α : Type) : Type := Prog sig α

/-- A part that only reaches the credential store. -/
abbrev accounts {α : Type} (p : Accounts.Py α) : Py α := p.left

/-- A part that only reaches the other stores. -/
abbrev pipeline {α : Type} (p : ResumeScreening.Py α) : Py α := p.right

abbrev ask (q : Question) : Py (asks.Ret q) := Prog.ask (Q := asks) q

abbrev raise {α : Type} (x : Accounts.Exn) : Py α := Prog.raise (.inl x)

/-- The range of a `bigint`, in which LIMIT and OFFSET are read. -/
def bigint (n : Int) : Bool :=
  decide (-9223372036854775808 ≤ n ∧ n ≤ 9223372036854775807)

/-- `.limit(limit).offset(offset)` of sorted rows: neither may be
negative. -/
def page {α : Type} (limit offset : Int) (rows : List α) :
    Except Accounts.Exn (List α) :=
  if !(bigint limit && bigint offset) then .error (.external "DataError")
  else if limit < 0 ∨ offset < 0 then .error (.external "DataError")
  else .ok ((rows.drop offset.toNat).take limit.toNat)

/-- The listings in two worlds. -/
def see (env : ResumeScreening.Env) :
    Effect.Sees Accounts.machine (machine env) asks
  | .selectTenants limit offset, w, _ =>
      (page limit offset (newestFirst TenantRow.createdAt
        w.db.tenants.rows)).mapError .inl
  | .selectApiKeys tenantId, w, _ =>
      .ok (newestFirst ApiKey.createdAt
        (w.db.apiKeys.select fun k => k.tenantId == tenantId))

-- ================================================================ responses

/-- `TenantResponse`: the columns of a row that leave the service. -/
structure TenantResponse where
  id : UUID
  name : String
  email : Option String
  createdAt : DateTime
deriving DecidableEq

def tenantResponse (row : TenantRow) : TenantResponse :=
  ⟨row.id, row.name, row.email, row.createdAt⟩

/-- `ApiKeyResponse`. -/
structure ApiKeyResponse where
  id : UUID
  tenantId : UUID
  keyPrefix : String
  createdAt : DateTime
  revokedAt : Option DateTime
  lastUsedAt : Option DateTime
deriving DecidableEq

def apiKeyResponse (row : ApiKey) : ApiKeyResponse :=
  ⟨row.id, row.tenantId, row.keyPrefix, row.createdAt, row.revokedAt,
    row.lastUsedAt⟩

/-- What a request is answered with. -/
inductive Resp
  | health (service : String)
  | token (r : Accounts.TokenResponse)
  | served (r : ResumeScreening.Resp)
  | tenant (r : TenantResponse)
  | tenants (rs : List TenantResponse)
  | apiKey (r : ApiKeyResponse)
  | apiKeys (rs : List ApiKeyResponse)
  | created (r : Accounts.ApiKeyCreateResponse)
  | usage (r : TenantUsageResponse)
deriving DecidableEq

-- ================================================================= requests

/-- The routes of a tenant: app/routers/candidates.py, jobs.py,
screening.py, and `subscribe` of billing.py. -/
inductive Request
  | createCandidate (payload : CandidateCreate)
  | listCandidates
  | getCandidate (candidateId : UUID)
  | uploadResume (file : UploadFile)
  | createJob (payload : JobCreate)
  | listJobs
  | getJob (jobId : UUID)
  | rankCandidates (jobId : UUID) (topK topN : Option Int)
  | subscribe (planId : UUID)
deriving DecidableEq

/-- The operation a route runs for the tenant it was let in as. -/
def Request.op (t : UUID) : Request → ResumeScreening.Op
  | .createCandidate payload => .createCandidate t payload
  | .listCandidates => .listCandidates t
  | .getCandidate candidateId => .getCandidate t candidateId
  | .uploadResume file => .uploadResume t file
  | .createJob payload => .createJob t payload
  | .listJobs => .listJobs t
  | .getJob jobId => .getJob t jobId
  | .rankCandidates jobId topK topN => .rankCandidates t jobId topK topN
  | .subscribe planId => .subscribe t planId

/-- The routes of app/routers/admin.py. -/
inductive AdminRequest
  | listTenants (limit offset : Int)
  | createTenant (name : String)
  | getTenant (tenantId : UUID)
  | listApiKeys (tenantId : UUID)
  | createApiKey (tenantId : UUID)
  | revokeApiKey (keyId : UUID)
  | createPlan (payload : PlanCreate)
  | getTenantUsage (tenantId : UUID)
deriving DecidableEq

/-- The operations: requests, with the headers the gates read, and the
worker. -/
inductive Op
  | health
  | register (payload : Accounts.RegisterRequest)
  | login (payload : Accounts.LoginRequest)
  | googleAuth (idToken : String)
  | tenant (authorization xApiKey : Option String) (request : Request)
  | webhook (rawBody : List UInt8) (signature : Option String)
  | admin (credentials : Accounts.HTTPBasicCredentials)
      (request : AdminRequest)
  | worker
deriving DecidableEq

-- =================================================================== routes

/-- A route behind `Depends(require_tenant)`. -/
def tenantRoute (env : Env) (authorization xApiKey : Option String)
    (request : Request) : Py Resp := do
  let tenantId ←
    accounts (Accounts.requireTenant env.accounts authorization xApiKey)
  let r ← pipeline (ResumeScreening.serve env.pipeline (request.op tenantId))
  return .served r

def adminRoute (env : Env) : AdminRequest → Py Resp
  | .listTenants limit offset => do
      let rows : List TenantRow ← ask (.selectTenants limit offset)
      return .tenants (rows.map tenantResponse)
  | .createTenant name => do
      let row ← accounts (Accounts.createTenant name)
      return .tenant (tenantResponse row)
  | .getTenant tenantId => do
      match ← accounts (Accounts.call (.getTenant tenantId)) with
      | none => raise (.http 404 "Tenant not found")
      | some row => return .tenant (tenantResponse row)
  | .listApiKeys tenantId => do
      let rows : List ApiKey ← ask (.selectApiKeys tenantId)
      return .apiKeys (rows.map apiKeyResponse)
  | .createApiKey tenantId => do
      let r ← accounts (Accounts.createApiKey env.accounts tenantId)
      return .created r
  | .revokeApiKey keyId => do
      let row ← accounts (Accounts.revokeApiKey keyId)
      return .apiKey (apiKeyResponse row)
  | .createPlan payload => do
      let plan ← pipeline (createPlan payload)
      return .served (.plan plan)
  | .getTenantUsage tenantId => do
      let row : Option TenantRow ←
        accounts (Accounts.call (.getTenant tenantId))
      let r ← pipeline (getTenantUsage env.pipeline
        (row.map TenantRow.toTenant) tenantId)
      return .usage r

/-- The program of an operation. -/
def serve (env : Env) : Op → Py Resp
  | .health => return .health env.appName
  | .register payload => do
      return .token (← accounts (Accounts.register env.accounts payload))
  | .login payload => do
      return .token (← accounts (Accounts.login env.accounts payload))
  | .googleAuth idToken => do
      return .token (← accounts (Accounts.googleAuth env.accounts idToken))
  | .tenant authorization xApiKey request =>
      tenantRoute env authorization xApiKey request
  | .webhook rawBody signature => do
      pipeline (webhook env.accounts.toSettings env.libs rawBody signature)
      return .served .done
  | .admin credentials request =>
      -- `dependencies=[Depends(require_admin)]` of the router
      match Accounts.requireAdmin env.accounts.toSettings credentials with
      | .error x => raise x
      | .ok () => adminRoute env request
  | .worker => do
      pipeline (run env.pipeline)
      return .served .done

end ResumeScreening.Api
