/-
The API as a chain: the credential service lets a request in, the
deployment serves it.

A request's first actions are those of an operation of Model/Auth.lean
on the credential store, and what follows is an operation of
Model/Service.lean for the tenant that came out, or an answer. So a run
of the API is a run of both services at once (`gateway_refines`), and
what holds of every reachable state of either holds of it.

The restriction on runs, `Whole`, keeps out what `readEvent` does not
describe.
-/
import ResumeScreening.Api.Webhook
import ResumeScreening.Lib.Chain
import ResumeScreening.Model.Api
import ResumeScreening.Pipeline.Conform
import ResumeScreening.Sessions.Accounts

namespace ResumeScreening.Api

open Effect

variable {env : Env}

-- ==================================================================== routes

/-- The event of a signed body, where one can be read. -/
def signedEvent (env : Env) (rawBody : List UInt8) (signature : Option String) :
    Option (String × WebhookPayload) :=
  match verifyWebhookSignature env.accounts.toSettings env.libs rawBody
      (signature.getD "") with
  | .ok true => (Py.loads rawBody).bind (readEvent env.libs)
  | _ => none

/-- Where an admin request that was let in starts. -/
def adminEntry (env : Env) : AdminRequest → Entry
    (Accounts.service env.accounts) (ResumeScreening.service env.pipeline)
    asks Resp
  | .createTenant name => .first (.createTenant name)
  | .createApiKey tenantId => .first (.createApiKey tenantId)
  | .revokeApiKey keyId => .first (.revokeApiKey keyId)
  | .createPlan payload => .second (.createPlan payload)
  | request => .other (adminRoute env request)

def entry (env : Env) : Op → Entry (Accounts.service env.accounts)
    (ResumeScreening.service env.pipeline) asks Resp
  | .health => .other (serve env .health)
  | .register payload => .first (.register payload)
  | .login payload => .first (.login payload)
  | .googleAuth idToken => .first (.googleAuth idToken)
  | .tenant authorization xApiKey _ =>
      .first (.requireTenant authorization xApiKey)
  | .webhook rawBody signature =>
      match signedEvent env rawBody signature with
      | some (eventType, payload) => .second (.webhook eventType payload)
      | none => .other (serve env (.webhook rawBody signature))
  | .admin credentials request =>
      match Accounts.requireAdmin env.accounts.toSettings credentials with
      | .error x => .other (raise x)
      | .ok () => adminEntry env request
  | .worker => .second .worker

/-- What an answer of the credential service leads to. -/
def after : Op → Accounts.Resp → Resp ⊕ ResumeScreening.Op
  | .tenant _ _ request, .resolved tenantId => .inr (request.op tenantId)
  | _, .resolved _ => .inl (.served .done)
  | _, .token r => .inl (.token r)
  | _, .tenant row => .inl (.tenant (tenantResponse row))
  | _, .created r => .inl (.created r)
  | _, .apiKey row => .inl (.apiKey (apiKeyResponse row))

abbrev route (env : Env) : Route (Accounts.service env.accounts)
    (ResumeScreening.service env.pipeline) asks where
  Op := Op
  Resp := Resp
  entry := entry env
  after := after
  answer _ r := .served r

/-- A signed body with an event is a webhook of Model/Service.lean. -/
theorem webhook_signed {rawBody : List UInt8} {signature : Option String}
    {eventType : String} {payload : WebhookPayload}
    (h : signedEvent env rawBody signature = some (eventType, payload)) :
    webhook env.accounts.toSettings env.libs rawBody signature
      = handleWebhookEvent eventType payload := by
  unfold signedEvent at h
  split at h
  next hverified =>
    obtain ⟨body, hloads, hread⟩ := Option.bind_eq_some_iff.mp h
    obtain ⟨hevent, hhandle⟩ := handleWebhook_read hread
    unfold webhook
    simp only [hverified, Prog.ofExcept, Prog.bind_eq, Prog.ret_bind, if_true,
      hloads, hevent, hhandle]
  next => cases h

theorem admin_routed (credentials : Accounts.HTTPBasicCredentials)
    (request : AdminRequest)
    (h : Accounts.requireAdmin env.accounts.toSettings credentials = .ok ()) :
    adminRoute env request
      = (route env).prog (.admin credentials request) := by
  have hentry : (route env).entry (.admin credentials request)
      = adminEntry env request := by
    show entry env (.admin credentials request) = _
    unfold entry
    simp only [h]
  cases request with
  | createTenant name =>
      exact (Route.prog_first Accounts.Resp.tenant hentry rfl).symm
  | createApiKey tenantId =>
      exact (Route.prog_first Accounts.Resp.created hentry rfl).symm
  | revokeApiKey keyId =>
      exact (Route.prog_first Accounts.Resp.apiKey hentry rfl).symm
  | createPlan payload =>
      exact (Route.prog_second ResumeScreening.Resp.plan hentry rfl).symm
  | _ => exact (Route.prog_other hentry).symm

/-- The programs of Model/Api.lean are those of the route. -/
theorem routed (op : Op) : serve env op = (route env).prog op := by
  cases op with
  | health => rfl
  | register payload =>
      have hentry : (route env).entry (.register payload)
          = .first (.register payload) := rfl
      exact (Route.prog_first Accounts.Resp.token hentry rfl).symm
  | login payload =>
      have hentry : (route env).entry (.login payload)
          = .first (.login payload) := rfl
      exact (Route.prog_first Accounts.Resp.token hentry rfl).symm
  | googleAuth idToken =>
      have hentry : (route env).entry (.googleAuth idToken)
          = .first (.googleAuth idToken) := rfl
      exact (Route.prog_first Accounts.Resp.token hentry rfl).symm
  | tenant authorization xApiKey request =>
      have hentry : (route env).entry (.tenant authorization xApiKey request)
          = .first (.requireTenant authorization xApiKey) := rfl
      exact (Route.prog_first Accounts.Resp.resolved hentry rfl).symm
  | webhook rawBody signature =>
      cases h : signedEvent env rawBody signature with
      | none =>
          have hentry : (route env).entry (.webhook rawBody signature)
              = .other (serve env (.webhook rawBody signature)) := by
            show entry env (.webhook rawBody signature) = _
            unfold entry
            simp only [h]
          exact (Route.prog_other hentry).symm
      | some read =>
          obtain ⟨eventType, payload⟩ := read
          have hentry : (route env).entry (.webhook rawBody signature)
              = .second (.webhook eventType payload) := by
            show entry env (.webhook rawBody signature) = _
            unfold entry
            simp only [h]
          rw [Route.prog_second (fun _ => ResumeScreening.Resp.done) hentry rfl,
            ← webhook_signed h]
          rfl
  | admin credentials request =>
      cases h : Accounts.requireAdmin env.accounts.toSettings credentials with
      | error x =>
          have hentry : (route env).entry (.admin credentials request)
              = .other (raise x) := by
            show entry env (.admin credentials request) = _
            unfold entry
            simp only [h]
          rw [Route.prog_other hentry]
          unfold serve
          simp only [h]
      | ok u =>
          rw [← admin_routed credentials request h]
          unfold serve
          simp only [h]
  | worker =>
      have hentry : (route env).entry .worker = .second .worker := rfl
      exact (Route.prog_second (fun _ => ResumeScreening.Resp.done) hentry
        rfl).symm

abbrev gateway (env : Env) : Chain (Accounts.service env.accounts)
    (ResumeScreening.service env.pipeline) asks where
  toRoute := route env
  body := serve env
  routed := routed
  loops
    | .worker => true
    | _ => false
  loops_second op h := by
    cases op with
    | worker => exact ⟨.worker, rfl, rfl⟩
    | _ => cases h

/-- The API as a service: requests, operators, Razorpay and workers, over
both stores. -/
abbrev service (env : Env) : Service (Accounts.machine.beside
    (machine env.pipeline) asks (see env.pipeline)) :=
  (gateway env).service (see env.pipeline)

-- ===================================================================== runs

/-- No signed body charges a subscription to a fraction of a second. -/
def Whole (env : Env) : Guard (service env) := fun _ l =>
  ∀ rawBody signature payload, l = .spawn (.webhook rawBody signature) →
    verifyWebhookSignature env.accounts.toSettings env.libs rawBody
      (signature.getD "") = .ok true →
    Py.loads rawBody = some payload → ¬ Fractional env.libs payload

/-- The states the API reaches from empty stores. -/
abbrev Reachable (env : Env) (s : Sys (service env)) : Prop :=
  Run (Whole env)
    (Sys.start (service env) (Accounts.World.empty, World.empty)) s

abbrev Still (env : Env) : sig.Act → Prop := (Accounts.machine.beside
  (machine env.pipeline) asks (see env.pipeline)).Still

theorem getTenant_still (tenantId : UUID) :
    (accounts (Accounts.call (.getTenant tenantId))).Uses (Still env) := by
  refine Prog.uses_left (fun e he => still_left he)
    ((Prog.uses_perform (S := Accounts.sig) _ _).mpr fun a w => ?_)
  rfl

/-- A read in front of the rest. -/
theorem read_still {e : Act} {β : Type} {f : e.Ret → ResumeScreening.Py β}
    (he : (machine env.pipeline).Still e)
    (hf : ∀ v, (f v).Uses (machine env.pipeline).Still) :
    ((call e).bind f).Uses (machine env.pipeline).Still :=
  Prog.uses_bind ((Prog.uses_perform (S := ResumeScreening.sig) _ e).mpr he) hf

theorem getTenantUsage_still (tenant : Option Tenant) (tenantId : UUID) :
    (getTenantUsage env.pipeline tenant tenantId).Uses
      (machine env.pipeline).Still := by
  have hcount : ∀ since, (machine env.pipeline).Still
      (.countCandidates tenantId since) := fun since a w => by cases a <;> rfl
  have hfree : (freeTierUsage env.pipeline tenantId).Uses
      (machine env.pipeline).Still := read_still (hcount none) fun _ => trivial
  cases tenant with
  | none => trivial
  | some row =>
      refine read_still (fun a w => by cases a <;> rfl) fun found => ?_
      cases found with
      | none => exact hfree
      | some subscription =>
          show (if subscription.status = "active" then _ else _ :
            ResumeScreening.Py TenantUsageResponse).Uses _
          split
          · refine read_still (fun a w => by cases a <;> rfl) fun plan => ?_
            cases plan with
            | none => trivial
            | some plan =>
                refine Prog.uses_bind (Pipeline.uses_currentPeriodStart
                  (fun a w => rfl) subscription plan) fun periodStart => ?_
                exact read_still (hcount (some periodStart)) fun _ => trivial
          · exact hfree

theorem adminRoute_still {request : AdminRequest} {p : Py Resp}
    (h : adminEntry env request = .other p) : p.Uses (Still env) := by
  cases request with
  | createTenant name => cases h
  | createApiKey tenantId => cases h
  | revokeApiKey keyId => cases h
  | createPlan payload => cases h
  | listTenants limit offset =>
      cases h
      exact Prog.uses_bind ((Prog.uses_perform _ _).mpr (still_ask _))
        fun rows => trivial
  | listApiKeys tenantId =>
      cases h
      exact Prog.uses_bind ((Prog.uses_perform _ _).mpr (still_ask _))
        fun rows => trivial
  | getTenant tenantId =>
      cases h
      refine Prog.uses_bind (getTenant_still tenantId) fun found => ?_
      cases found <;> trivial
  | getTenantUsage tenantId =>
      cases h
      refine Prog.uses_bind (getTenant_still tenantId) fun found => ?_
      exact Prog.uses_bind (Prog.uses_right (fun e he => still_right he)
        (getTenantUsage_still _ _)) fun r => trivial

theorem webhook_still {rawBody : List UInt8} {signature : Option String}
    (hread : signedEvent env rawBody signature = none)
    (hwhole : ∀ payload, verifyWebhookSignature env.accounts.toSettings env.libs
      rawBody (signature.getD "") = .ok true →
      Py.loads rawBody = some payload → ¬ Fractional env.libs payload) :
    (webhook env.accounts.toSettings env.libs rawBody signature).Uses
      (machine env.pipeline).Still := by
  refine Prog.uses_ofExcept_bind fun verified hverified => ?_
  cases verified with
  | false => trivial
  | true =>
      cases hloads : Py.loads rawBody with
      | none => trivial
      | some payload =>
          refine Prog.uses_ofExcept_bind fun event hevent => ?_
          refine handleWebhook_still hevent ?_ (hwhole payload hverified hloads)
          unfold signedEvent at hread
          simpa [hverified, hloads] using hread

/-- What is no operation of either service reads, under `Whole`. -/
theorem calm_of_whole {s : Sys (service env)} {l : Label (service env)}
    (h : Whole env s l) : (gateway env).Calm (see env.pipeline) s l := by
  intro op p hl hentry
  replace hentry : entry env op = .other p := hentry
  cases op with
  | health =>
      cases hentry
      trivial
  | register payload => cases hentry
  | login payload => cases hentry
  | googleAuth idToken => cases hentry
  | tenant authorization xApiKey request => cases hentry
  | worker => cases hentry
  | webhook rawBody signature =>
      unfold entry at hentry
      cases hread : signedEvent env rawBody signature with
      | some read => simp [hread] at hentry
      | none =>
          simp only [hread] at hentry
          cases hentry
          have hstill := webhook_still hread fun payload hverified hloads =>
            h rawBody signature payload hl hverified hloads
          exact Prog.uses_bind (Prog.uses_right
            (fun e he => still_right he) hstill) fun _ => trivial
  | admin credentials request =>
      unfold entry at hentry
      cases hadmin : Accounts.requireAdmin env.accounts.toSettings
          credentials with
      | error x =>
          simp only [hadmin] at hentry
          cases hentry
          trivial
      | ok u =>
          simp only [hadmin] at hentry
          exact adminRoute_still hentry

/-- A run of the API is a run of the credential service and a run of the
deployment, over the same stores and with the same actions. -/
theorem gateway_refines {s : Sys (service env)} (h : Reachable env s) :
    ∃ v w f g, Accounts.Reachable env.accounts v
      ∧ ResumeScreening.Reachable env.pipeline w
      ∧ (gateway env).Joined s v w f g :=
  Chain.refines (h.mono fun _ _ => calm_of_whole)

-- ================================================== a deployment to try out

/-- An operator is configured, and sessions are signed as in
Sessions/Accounts.lean. -/
def sampleEnv : Env where
  accounts := { Accounts.Sessions.signing with
    adminUsername := "admin"
    adminPassword := "secret" }
  pipeline := ResumeScreening.sampleEnv
  libs :=
    { hmacSha256Hex := fun secret text => secret ++ text
      floatTimestamp := fun _ => .error (.valueError "year is out of range") }

def sampleCredentials : Accounts.HTTPBasicCredentials := ⟨"admin", "secret"⟩

/-- An outside where nothing fails, and `uuid4` draws this identifier. -/
def answers (id : UUID) : (e : sig.Act) →
    (Accounts.machine.beside (machine sampleEnv.pipeline) asks
      (see sampleEnv.pipeline)).Ans e
  | .left e => Accounts.SignUp.Choices.answer { id := id } e
  | .right e => Choices.answer { id := id } e
  | .ask _ => none

/-- Request `i` performs its next `n` actions. -/
def steps (i n : Nat) (id : UUID := .ofNat 0) :
    List (Label (service sampleEnv)) :=
  List.replicate n (.act i (answers id))

/-- A step that brings no webhook. -/
def webhookFree : Label (service sampleEnv) → Bool
  | .spawn (.webhook _ _) => false
  | _ => true

/-- What labels without a webhook reach from empty stores is reachable. -/
theorem reachable_of_exec (ls : List (Label (service sampleEnv)))
    (p : Sys (service sampleEnv) → Bool)
    (h : ((Sys.start (service sampleEnv)
      (Accounts.World.empty, World.empty)).exec
        (fun _ l => webhookFree l = true) ls).map p = some true) :
    ∃ s, Reachable sampleEnv s ∧ p s = true := by
  obtain ⟨s, hs, hp⟩ := Run.exists_of_exec h
  refine ⟨s, hs.mono fun t l hfree => ?_, hp⟩
  intro rawBody signature payload hl
  subst hl
  cases hfree

/-- An event about an order. -/
def orderBody : List UInt8 :=
  Py.utf8 (String.ofList (Py.printObject [("event", Py.quoted "order.paid")]))

theorem loads_orderBody : Py.loads orderBody
    = some (.obj [(Py.codes "event", .str (Py.codes "order.paid"))]) := by
  refine Py.loads_object (by simp)
    (.cons ⟨rfl, Py.reads_quoted "order.paid"⟩ .nil) ?_
  decide

end ResumeScreening.Api
