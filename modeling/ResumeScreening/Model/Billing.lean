/-
Billing: app/services/billing_service.py, the quota gate of
app/billing_guard.py, the upload route it guards
(app/routers/candidates.py), the subscribe route
(app/routers/billing.py) and the plan creation of app/routers/admin.py.

`createSubscription` and `handleWebhookEvent` assign to a row that was
just loaded, so their UPDATE sets the columns whose value changed.
-/
import ResumeScreening.Model.Candidates

namespace ResumeScreening

open Py (DateTime)

/-- A column assigned on a loaded row: written only if it changes. -/
def assign {α : Type} [DecidableEq α] (loaded value : α) : Option α :=
  if value = loaded then none else some value

@[simp] theorem assign_getD {α : Type} [DecidableEq α] (loaded value : α) :
    (assign loaded value).getD loaded = value := by
  unfold assign
  split
  next h => exact h.symm
  next => rfl

-- ================================================================= plans

def createdPlan (payload : PlanCreate) (id : UUID) : Plan where
  id := id
  name := payload.name
  price := payload.price
  currency := payload.currency
  monthlyResumeQuota := payload.monthlyResumeQuota
  durationMonths := payload.durationMonths
  razorpayPlanId := payload.razorpayPlanId

/-- `POST /admin/plans`, up to the refresh in front of its response. -/
def createPlan (payload : PlanCreate) : Py Plan := do
  let id ← call .uuid4
  call (.commit [.insertPlan (createdPlan payload id)])
  return createdPlan payload id

-- ========================================================= subscriptions

/-- The row `create_subscription` inserts for a tenant without one. -/
def createdSubscription (tenantId : UUID) (plan : Plan)
    (response : RazorpayResponse) (id : UUID) : Subscription where
  id := id
  tenantId := tenantId
  planId := plan.id
  status := response.status
  razorpaySubscriptionId := response.id

/-- The columns `create_subscription` sets on a row that exists. The
period end is not among them. -/
def replacedPatch (loaded : Subscription) (plan : Plan)
    (response : RazorpayResponse) : SubscriptionPatch where
  planId := assign loaded.planId plan.id
  status := assign loaded.status response.status
  razorpaySubscriptionId := assign loaded.razorpaySubscriptionId response.id

def createSubscription (tenantId planId : UUID) :
    Py (Subscription × String) := do
  match ← call (.getPlan planId) with
  | none => raise (.resourceNotFound "Plan not found")
  | some plan =>
      let response ← call (.createRazorpaySubscription plan.razorpayPlanId)
      match ← call (.selectSubscription tenantId) with
      | none =>
          let id ← call .uuid4
          call (.commit [.insertSubscription
            (createdSubscription tenantId plan response id)])
          let subscription ← call (.refreshSubscription id)
          return (subscription, response.shortUrl)
      | some loaded =>
          call (.commit [.updateSubscription loaded.id
            (replacedPatch loaded plan response)])
          let subscription ← call (.refreshSubscription loaded.id)
          return (subscription, response.shortUrl)

structure SubscribeResponse where
  subscriptionId : UUID
  status : String
  checkoutUrl : String
deriving DecidableEq

/-- `POST /billing/subscribe`: an unknown plan is a 404. -/
def subscribeRoute (tenantId planId : UUID) : Py SubscribeResponse := do
  let (subscription, checkoutUrl) ← Effect.Prog.handle
    (createSubscription tenantId planId) fun
      | .resourceNotFound msg => raise (.http 404 msg)
      | x => raise x
  return ⟨subscription.id, subscription.status, checkoutUrl⟩

-- ============================================================== webhooks

/-- `payload["subscription"]["entity"]`: its `id` and `current_end`. -/
structure SubscriptionEntity where
  id : Option String := none
  currentEnd : Option Int := none
deriving DecidableEq

/-- The part of a webhook payload that is read: each level may lack the
key of the next. -/
structure WebhookPayload where
  subscription : Option (Option SubscriptionEntity) := none
deriving DecidableEq

/-- `_STATUS_EVENTS.get(event_type)`. -/
def statusEvent (eventType : String) : Option String :=
  if eventType = "subscription.activated" then some "active"
  else if eventType = "subscription.charged" then some "active"
  else if eventType = "subscription.cancelled" then some "cancelled"
  else if eventType = "subscription.halted" then some "cancelled"
  else none

/-- `payload["subscription"]["entity"]["id"]`, with the entity. -/
def WebhookPayload.entity (payload : WebhookPayload) :
    Except Exn (String × SubscriptionEntity) :=
  match payload.subscription with
  | none => .error (.keyError "subscription")
  | some none => .error (.keyError "entity")
  | some (some e) =>
      match e.id with
      | none => .error (.keyError "id")
      | some id => .ok (id, e)

/-- `datetime.fromtimestamp(current_end, tz=timezone.utc)`. -/
def fromTimestamp (seconds : Int) : Except Exn DateTime :=
  match DateTime.fromTimestamp seconds with
  | some t => .ok t
  | none => .error (.valueError "year is out of range")

/-- The period end an event assigns: only a charge that carries one
does. -/
def periodEnd (eventType : String) (entity : SubscriptionEntity) :
    Except Exn (Option DateTime) :=
  if eventType = "subscription.charged" then
    match entity.currentEnd with
    | some seconds => (fromTimestamp seconds).map some
    | none => .ok none
  else .ok none

/-- The columns `handle_webhook_event` sets. -/
def webhookPatch (loaded : Subscription) (newStatus : String)
    (newEnd : Option DateTime) : SubscriptionPatch where
  status := assign loaded.status newStatus
  currentPeriodEnd := match newEnd with
    | some t => assign loaded.currentPeriodEnd (some t)
    | none => none

def handleWebhookEvent (eventType : String) (payload : WebhookPayload) :
    Py Unit := do
  match statusEvent eventType with
  | none => return ()
  | some newStatus =>
      let (razorpayId, entity) ← Effect.Prog.ofExcept payload.entity
      match ← call (.selectSubscriptionByRazorpayId razorpayId) with
      | none => return ()
      | some loaded =>
          let newEnd ← Effect.Prog.ofExcept (periodEnd eventType entity)
          call (.commit [.updateSubscription loaded.id
            (webhookPatch loaded newStatus newEnd)])

-- ================================================================== quota

/-- An arithmetic overflow of `datetime` or `timedelta`. -/
def overflow {α : Type} : Option α → Except Exn α
  | some a => .ok a
  | none => .error (.external "OverflowError")

/-- `current_period_start`. -/
def currentPeriodStart (subscription : Subscription) (plan : Plan) :
    Py DateTime := do
  let window ← Effect.Prog.ofExcept
    (overflow (Py.timedeltaDays (30 * plan.durationMonths)))
  match subscription.currentPeriodEnd with
  | some t => Effect.Prog.ofExcept (overflow (t.sub window))
  | none =>
      let now ← call .utcNow
      Effect.Prog.ofExcept (overflow (now.sub window))

def freeTierExceeded (env : Env) : Exn :=
  .http 402 ("Free tier limit (" ++ toString env.freeTierResumeLimit
    ++ " resumes) reached. Subscribe to a plan to continue.")

def quotaExceeded : Exn := .http 402 "Monthly resume quota exceeded."

/-- The free-tier branch: a lifetime count. -/
def freeTierGate (env : Env) (tenantId : UUID) : Py UUID := do
  let used : Nat ← call (.countCandidates tenantId none)
  if env.freeTierResumeLimit ≤ used then
    raise (freeTierExceeded env)
  else return tenantId

/-- The branch of an active subscription: a count since the period
start, where the plan has a quota. -/
def paidGate (tenantId : UUID) (subscription : Subscription) : Py UUID := do
  match ← call (.getPlan subscription.planId) with
  | none => raise (.external "AttributeError")
  | some plan =>
      match plan.monthlyResumeQuota with
      | none => return tenantId
      | some quota =>
          let periodStart ← currentPeriodStart subscription plan
          let used : Nat ← call (.countCandidates tenantId (some periodStart))
          if quota ≤ used then raise quotaExceeded
          else return tenantId

def enforceQuota (env : Env) (tenantId : UUID) : Py UUID := do
  match ← call (.selectSubscription tenantId) with
  | none => freeTierGate env tenantId
  | some subscription =>
      if subscription.status = "active" then paidGate tenantId subscription
      else freeTierGate env tenantId

/-- `POST /candidates/upload`: the gate, the content type, the
placeholder with its message. -/
def uploadResume (env : Env) (tenantId : UUID) (file : UploadFile) :
    Py Candidate := do
  let tenantId ← enforceQuota env tenantId
  if file.contentType ≠ "application/pdf" then
    raise (.http 400 "Only PDF files are supported")
  else enqueueResumeUpload env tenantId file.bytes

end ResumeScreening
