/-
The usage view of app/routers/admin.py.

The rows of the `tenants` table are not part of the world here: what
`db.get(Tenant, tenant_id)` finds is a parameter.
-/
import ResumeScreening.Model.Billing

namespace ResumeScreening

/-- A row of `tenants`, as far as the admin routes read it. -/
structure Tenant where
  id : UUID
  name : String
deriving DecidableEq

structure TenantUsageResponse where
  tenantId : UUID
  isFreeTier : Bool
  candidatesThisPeriod : Nat
  monthlyResumeQuota : Option Int
  freeTierLimit : Option Int := none
deriving DecidableEq

/-- The figures of a tenant without an active subscription. -/
def freeTierUsage (env : Env) (tenantId : UUID) : Py TenantUsageResponse := do
  let used ← call (.countCandidates tenantId none)
  return {
    tenantId := tenantId
    isFreeTier := true
    candidatesThisPeriod := used
    monthlyResumeQuota := none
    freeTierLimit := some env.freeTierResumeLimit }

/-- The figures of an active one: the period's start is computed whether
or not the plan has a quota. -/
def paidUsage (tenantId : UUID) (subscription : Subscription) :
    Py TenantUsageResponse := do
  match ← call (.getPlan subscription.planId) with
  | none => raise (.external "AttributeError")
  | some plan =>
      let periodStart ← currentPeriodStart subscription plan
      let used ← call (.countCandidates tenantId (some periodStart))
      return {
        tenantId := tenantId
        isFreeTier := false
        candidatesThisPeriod := used
        monthlyResumeQuota := plan.monthlyResumeQuota }

/-- `GET /admin/tenants/{tenant_id}/usage`. -/
def getTenantUsage (env : Env) (tenant : Option Tenant) (tenantId : UUID) :
    Py TenantUsageResponse := do
  match tenant with
  | none => raise (.http 404 "Tenant not found")
  | some _ =>
      match ← call (.selectSubscription tenantId) with
      | none => freeTierUsage env tenantId
      | some subscription =>
          if subscription.status = "active" then
            paidUsage tenantId subscription
          else freeTierUsage env tenantId

end ResumeScreening
