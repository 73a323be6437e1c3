/-
The quota gate and the usage view as functions of the committed rows and
the clock.

Both only read. Where every read is answered, what each of them replies
is decided by the tenant's row, its plan, the counts and the instant the
clock gives: `gateAt` and `usageAt`, one branch for each branch of the
code. The questions about the gate are asked of these.
-/
import ResumeScreening.Model.Admin
import ResumeScreening.Model.Service

namespace ResumeScreening.Quota

open Effect Prog

variable {env : Env} {t : UUID} {now : Py.DateTime} {w : World}

-- ==================================================================== readings

/-- What the gate reads of a tenant's row. -/
def subscriptionOf (w : World) (t : UUID) : Option Subscription :=
  w.db.subscriptions.find? fun r => r.tenantId == t

/-- What it reads of a row's plan. -/
def planOf (w : World) (s : Subscription) : Option Plan :=
  w.db.plans.find? fun r => r.id == s.planId

/-- How many of the tenant's rows there are since an instant. -/
def usedSince (w : World) (t : UUID) (since : Option Py.DateTime) : Nat :=
  w.db.candidates.count fun r => r.tenantId == t
    && since.all fun start => decide (start.micros ≤ r.createdAt.micros)

/-- The start of the period that is counted; `none` where the arithmetic
overflows. -/
def windowStart (sub : Subscription) (plan : Plan) (now : Py.DateTime) :
    Option Py.DateTime :=
  (Py.timedeltaDays (30 * plan.durationMonths)).bind fun window =>
    (sub.currentPeriodEnd.getD now).sub window

def overflowError : Exn := .external "OverflowError"

def missingPlan : Exn := .external "AttributeError"

-- ==================================================================== the gate

def freeAt (env : Env) (t : UUID) (w : World) : Except Exn UUID :=
  if env.freeTierResumeLimit ≤ usedSince w t none then
    .error (freeTierExceeded env)
  else .ok t

def paidAt (t : UUID) (now : Py.DateTime) (w : World) (s : Subscription) :
    Except Exn UUID :=
  match planOf w s with
  | none => .error missingPlan
  | some plan =>
      match plan.monthlyResumeQuota with
      | none => .ok t
      | some quota =>
          match windowStart s plan now with
          | none => .error overflowError
          | some start =>
              if quota ≤ usedSince w t (some start) then .error quotaExceeded
              else .ok t

/-- What `enforce_quota` decides. -/
def gateAt (env : Env) (t : UUID) (now : Py.DateTime) (w : World) :
    Except Exn UUID :=
  match subscriptionOf w t with
  | none => freeAt env t w
  | some s => if s.status = "active" then paidAt t now w s else freeAt env t w

-- ==================================================================== the view

def freeUsageAt (env : Env) (t : UUID) (w : World) : TenantUsageResponse where
  tenantId := t
  isFreeTier := true
  candidatesThisPeriod := usedSince w t none
  monthlyResumeQuota := none
  freeTierLimit := some env.freeTierResumeLimit

def paidUsageAt (t : UUID) (now : Py.DateTime) (w : World) (s : Subscription) :
    Except Exn TenantUsageResponse :=
  match planOf w s with
  | none => .error missingPlan
  | some plan =>
      match windowStart s plan now with
      | none => .error overflowError
      | some start => .ok {
          tenantId := t
          isFreeTier := false
          candidatesThisPeriod := usedSince w t (some start)
          monthlyResumeQuota := plan.monthlyResumeQuota }

/-- What `get_tenant_usage` shows of a tenant there is. -/
def usageAt (env : Env) (t : UUID) (now : Py.DateTime) (w : World) :
    Except Exn TenantUsageResponse :=
  match subscriptionOf w t with
  | none => .ok (freeUsageAt env t w)
  | some s =>
      if s.status = "active" then paidUsageAt t now w s
      else .ok (freeUsageAt env t w)

-- =============================================================== the programs

/-- An outside where every read is answered and the clock shows `now`. -/
def readingAt (env : Env) (now : Py.DateTime) : Oracle (machine env)
  | _, .selectSubscription _ => some (.ok ())
  | _, .getPlan _ => some (.ok ())
  | _, .countCandidates .. => some (.ok ())
  | _, .utcNow => some now
  | _, _ => none

/-- An answered read in front. -/
theorem run_read {α : Type} {O : Oracle (machine env)} {e : Act}
    {f : e.Ret → Py α} {n : Nat} {a : e.Ans} {v : e.Ret} (ha : O n e = some a)
    (hv : perform env e a w = (.ok v, w)) :
    ((call e).bind f).run O n w = (f v).run O (n + 1) w := by
  show (Prog.act e _).run O n w = _
  rw [run_act]
  simp only [ha]
  rw [hv]
  rfl

/-- The period's start in front of something that is decided by it. -/
theorem currentPeriodStart_at {α : Type} {s : Subscription} {plan : Plan}
    {f : Py.DateTime → Py α} {g : Py.DateTime → Except Exn α}
    (hf : ∀ start n, ((f start).run (readingAt env now) n w).1
      = some (g start)) (n : Nat) :
    (((currentPeriodStart s plan).bind f).run (readingAt env now) n w).1
      = some (match windowStart s plan now with
        | none => .error overflowError
        | some start => g start) := by
  unfold currentPeriodStart windowStart
  cases hwin : Py.timedeltaDays (30 * plan.durationMonths) with
  | none => rfl
  | some window =>
      cases hend : s.currentPeriodEnd with
      | some e =>
          simp only [overflow, Prog.ofExcept, bind_eq, ret_bind,
            Option.bind_some, Option.getD_some]
          cases e.sub window with
          | none => rfl
          | some start => exact hf start n
      | none =>
          simp only [overflow, Prog.ofExcept, bind_eq, ret_bind, bind_assoc,
            Option.bind_some, Option.getD_none]
          rw [run_read (v := now) rfl rfl]
          cases now.sub window with
          | none => rfl
          | some start => exact hf start (n + 1)

theorem freeTierGate_at (n : Nat) :
    ((freeTierGate env t).run (readingAt env now) n w).1
      = some (freeAt env t w) := by
  unfold freeTierGate freeAt
  rw [bind_eq, run_read (v := usedSince w t none) rfl rfl]
  split <;> rfl

theorem paidGate_at (s : Subscription) (n : Nat) :
    ((paidGate t s).run (readingAt env now) n w).1
      = some (paidAt t now w s) := by
  unfold paidGate paidAt
  rw [bind_eq, run_read (v := planOf w s) rfl rfl]
  cases hplan : planOf w s with
  | none => rfl
  | some plan =>
      cases hquota : plan.monthlyResumeQuota with
      | none => simp only [hquota]; rfl
      | some quota =>
          simp only [hquota, bind_eq]
          refine currentPeriodStart_at (fun start n => ?_) (n + 1)
          rw [run_read (v := usedSince w t (some start)) rfl rfl]
          split <;> rfl

/-- The gate decides as `gateAt` says. -/
theorem enforceQuota_at (n : Nat) :
    ((enforceQuota env t).run (readingAt env now) n w).1
      = some (gateAt env t now w) := by
  unfold enforceQuota gateAt
  rw [bind_eq, run_read (v := subscriptionOf w t) rfl rfl]
  cases subscriptionOf w t with
  | none => exact freeTierGate_at _
  | some s =>
      simp only
      split
      · exact paidGate_at s _
      · exact freeTierGate_at _

theorem freeTierUsage_at (n : Nat) :
    ((freeTierUsage env t).run (readingAt env now) n w).1
      = some (.ok (freeUsageAt env t w)) := by
  unfold freeTierUsage
  rw [bind_eq, run_read (v := usedSince w t none) rfl rfl]
  rfl

theorem paidUsage_at (s : Subscription) (n : Nat) :
    ((paidUsage t s).run (readingAt env now) n w).1
      = some (paidUsageAt t now w s) := by
  unfold paidUsage paidUsageAt
  rw [bind_eq, run_read (v := planOf w s) rfl rfl]
  cases planOf w s with
  | none => rfl
  | some plan =>
      refine currentPeriodStart_at (fun start n => ?_) (n + 1)
      rw [bind_eq, run_read (v := usedSince w t (some start)) rfl rfl]
      rfl

/-- The view shows what `usageAt` says. -/
theorem getTenantUsage_at (tenant : Tenant) (n : Nat) :
    ((getTenantUsage env (some tenant) t).run (readingAt env now) n w).1
      = some (usageAt env t now w) := by
  unfold getTenantUsage usageAt
  simp only
  rw [bind_eq, run_read (v := subscriptionOf w t) rfl rfl]
  cases subscriptionOf w t with
  | none => exact freeTierUsage_at _
  | some s =>
      simp only
      split
      · exact paidUsage_at s _
      · exact freeTierUsage_at _

end ResumeScreening.Quota
