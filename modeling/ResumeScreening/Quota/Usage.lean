/-
The usage view and the gate.

`get_tenant_usage` repeats the branches of `enforce_quota`, but computes
the period's start before it looks at the quota. So the two say the same
of a tenant exactly where that start exists (`view_agrees`): a plan whose
duration takes the arithmetic out of `datetime`'s range makes the view
fail, also where the plan is unlimited and the gate never computes it.
-/
import ResumeScreening.Quota.Decision
import ResumeScreening.Subscriptions.Plans

namespace ResumeScreening.Quota

open Effect

variable {env : Env} {t : UUID} {now : Py.DateTime} {w : World}

-- ============================================================== the statement

/-- The figures leave room for one more candidate. -/
def HasRoom (u : TenantUsageResponse) : Prop :=
  (u.isFreeTier = true ∧ ∃ limit, u.freeTierLimit = some limit
      ∧ (u.candidatesThisPeriod : Int) < limit)
    ∨ (u.isFreeTier = false ∧ ∀ quota, u.monthlyResumeQuota = some quota →
      (u.candidatesThisPeriod : Int) < quota)

/-- In one state and at one instant: the view returns, and the gate admits
the tenant exactly where the figures say so. -/
def Agree (env : Env) (tenant : Tenant) (now : Py.DateTime) (w : World) :
    Prop :=
  ∃ u, ((getTenantUsage env (some tenant) tenant.id).run (readingAt env now)
      0 w).1 = some (.ok u)
    ∧ (((enforceQuota env tenant.id).run (readingAt env now) 0 w).1
        = some (.ok tenant.id) ↔ HasRoom u)

/-- `timedelta` can hold the plan's window, and `datetime` the instant
that lies a window before the period's end. -/
def WindowFits (s : Subscription) (plan : Plan) (now : Py.DateTime) : Prop :=
  (30 * plan.durationMonths).natAbs ≤ 999999999
    ∧ Py.minMicros ≤ (s.currentPeriodEnd.getD now).micros
      - 30 * plan.durationMonths * 86400000000
    ∧ (s.currentPeriodEnd.getD now).micros
      - 30 * plan.durationMonths * 86400000000 ≤ Py.maxMicros

instance (s : Subscription) (plan : Plan) (now : Py.DateTime) :
    Decidable (WindowFits s plan now) :=
  inferInstanceAs (Decidable (_ ∧ _))

/-- The tenant has no active subscription, or one whose window fits. -/
def Computable (t : UUID) (now : Py.DateTime) (w : World) : Prop :=
  ∀ s ∈ w.db.subscriptions.rows, s.tenantId = t → s.status = "active" →
    ∀ plan ∈ w.db.plans.rows, plan.id = s.planId → WindowFits s plan now

instance (t : UUID) (now : Py.DateTime) (w : World) :
    Decidable (Computable t now w) :=
  inferInstanceAs (Decidable (∀ s ∈ w.db.subscriptions.rows, _ → _ → _))

-- ==================================================================== the parts

theorem windowStart_fits (s : Subscription) (plan : Plan) (now : Py.DateTime) :
    (∃ start, windowStart s plan now = some start) ↔ WindowFits s plan now := by
  unfold windowStart WindowFits Py.timedeltaDays
  split
  next hdays =>
    simp only [Option.bind_some, Py.DateTime.sub, Py.DateTime.ofMicros]
    split
    next hrange => exact ⟨fun _ => ⟨hdays, hrange⟩, fun _ => ⟨_, rfl⟩⟩
    next hrange =>
      constructor
      · rintro ⟨start, h⟩
        cases h
      · exact fun h => absurd h.2 hrange
  next hdays =>
    constructor
    · rintro ⟨start, h⟩
      cases h
    · exact fun h => absurd h.1 hdays

/-- The row of a tenant is the one with its id. -/
theorem subscriptionOf_iff {s : Subscription} : subscriptionOf w t = some s
    ↔ s ∈ w.db.subscriptions.rows ∧ s.tenantId = t := by
  have hkey : subscriptionSchema.Key fun r => r.tenantId == t := by
    intro a b ha hb
    simp_all [subscriptionSchema]
  rw [subscriptionOf, Relational.Table.find?_key _ hkey, beq_iff_eq]

theorem planOf_iff {s : Subscription} {plan : Plan} : planOf w s = some plan
    ↔ plan ∈ w.db.plans.rows ∧ plan.id = s.planId := by
  have hkey : planSchema.Key fun r => r.id == s.planId := by
    intro a b ha hb
    simp_all [planSchema]
  rw [planOf, Relational.Table.find?_key _ hkey, beq_iff_eq]

theorem free_agrees (env : Env) (t : UUID) (w : World) :
    freeAt env t w = .ok t ↔ HasRoom (freeUsageAt env t w) := by
  unfold freeAt HasRoom freeUsageAt
  simp only [true_and, Option.some.injEq, exists_eq_left', Bool.true_eq_false,
    false_and, or_false]
  split
  next hfull =>
    constructor
    · exact fun h => nomatch h
    · intro hroom
      omega
  next hroom => exact ⟨fun _ => by omega, fun _ => rfl⟩

/-- Of an active subscription on a plan: the view returns where the window
fits, and then shows what the gate decides. -/
theorem paid_agrees {s : Subscription} {plan : Plan}
    (hplan : planOf w s = some plan) :
    (∃ u, paidUsageAt t now w s = .ok u
        ∧ (paidAt t now w s = .ok t ↔ HasRoom u)) ↔ WindowFits s plan now := by
  rw [← windowStart_fits]
  unfold paidUsageAt paidAt
  simp only [hplan]
  cases hstart : windowStart s plan now with
  | none =>
      constructor
      · rintro ⟨u, hu, -⟩
        cases hu
      · rintro ⟨start, h⟩
        cases h
  | some start =>
      refine ⟨fun _ => ⟨start, rfl⟩, fun _ => ⟨_, rfl, ?_⟩⟩
      unfold HasRoom
      simp only [Bool.false_eq_true, false_and, true_and, false_or]
      cases hquota : plan.monthlyResumeQuota with
      | none => exact ⟨fun _ quota h => (nomatch h), fun _ => rfl⟩
      | some quota =>
          simp only [Option.some.injEq, forall_eq']
          split
          next hfull =>
            constructor
            · exact fun h => nomatch h
            · intro hroom
              omega
          next hroom => exact ⟨fun _ => by omega, fun _ => rfl⟩

-- ==================================================================== the claim

/-- In every reachable state the view and the gate agree on a tenant
exactly where the window of its active subscription, if it has one,
fits. -/
theorem view_agrees {s : Sys (service env)} (h : Reachable env s)
    (tenant : Tenant) (now : Py.DateTime) :
    Agree env tenant now s.world ↔ Computable tenant.id now s.world := by
  unfold Agree
  rw [getTenantUsage_at, enforceQuota_at]
  simp only [Option.some.injEq]
  unfold usageAt gateAt
  cases hsub : subscriptionOf s.world tenant.id with
  | none =>
      constructor
      · intro _ row hrow ht
        rw [subscriptionOf_iff.mpr ⟨hrow, ht⟩] at hsub
        cases hsub
      · exact fun _ => ⟨_, rfl, free_agrees env tenant.id s.world⟩
  | some row =>
      obtain ⟨hrow, ht⟩ := subscriptionOf_iff.mp hsub
      obtain ⟨plan, hin, hid⟩ := Subscriptions.reachable_plans h row hrow
      have hplan : planOf s.world row = some plan := planOf_iff.mpr ⟨hin, hid⟩
      by_cases hactive : row.status = "active"
      · simp only [hactive, if_true]
        rw [paid_agrees hplan]
        constructor
        · intro hfits row' hrow' ht' _ plan' hin' hid'
          rw [subscriptionOf_iff.mpr ⟨hrow', ht'⟩, Option.some.injEq] at hsub
          rw [hsub] at hid' ⊢
          rw [planOf_iff.mpr ⟨hin', hid'⟩, Option.some.injEq] at hplan
          rw [hplan]
          exact hfits
        · exact fun hall => hall row hrow ht hactive plan hin hid
      · simp only [hactive, if_false]
        constructor
        · intro _ row' hrow' ht' hactive'
          rw [subscriptionOf_iff.mpr ⟨hrow', ht'⟩, Option.some.injEq] at hsub
          rw [hsub] at hactive'
          exact absurd hactive' hactive
        · exact fun _ => ⟨_, rfl, free_agrees env tenant.id s.world⟩

-- ===================================================================== samples

def sampleTenantRow : Tenant := ⟨sampleTenant, "acme"⟩

/-- An unlimited plan that lasts longer than `timedelta` can say. -/
def longPlan : PlanCreate :=
  { samplePlan with durationMonths := 40000000 }

/-- A tenant subscribes to a plan and its subscription is activated. -/
def activated (payload : PlanCreate) : List (Label (service sampleEnv)) :=
  .spawn (.createPlan payload) :: steps 0 2 { id := UUID.ofNat 5 }
    ++ .spawn (.subscribe sampleTenant (UUID.ofNat 5)) :: steps 1 6
    ++ .spawn (.webhook "subscription.activated"
      { subscription := some (some { id := some "sub_1" }) }) :: steps 2 2

/-- The view and the gate agree on a subscriber of a plan of one month. -/
theorem view_agrees_sample : ∃ s : Sys (service sampleEnv),
    Reachable sampleEnv s
    ∧ (∃ row ∈ s.world.db.subscriptions.rows, row.status = "active")
    ∧ Agree sampleEnv sampleTenantRow Py.DateTime.epoch s.world := by
  have hexec : Reaches (activated samplePlan) (fun s =>
      decide ((∃ row ∈ s.world.db.subscriptions.rows, row.status = "active")
        ∧ Computable sampleTenant Py.DateTime.epoch s.world)) := by
    decide +kernel
  obtain ⟨s, hrun, hp⟩ := Run.exists_of_exec hexec
  obtain ⟨hactive, hfits⟩ := of_decide_eq_true hp
  exact ⟨s, hrun, hactive, (view_agrees hrun sampleTenantRow _).mpr hfits⟩

/-- A subscriber of the long plan is let through by the gate, and the view
of it raises. -/
theorem view_fails : ∃ s : Sys (service sampleEnv), Reachable sampleEnv s
    ∧ ((enforceQuota sampleEnv sampleTenant).run
        (readingAt sampleEnv Py.DateTime.epoch) 0 s.world).1
      = some (.ok sampleTenant)
    ∧ ((getTenantUsage sampleEnv (some sampleTenantRow) sampleTenant).run
        (readingAt sampleEnv Py.DateTime.epoch) 0 s.world).1
      = some (.error overflowError)
    ∧ ¬ Agree sampleEnv sampleTenantRow Py.DateTime.epoch s.world := by
  have hexec : Reaches (activated longPlan) (fun s =>
      decide (gateAt sampleEnv sampleTenant Py.DateTime.epoch s.world
          = .ok sampleTenant
        ∧ usageAt sampleEnv sampleTenant Py.DateTime.epoch s.world
          = .error overflowError)) := by
    decide +kernel
  obtain ⟨s, hrun, hp⟩ := Run.exists_of_exec hexec
  obtain ⟨hgate, husage⟩ := of_decide_eq_true hp
  refine ⟨s, hrun, ?_, ?_, ?_⟩
  · rw [enforceQuota_at, hgate]
  · rw [getTenantUsage_at, husage]
  · rintro ⟨u, hu, -⟩
    rw [getTenantUsage_at, show sampleTenantRow.id = sampleTenant from rfl,
      husage] at hu
    cases hu

end ResumeScreening.Quota
