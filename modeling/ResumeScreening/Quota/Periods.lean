/-
The quota over a billing period.

A period is `duration_months` calendar months, and the gate counts from
`30 * duration_months` days before its end. Where the period is no longer
than that, every upload of it is counted, and no more than the quota are
accepted (`period_quota_holds`). A longer period has first days that are
never counted.

A `Billed` history is one tenant's requests one after another, from a
period's start, with anything else the service does in between.
-/
import ResumeScreening.Py.Calendar
import ResumeScreening.Lib.Recorded
import ResumeScreening.Pipeline.Effects
import ResumeScreening.Tenancy.Sound
import ResumeScreening.Quota.Stale

namespace ResumeScreening.Quota

open Effect Prog Pipeline

variable {env : Env} {t : UUID} {w w' : World} {as : List (Given (machine env))}
  {plan : Plan} {quota : Int} {n : Nat}

-- ============================================================== the statement

/-- A period a plan is charged for. -/
structure BillingPeriod (plan : Plan) where
  start : Py.DateTime
  stop : Py.DateTime
  months : Py.MonthsLater plan.durationMonths start stop

/-- The instants of a period: its end is the next one's. -/
def BillingPeriod.Contains (p : BillingPeriod plan) (now : Py.DateTime) :
    Prop :=
  p.start.micros ≤ now.micros ∧ now.micros < p.stop.micros

/-- The stretch the gate counts covers the period. -/
def BillingPeriod.Counted (p : BillingPeriod plan) : Prop :=
  p.stop.micros - p.start.micros ≤ windowLength plan
    ∨ p.stop.micros ≤ p.start.micros

/-- No period of a yearly plan is covered. -/
theorem BillingPeriod.year_not_counted (p : BillingPeriod plan)
    (h : plan.durationMonths = 12) : ¬ p.Counted := by
  have hyear : 365 * Py.dayMicros ≤ p.stop.micros - p.start.micros := by
    have hmonths := p.months
    rw [h] at hmonths
    exact hmonths.year
  unfold Counted windowLength
  rw [h]
  unfold Py.dayMicros at hyear
  omega

instance (p : BillingPeriod plan) (now : Py.DateTime) :
    Decidable (p.Contains now) :=
  inferInstanceAs (Decidable (_ ∧ _))

/-- The time an answer tells. -/
def timeOf : Given (machine env) → Option Py.DateTime
  | ⟨.transactionNow, (a : Except String Py.DateTime)⟩ => a.toOption
  | ⟨.utcNow, (now : Py.DateTime)⟩ => some now
  | _ => none

/-- Whenever the request is told the time, it is in the period. -/
def During (p : BillingPeriod plan) (as : List (Given (machine env))) : Prop :=
  ∀ now ∈ as.filterMap timeOf, p.Contains now

/-- The tenant's subscription is active, and its latest charge was for the
period. -/
def ChargedFor (w : World) (t : UUID) (quota : Int) (p : BillingPeriod plan) :
    Prop :=
  ∃ s, Paying w t s plan quota ∧ s.currentPeriodEnd = some p.stop

def accepted : Option (Except Exn Candidate) → Bool
  | some (.ok _) => true
  | _ => false

/-- The tenant's uploads of a period, one after another, with how many
were accepted. In between, any action of anything else. -/
inductive Billed (env : Env) (t : UUID) (quota : Int) (p : BillingPeriod plan)
    (w : World) : Nat → World → Prop
  | start : Billed env t quota p w 0 w
  | upload {n w₁ file as r w₂} : Billed env t quota p w n w₁ →
      ChargedFor w₁ t quota p →
      Went (machine env) (uploadResume env t file) w₁ as r w₂ →
      During p as →
      Billed env t quota p w (n + if accepted r then 1 else 0) w₂
  | other {n w₁ e} (a : Act.Ans e) : Billed env t quota p w n w₁ →
      admits w₁ e a = true →
      Billed env t quota p w n (perform env e a w₁).2
  | surroundings {n w₁ k w₂} : Billed env t quota p w n w₁ →
      Surroundings.move k w₁ = some w₂ → Billed env t quota p w n w₂

-- ===================================================================== counting

/-- No statement takes a row out of a count that its UPDATEs cannot
notice. -/
theorem count_write {db db' : Db} {x : Write} (h : db.write x = some db')
    (q : Candidate → Bool)
    (hq : ∀ (set : CandidatePatch) c, q (set.apply c) = q c) :
    db.candidates.count q ≤ db'.candidates.count q := by
  cases x with
  | insertCandidate row =>
      obtain ⟨rows, hrows, rfl⟩ := write_insertCandidate h
      rw [Relational.Table.count_insert? hrows]
      exact Nat.le_add_right _ _
  | updateCandidate id set =>
      obtain ⟨rows, hrows, rfl⟩ := write_updateCandidate h
      exact Nat.le_of_eq
        (Relational.Table.count_update? hrows fun c _ _ => hq set c).symm
  | insertJob row =>
      obtain ⟨rows, -, rfl⟩ := write_insertJob h
      exact Nat.le_refl _
  | insertPlan row =>
      obtain ⟨rows, -, rfl⟩ := Option.map_eq_some_iff.mp h
      exact Nat.le_refl _
  | insertSubscription row =>
      obtain ⟨rows, -, rfl⟩ := Option.map_eq_some_iff.mp h
      exact Nat.le_refl _
  | updateSubscription id set =>
      obtain ⟨rows, -, rfl⟩ := Option.map_eq_some_iff.mp h
      exact Nat.le_refl _
  | insertMatchResult m =>
      simp only [Db.write] at h
      split at h
      · cases h
        exact Nat.le_refl _
      · cases h

theorem count_writeAll {q : Candidate → Bool}
    (hq : ∀ (set : CandidatePatch) c, q (set.apply c) = q c)
    {pending : List Write} : ∀ {db db' : Db}, db.writeAll pending = some db' →
      db.candidates.count q ≤ db'.candidates.count q := by
  induction pending with
  | nil =>
      intro db db' h
      cases h
      exact Nat.le_refl _
  | cons x xs ih =>
      intro db db' h
      unfold Db.writeAll at h
      cases hx : db.write x with
      | none => simp [hx] at h
      | some db₁ =>
          simp only [hx] at h
          exact Nat.le_trans (count_write hx q hq) (ih h)

/-- No action lowers the count of a tenant's rows since an instant. -/
theorem usedSince_touched (t : UUID) (since : Option Py.DateTime)
    {ev : Event sig} (h : Tenancy.Touched env w ev w') :
    usedSince w t since ≤ usedSince w' t since := by
  cases h with
  | nothing hs =>
      have hsame : usedSince w t since = usedSince w' t since := by
        unfold usedSince
        rw [hs.db]
      exact Nat.le_of_eq hsame
  | committed hdb => exact count_writeAll (fun _ _ => rfl) hdb
  | _ => exact Nat.le_refl _

theorem usedSince_went {α : Type} {p : Py α} {r : Option (Except Exn α)}
    (t : UUID) (since : Option Py.DateTime)
    (h : Went (machine env) p w as r w') :
    usedSince w t since ≤ usedSince w' t since := by
  obtain ⟨tr, h⟩ := h
  exact h.forget.grows (f := fun w => usedSince w t since)
    fun _ _ _ hadm => usedSince_touched t since (Tenancy.touched env hadm)

/-- A later instant has fewer rows since it. -/
theorem usedSince_mono {a b : Py.DateTime} (h : a.micros ≤ b.micros) :
    usedSince w t (some b) ≤ usedSince w t (some a) := by
  refine List.countP_mono_left fun r _ hr => ?_
  simp only [Option.all_some, Bool.and_eq_true, beq_iff_eq,
    decide_eq_true_eq] at hr ⊢
  exact ⟨hr.1, by omega⟩

-- ============================================================= an accepted one

/-- A read that was answered told what was there. -/
theorem read_told {α : Type} {a : Except String Unit} {v v' : α}
    (h : (w.read a v).1 = .ok v') : v' = v ∧ (w.read a v).2 = w := by
  cases a with
  | ok u =>
      cases h
      exact ⟨rfl, rfl⟩
  | error msg => cases h

/-- Arithmetic that was answered did not overflow. -/
theorem overflow_went {α : Type} {x : Option α} {v : α}
    (h : Went (machine env) (Prog.ofExcept (overflow x)) w as (some (.ok v))
      w') : w' = w ∧ x = some v := by
  cases x with
  | none =>
      obtain ⟨-, hr, -⟩ := Went.raise_iff.mp h
      cases hr
  | some a =>
      obtain ⟨-, hr, hw⟩ := Went.ret_iff.mp h
      cases hr
      exact ⟨hw, rfl⟩

/-- The start a request computed is the one at an instant it was told. -/
theorem periodStart_went {s : Subscription} {start : Py.DateTime}
    (h : Went (machine env) (currentPeriodStart s plan) w as
      (some (.ok start)) w') :
    w' = w ∧ ∃ now, windowStart s plan now = some start := by
  unfold windowStart
  obtain ⟨window, as₁, w₁, as₂, -, hdays, hrest⟩ := h.bind_ok
  obtain ⟨rfl, hwindow⟩ := overflow_went hdays
  simp only [hwindow, Option.bind_some]
  cases hend : s.currentPeriodEnd with
  | some e =>
      rw [hend] at hrest
      obtain ⟨hw, hstart⟩ := overflow_went hrest
      exact ⟨hw, e, hstart⟩
  | none =>
      rw [hend] at hrest
      obtain ⟨now, v, as₃, -, hv, hlast⟩ := hrest.call_ok
      cases hv
      obtain ⟨hw, hstart⟩ := overflow_went hlast
      exact ⟨hw, now, hstart⟩

/-- An active subscriber the gate let through has rows left in its plan. -/
theorem paid_passed {s : Subscription} {t' : UUID}
    (hplan : planOf w s = some plan) (hquota : plan.monthlyResumeQuota = some quota)
    (h : Went (machine env) (paidGate t s) w as (some (.ok t')) w') :
    ∃ now start, windowStart s plan now = some start
      ∧ (usedSince w t (some start) : Int) < quota := by
  unfold paidGate at h
  obtain ⟨a, o, as₁, -, ho, h⟩ := h.call_ok
  obtain ⟨heq, hw⟩ := read_told ho
  rw [show o = some plan from heq.trans hplan,
    show ((machine env).perform (.getPlan s.planId) a w).2 = w from hw] at h
  simp only [hquota, bind_eq] at h
  obtain ⟨start, as₂, w₂, as₃, -, hstart, hcount⟩ := h.bind_ok
  obtain ⟨hsame, now, hnow⟩ := periodStart_went hstart
  rw [hsame] at hcount
  obtain ⟨b, used, as₄, -, hused, hend⟩ := hcount.call_ok
  obtain ⟨heq, -⟩ := read_told hused
  refine ⟨now, start, hnow, ?_⟩
  split at hend
  next hfull =>
    obtain ⟨-, hr, -⟩ := Went.raise_iff.mp hend
    cases hr
  next hfree =>
    rw [show used = usedSince w t (some start) from heq] at hfree
    omega

theorem gate_passed {s : Subscription} {t' : UUID} (hs : Paying w t s plan quota)
    (h : Went (machine env) (enforceQuota env t) w as (some (.ok t')) w') :
    ∃ now start, windowStart s plan now = some start
      ∧ (usedSince w t (some start) : Int) < quota := by
  unfold enforceQuota at h
  obtain ⟨a, o, as₁, -, ho, h⟩ := h.call_ok
  obtain ⟨heq, hw⟩ := read_told ho
  rw [show o = some s from heq.trans hs.subscribed,
    show ((machine env).perform (.selectSubscription t) a w).2 = w from hw] at h
  simp only [hs.active, if_true] at h
  exact paid_passed hs.planned hs.limited h

theorem commit_adds {row : Candidate} {f : Fate} {u : Unit}
    {since : Py.DateTime} (h : (w.commit [.insertCandidate row] f).1 = .ok u)
    (ht : row.tenantId = t) (hsince : since.micros ≤ row.createdAt.micros) :
    usedSince w t (some since) + 1
      = usedSince (w.commit [.insertCandidate row] f).2 t (some since) := by
  obtain ⟨db, hdb, hw⟩ := commit_ok h
  rw [writeAll_one] at hdb
  obtain ⟨rows, hrows, rfl⟩ := write_insertCandidate hdb
  rw [hw]
  unfold usedSince
  rw [Relational.Table.count_insert? hrows]
  simp [ht, hsince]

/-- An accepted request has put a row of its own instant among the
tenant's. -/
theorem row_added {bytes : List UInt8} {c : Candidate}
    (h : Went (machine env) (enqueueResumeUpload env t bytes) w as
      (some (.ok c)) w') :
    ∃ now ∈ as.filterMap timeOf, ∀ since : Py.DateTime,
      since.micros ≤ now.micros →
      usedSince w t (some since) + 1 ≤ usedSince w' t (some since) := by
  unfold enqueueResumeUpload CandidateRepository.add at h
  simp only [bind_eq, pure_eq, bind_assoc, ret_bind] at h
  obtain ⟨a, id, as₁, rfl, hid, h⟩ := h.call_ok
  obtain ⟨b, now, as₂, rfl, hnow, h⟩ := h.call_ok
  obtain ⟨f, u, as₃, rfl, -, h⟩ := h.call_ok
  obtain ⟨f', u', as₄, rfl, hcommit, h⟩ := h.call_ok
  cases hid
  cases b with
  | error msg => cases hnow
  | ok now' =>
      cases hnow
      refine ⟨now, by simp [timeOf, Except.toOption], fun since hsince => ?_⟩
      refine Nat.le_trans (Nat.le_of_eq ?_) (usedSince_went t (some since) h)
      exact commit_adds (w := { w with usedIds := a :: w.usedIds }) hcommit rfl
        hsince

/-- An accepted request of a period: what was used up to it left room, and
it has used one more. -/
theorem accepted_uses {p : BillingPeriod plan} {file : UploadFile} {c : Candidate}
    (hcharged : ChargedFor w t quota p) (hfits : p.Counted)
    (h : Went (machine env) (uploadResume env t file) w as (some (.ok c)) w')
    (hduring : During p as) :
    (usedSince w t (some p.start) : Int) < quota
      ∧ usedSince w t (some p.start) + 1 ≤ usedSince w' t (some p.start) := by
  obtain ⟨s, hpaying, hstop⟩ := hcharged
  unfold uploadResume at h
  obtain ⟨t', as₁, w₁, as₂, rfl, hgate, hrest⟩ := h.bind_ok
  obtain rfl : t' = t := hgate.returns (returns_enforceQuota t)
  split at hrest
  · obtain ⟨-, hr, -⟩ := Went.raise_iff.mp hrest
    cases hr
  obtain ⟨now, hmem, hadd⟩ := row_added hrest
  obtain ⟨hfrom, huntil⟩ := hduring now (by
    rw [List.filterMap_append]
    exact List.mem_append_right _ hmem)
  constructor
  · obtain ⟨now', start, hstart, hroom⟩ := gate_passed hpaying hgate
    have hle : start.micros ≤ p.start.micros := by
      rw [windowStart_micros hstart, hstop]
      show p.stop.micros - windowLength plan ≤ p.start.micros
      rcases hfits with hfits | hempty
      · omega
      · omega
    have hmono := usedSince_mono (w := w) (t := t') hle
    omega
  · have hbefore := usedSince_went t' (some p.start) hgate
    exact Nat.le_trans (Nat.add_le_add_right hbefore 1) (hadd p.start hfrom)

-- ==================================================================== the claim

/-- What a history keeps: every accepted request has its row, and there are
no more of them than the quota. -/
structure Kept (t : UUID) (quota : Int) (p : BillingPeriod plan) (n : Nat)
    (w : World) : Prop where
  rows : n ≤ usedSince w t (some p.start)
  bound : (n : Int) ≤ quota

theorem Kept.billed {p : BillingPeriod plan} (hquota : 0 ≤ quota)
    (hfits : p.Counted)
    (h : Billed env t quota p w n w') : Kept t quota p n w' := by
  induction h with
  | start => exact ⟨Nat.zero_le _, hquota⟩
  | @upload n w₁ file as r w₂ _ hcharged hwent hduring ih =>
      have hgrow := usedSince_went t (some p.start) hwent
      match r with
      | none => exact ⟨Nat.le_trans ih.rows hgrow, ih.bound⟩
      | some (.error x) => exact ⟨Nat.le_trans ih.rows hgrow, ih.bound⟩
      | some (.ok c) =>
          obtain ⟨hroom, hadd⟩ := accepted_uses hcharged hfits hwent hduring
          have hrows := ih.rows
          simp only [accepted, if_true]
          exact ⟨by omega, by omega⟩
  | other a _ hadm ih =>
      have hgrows := usedSince_touched t (some p.start)
        (Tenancy.touched env hadm)
      exact ⟨Nat.le_trans ih.rows hgrows, ih.bound⟩
  | @surroundings n w₁ k w₂ _ hk ih =>
      refine ⟨?_, ih.bound⟩
      unfold usedSince
      rw [(Tenancy.surroundings_same hk).db]
      exact ih.rows

/-- Over a period that is no longer than `30 * duration_months` days, a plan
with a quota of zero or more admits no more uploads than its quota. -/
theorem period_quota_holds (env : Env) (t : UUID) (plan : Plan) (quota : Int)
    (p : BillingPeriod plan) (w w' : World) (n : Nat) (hquota : 0 ≤ quota)
    (hfits : p.Counted) (h : Billed env t quota p w n w') : (n : Int) ≤ quota :=
  (Kept.billed hquota hfits h).bound

-- ===================================================================== samples

/-- A plan of one resume every three months. -/
def quarterPlan : PlanCreate :=
  { smallPlan with durationMonths := 3 }

/-- A tenant on a plan, charged up to an instant. -/
def chargedUpTo (payload : PlanCreate) (currentEnd : Int) :
    List (Label (service sampleEnv)) :=
  activated payload ++ .spawn (charge currentEnd) :: steps 3 2

/-- An outside where an identifier is drawn and nothing fails. -/
def drawing (id : Nat) : Oracle (machine sampleEnv).recorded := fun _ e =>
  let choices : Choices := { id := UUID.ofNat id }
  some (choices.answer e)

/-- The first quarter to the first of March 1970: ninety days. -/
def quarter : BillingPeriod (createdPlan quarterPlan (UUID.ofNat 5)) where
  start := ⟨-31 * Py.dayMicros, by decide, by decide⟩
  stop := ⟨59 * Py.dayMicros, by decide, by decide⟩
  months := ⟨⟨1969, 12, 1, by decide, by decide⟩, 0, by decide, by decide,
    by decide, by decide⟩

/-- January 1970: thirty-one days. -/
def january : BillingPeriod (createdPlan smallPlan (UUID.ofNat 5)) where
  start := Py.DateTime.epoch
  stop := ⟨31 * Py.dayMicros, by decide, by decide⟩
  months := ⟨⟨1970, 1, 1, by decide, by decide⟩, 0, by decide, by decide,
    by decide, by decide⟩

/-- A charged subscriber. -/
theorem charged_quarter : ((Sys.start (service sampleEnv) World.empty).exec
    (fun _ _ => True) (chargedUpTo quarterPlan 5097600)).isSome = true := by
  decide +kernel

theorem charged_january : ((Sys.start (service sampleEnv) World.empty).exec
    (fun _ _ => True) (chargedUpTo smallPlan 2678400)).isSome = true := by
  decide +kernel

/-- The sample's upload, drawing an identifier. -/
abbrev uploaded (id : Nat) (w : World) :=
  (uploadResume sampleEnv sampleTenant samplePdf).run
    (M := (machine sampleEnv).recorded) (drawing id) 0 (w, [])

/-- One more accepted upload of a history. -/
theorem Billed.uploaded {p : BillingPeriod plan} (id : Nat)
    (h : Billed sampleEnv sampleTenant quota p w n w')
    (hcharged : ChargedFor w' sampleTenant quota p)
    (hadm : (uploadResume sampleEnv sampleTenant samplePdf).Admitted
      (M := (machine sampleEnv).recorded) (drawing id) 0 (w', []))
    (hr : (Quota.uploaded id w').1 = some (.ok
      (placeholder sampleTenant (UUID.ofNat id) Py.DateTime.epoch)))
    (hduring : During p (Quota.uploaded id w').2.2) :
    Billed sampleEnv sampleTenant quota p w (n + 1)
      (Quota.uploaded id w').2.1 :=
  .upload h hcharged (Went.of_run hadm hr) hduring

/-- An upload in the middle of the quarter is accepted. -/
theorem period_quota_holds_sample : ∃ (s : Sys (service sampleEnv))
    (w' : World), Reachable sampleEnv s
    ∧ Billed sampleEnv sampleTenant 1 quarter s.world 1 w'
    ∧ ((1 : Nat) : Int) ≤ 1 := by
  have hcharged : ChargedFor (reached _ charged_quarter).world sampleTenant 1
      quarter :=
    ⟨sampleSubscription (some quarter.stop), by decide +kernel, rfl⟩
  have hbilled := Billed.uploaded 7 .start hcharged (by decide +kernel)
    (by decide +kernel) (by unfold During; decide +kernel)
  refine ⟨_, _, reachable_reached charged_quarter, hbilled, ?_⟩
  exact period_quota_holds _ _ _ _ quarter _ _ _ (by decide)
    (.inl (by decide)) hbilled

/-- On the first of January two uploads are accepted on a quota of one. -/
theorem period_quota_exceeded : ∃ (s : Sys (service sampleEnv)) (w' : World),
    Reachable sampleEnv s
    ∧ Billed sampleEnv sampleTenant 1 january s.world 2 w'
    ∧ ¬ ((2 : Nat) : Int) ≤ 1 := by
  have hcharged : ChargedFor (reached _ charged_january).world sampleTenant 1
      january :=
    ⟨sampleSubscription (some january.stop), by decide +kernel, rfl⟩
  have hone := Billed.uploaded 7 .start hcharged (by decide +kernel)
    (by decide +kernel) (by unfold During; decide +kernel)
  have hcharged' : ChargedFor (Quota.uploaded 7
      (reached _ charged_january).world).2.1 sampleTenant 1 january :=
    ⟨sampleSubscription (some january.stop), by decide +kernel, rfl⟩
  have htwo := Billed.uploaded 8 hone hcharged' (by decide +kernel)
    (by decide +kernel) (by unfold During; decide +kernel)
  exact ⟨_, _, reachable_reached charged_january, htwo, by decide⟩

end ResumeScreening.Quota
