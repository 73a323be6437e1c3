/-
Tenant isolation.

`Work` is everything that runs for one tenant: its requests, the
handling of a message its uploads published, an event about its Razorpay
subscription, the quota gate alone. Each is a program within a scope
(`Work.within`), and where it is run for a tenant that scope entitles it
to that tenant's data only (`Work.For.entitled`). The two halves of the
result are then `others_unchanged` and `runs_agree`.

The plan catalogue is nobody's data: `subscribe` and the gate read it,
so the second half needs the two catalogues to agree.
-/
import ResumeScreening.Tenancy.Agreement
import ResumeScreening.Pipeline.Step

namespace ResumeScreening.Tenancy

open Effect Pipeline

variable {env : Env} {w : World} {t : UUID}

-- ====================================================================== work

/-- What is run for a tenant. -/
inductive Work
  | serve (op : Op)
  | handle (message : Message)
  | gate

/-- What it answers with. -/
@[reducible] def Work.Result : Work → Type
  | .serve _ => Resp
  | .handle _ => Unit
  | .gate => UUID

def Work.program (env : Env) (t : UUID) : (x : Work) → Py x.Result
  | .serve op => ResumeScreening.serve env op
  | .handle message => handleMessage env message
  | .gate => enforceQuota env t

def Work.scope (t : UUID) : Work → Scope
  | .serve op => Tenancy.scope op
  | .handle message => .message message
  | .gate => .request t

theorem Work.within (x : Work) :
    Within env (x.scope t) [] (x.program env t) := by
  cases x with
  | serve op =>
      exact (Tenancy.within op List.not_mem_nil).mono fun _ _ _ _ => trivial
  | handle message => exact within_handleMessage message
  | gate => exact within_enforceQuota

/-- The tenant of a request's credentials. -/
def tenantOf : Op → Option UUID
  | .createCandidate t _ | .listCandidates t | .getCandidate t _
  | .uploadResume t _ | .createJob t _ | .listJobs t | .getJob t _
  | .rankCandidates t .. | .subscribe t _ => some t
  | .webhook .. | .worker | .createPlan _ => none

/-- It is run for this tenant: a request by its credentials, a message by
the candidate it names, an event by the Razorpay id it carries — which
is no other tenant's. -/
def Work.For (env : Env) (t : UUID) (w : World) : Work → Prop
  | .serve (.webhook _ payload) => ∀ rid e, payload.entity = .ok (rid, e) →
      ∀ s ∈ w.db.subscriptions.rows,
        s.razorpaySubscriptionId = rid → s.tenantId = t
  | .serve op => tenantOf op = some t
  | .handle message => ∃ c, message.body = uploadBody env t c ∧ HasRow w t c
  | .gate => True

theorem entitled_subscription (p : UUID) :
    Entitled env (.subscription t p) t w where
  tenants _ h := h
  shared h := h
  accounts _ _ h := nomatch h
  files _ _ h := nomatch h

theorem entitled_request : Entitled env (.request t) t w where
  tenants _ h := h
  shared h := h
  accounts _ _ h := nomatch h
  files _ _ h := nomatch h

theorem Work.For.entitled {x : Work} (h : x.For env t w) :
    Entitled env (x.scope t) t w := by
  cases x with
  | serve op =>
      cases op with
      | webhook eventType payload =>
          refine ⟨fun _ h => (nomatch h), fun h => h, fun s hs hacc => ?_,
            fun _ _ h => (nomatch h)⟩
          obtain ⟨e, he⟩ := hacc
          exact h _ e he s hs rfl
      | worker => cases h
      | createPlan payload => cases h
      | subscribe t' p =>
          cases h
          exact entitled_subscription p
      | _ =>
          cases h
          exact entitled_request
  | handle message =>
      obtain ⟨c, hbody, hrow⟩ := h
      refine ⟨fun t' ht' => ?_, fun h => h, fun _ _ h => (nomatch h),
        fun bucket key hf => ?_⟩
      · obtain ⟨c', text, hnames⟩ := ht'
        rw [hbody] at hnames
        exact (names_uploadBody hnames).1
      · have hloc : Locates message.body bucket key := hf
        rw [hbody] at hloc
        obtain ⟨hb, hk⟩ := locates_uploadBody hloc
        exact ⟨hb, c, hk, hrow⟩
  | gate => exact entitled_request

/-- An event that carries the id of a tenant's subscription is that
tenant's. -/
theorem for_subscriber {s : Subscription} (hs : s ∈ w.db.subscriptions.rows)
    {eventType : String} {payload : WebhookPayload} {e : SubscriptionEntity}
    (he : payload.entity = .ok (s.razorpaySubscriptionId, e)) :
    (Work.serve (.webhook eventType payload)).For env s.tenantId w := by
  intro rid e' he' s' hs' hrid
  rw [he] at he'
  cases he'
  rw [razorpay_unique hs' hs hrid]

/-- A published message is the work of the tenant whose upload published
it. -/
theorem for_published {s : Sys (service env)} (h : Reachable env s)
    {q : Queued} (hq : q ∈ s.world.queue) {c : UUID}
    (hbody : q.message.body = uploadBody env t c) :
    (Work.handle q.message).For env t s.world := by
  obtain ⟨ros, -, hc⟩ := reachable_core h
  obtain ⟨t', c', b, hbody', hrow, -⟩ := hc.stores.queue q hq
  rw [hbody] at hbody'
  obtain ⟨rfl, rfl⟩ := uploadBody_injective hbody'
  exact ⟨c, hbody, hrow⟩

-- ================================================================ the result

/-- Whatever is run for tenant `b`, under any outside, leaves all data of
any other tenant `a`; from two states with the same data of `b` and the
same plans it answers the same and leaves the same data of `b`; and
every match stored joins a job and a candidate of one tenant. -/
theorem tenants_isolated {s₁ s₂ : Sys (service env)}
    (h₁ : Reachable env s₁) (h₂ : Reachable env s₂) {a b : UUID} (hab : a ≠ b)
    {x : Work} (hx₁ : x.For env b s₁.world) (hx₂ : x.For env b s₂.world)
    {O : Oracle (machine env)}
    (hadm₁ : (x.program env b).Admitted O 0 s₁.world)
    (hadm₂ : (x.program env b).Admitted O 0 s₂.world) :
    dataOf env ((x.program env b).run O 0 s₁.world).2 a
        = dataOf env s₁.world a
      ∧ (dataOf env s₁.world b = dataOf env s₂.world b →
          s₁.world.db.plans.rows = s₂.world.db.plans.rows →
          ((x.program env b).run O 0 s₁.world).1
              = ((x.program env b).run O 0 s₂.world).1
            ∧ dataOf env ((x.program env b).run O 0 s₁.world).2 b
              = dataOf env ((x.program env b).run O 0 s₂.world).2 b)
      ∧ ∀ m ∈ s₁.world.db.matchResults, Joined s₁.world.db m := by
  have hs₁ := reachable_sound h₁
  have hs₂ := reachable_sound h₂
  refine ⟨?_, fun hdata hplans => ?_, matches_joined h₁⟩
  · exact others_unchanged x.within hs₁ hx₁.entitled hadm₁ hab
  · obtain ⟨hsame, K, hstep⟩ := runs_agree x.within hs₁ hs₂ hx₁.entitled
      hx₂.entitled (inStep_of_data hdata hplans) hadm₁ hadm₂
    exact ⟨hsame, hstep.data⟩

-- ================================================================== two cases

def otherTenant : UUID := UUID.ofNat 2

/-- One upload, and the same with one of another tenant besides. -/
def oneUpload : Sys (service sampleEnv) :=
  reached sampleUpload sampleUpload_runs

def twoUploads : Sys (service sampleEnv) :=
  reached (sampleUpload
    ++ .spawn (.uploadResume otherTenant samplePdf)
      :: steps 1 9 { id := UUID.ofNat 7 }) (by decide +kernel)

/-- The handling of the first upload's message. -/
def sampleHandling : Work :=
  .handle ⟨0, uploadBody sampleEnv sampleTenant sampleRow.id⟩

/-- The handling of an upload is the same with another tenant's candidate
in the stores, and leaves that candidate. -/
theorem tenants_isolated_sample :
    dataOf sampleEnv ((sampleHandling.program sampleEnv sampleTenant).run
        sampleOracle 0 twoUploads.world).2 otherTenant
      = dataOf sampleEnv twoUploads.world otherTenant
      ∧ ((sampleHandling.program sampleEnv sampleTenant).run
          sampleOracle 0 twoUploads.world).1
        = ((sampleHandling.program sampleEnv sampleTenant).run
          sampleOracle 0 oneUpload.world).1
      ∧ dataOf sampleEnv ((sampleHandling.program sampleEnv sampleTenant).run
          sampleOracle 0 twoUploads.world).2 sampleTenant
        = dataOf sampleEnv ((sampleHandling.program sampleEnv
            sampleTenant).run sampleOracle 0 oneUpload.world).2
          sampleTenant := by
  have hfor₁ : sampleHandling.For sampleEnv sampleTenant twoUploads.world :=
    ⟨sampleRow.id, rfl, by unfold HasRow; decide +kernel⟩
  have hfor₂ : sampleHandling.For sampleEnv sampleTenant oneUpload.world :=
    ⟨sampleRow.id, rfl, by unfold HasRow; decide +kernel⟩
  obtain ⟨hother, hsame, -⟩ := tenants_isolated (O := sampleOracle)
    (reachable_reached _ : Reachable sampleEnv twoUploads)
    (reachable_reached _ : Reachable sampleEnv oneUpload)
    (by decide : otherTenant ≠ sampleTenant) hfor₁ hfor₂
    (by decide +kernel) (by decide +kernel)
  exact ⟨hother, hsame rfl rfl⟩

/-- An empty deployment, and one that has this plan. -/
def noPlan : Sys (service sampleEnv) := reached [] rfl

def onePlan : Sys (service sampleEnv) :=
  reached (.spawn (.createPlan samplePlan)
    :: steps 0 2 { id := UUID.ofNat 5 }) (by decide +kernel)

/-- The tenant subscribes to that plan. -/
def sampleSubscribe : Work := .serve (.subscribe sampleTenant (UUID.ofNat 5))

/-- Two states with the same data of a tenant, namely none, from which
the same request of it under the same outside is answered differently:
their plan catalogues differ. -/
theorem isolation_needs_plans :
    Reachable sampleEnv noPlan ∧ Reachable sampleEnv onePlan
      ∧ sampleSubscribe.For sampleEnv sampleTenant noPlan.world
      ∧ sampleSubscribe.For sampleEnv sampleTenant onePlan.world
      ∧ (sampleSubscribe.program sampleEnv sampleTenant).Admitted
          sampleOracle 0 noPlan.world
      ∧ (sampleSubscribe.program sampleEnv sampleTenant).Admitted
          sampleOracle 0 onePlan.world
      ∧ dataOf sampleEnv noPlan.world sampleTenant
        = dataOf sampleEnv onePlan.world sampleTenant
      ∧ ((sampleSubscribe.program sampleEnv sampleTenant).run
            sampleOracle 0 noPlan.world).1
          = some (.error (.http 404 "Plan not found"))
      ∧ ((sampleSubscribe.program sampleEnv sampleTenant).run
            sampleOracle 0 onePlan.world).1
          = some (.ok (.subscribe ⟨UUID.ofNat 0, "created",
            "https://rzp.io/1"⟩)) := by
  refine ⟨reachable_reached _, reachable_reached _, rfl, rfl, ?_, ?_, rfl,
    rfl, rfl⟩
  · decide +kernel
  · decide +kernel

end ResumeScreening.Tenancy
