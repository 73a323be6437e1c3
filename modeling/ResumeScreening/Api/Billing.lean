/-
Who decides what a tenant is billed for.

Over the API, every column of a subscription row that the quota gate
reads has an author: the plan and the Razorpay subscription were asked
for by a request that acts for the tenant, and the status and the period
end are what Razorpay says, in its answer to such a request or in an
event its signature vouches for (`subscriptions_authorized`).
-/
import ResumeScreening.Api.Authority
import ResumeScreening.Subscriptions.Sources

namespace ResumeScreening.Api

open Effect

variable {env : Env} {s : Sys (service env)} {t : UUID}

/-- A request that acts for the tenant asked for a plan, and Razorpay
answered it as `P` says. -/
def Buys (s : Sys (service env)) (t : UUID)
    (P : UUID → RazorpayResponse → Prop) : Prop :=
  ∃ i planId razorpayPlanId response, ActsFor s i (.subscribe planId) t
    ∧ (i, ⟨.right (.createRazorpaySubscription razorpayPlanId),
      .ok response⟩) ∈ s.log
    ∧ P planId response

/-- A signed event about a Razorpay subscription of the tenant is as `P`
says. -/
def Reports (s : Sys (service env)) (t : UUID)
    (P : String → SubscriptionEntity → Prop) : Prop :=
  ∃ i rawBody signature eventType payload rid e,
    s.op? i = some (.webhook rawBody signature)
      ∧ signedEvent env rawBody signature = some (eventType, payload)
      ∧ payload.entity = .ok (rid, e)
      ∧ Buys s t (fun _ response => response.id = rid) ∧ P eventType e

variable {v : Sys (Accounts.service env.accounts)}
  {w : Sys (ResumeScreening.service env.pipeline)} {f g : Nat → Option Nat}

theorem buys_of_purchased (hv : Accounts.Reachable env.accounts v)
    (hj : (gateway env).Joined s v w f g)
    {P : UUID → RazorpayResponse → Prop}
    (h : Subscriptions.Purchased w.log w.ops t P) : Buys s t P := by
  obtain ⟨m, p, razorpayPlanId, response, hop, hbought, hP⟩ := h
  obtain ⟨i, hi, hacts⟩ := actsFor_of_served hv hj hop rfl
  exact ⟨i, p, razorpayPlanId, response, hacts, hj.right_logged hi hbought, hP⟩

theorem reports_of_told (hv : Accounts.Reachable env.accounts v)
    (hj : (gateway env).Joined s v w f g)
    {P : String → SubscriptionEntity → Prop}
    (h : Subscriptions.Told w.log w.ops t P) : Reports s t P := by
  obtain ⟨eventType, payload, rid, e, hmem, he, hpurchased, hP⟩ := h
  obtain ⟨m, hop⟩ := List.getElem?_of_mem hmem
  obtain ⟨i, op, hopi, -, henters⟩ := request_of_served hj hop
  have hbuys := buys_of_purchased hv hj hpurchased
  generalize view f v.threads i = x at henters
  generalize hwop : ResumeScreening.Op.webhook eventType payload = wop
    at henters
  cases henters with
  | @tenant authorization xApiKey request t' => cases request <;> cases hwop
  | plan => cases hwop
  | @webhook rawBody signature eventType' payload' hsigned =>
      cases hwop
      exact ⟨i, rawBody, signature, eventType, payload, rid, e, hopi, hsigned,
        he, hbuys, hP⟩
  | worker => cases hwop

/-- In every reachable state, a subscription row's plan and its Razorpay
subscription were asked for by requests that act for its tenant; its
status is Razorpay's answer to such a request, or that of a signed event
about a subscription so bought; and so is the end of its period, if it
has one. -/
theorem subscriptions_authorized (hs : Reachable env s) :
    ∀ r ∈ s.world.2.db.subscriptions.rows,
      Buys s r.tenantId (fun planId _ => planId = r.planId)
      ∧ Buys s r.tenantId
        (fun _ response => response.id = r.razorpaySubscriptionId)
      ∧ (Buys s r.tenantId (fun _ response => response.status = r.status)
        ∨ Reports s r.tenantId
          fun eventType _ => statusEvent eventType = some r.status)
      ∧ ∀ ends, r.currentPeriodEnd = some ends → Reports s r.tenantId
        fun eventType e => periodEnd eventType e = .ok (some ends) := by
  obtain ⟨v, w, f, g, hv, hw, hj⟩ := gateway_refines hs
  rw [hj.worlds]
  intro r hr
  have hsourced := Subscriptions.reachable_sourced hw hr
  refine ⟨buys_of_purchased hv hj hsourced.plan,
    buys_of_purchased hv hj hsourced.account, ?_, fun ends hends => ?_⟩
  · rcases hsourced.status with hbought | htold
    · exact .inl (buys_of_purchased hv hj hbought)
    · exact .inr (reports_of_told hv hj htold)
  · exact reports_of_told hv hj (hsourced.period ends hends)

/-- A tenant with a key subscribes to a plan an operator has entered. -/
def sampleSubscribe : List (Label (service sampleEnv)) :=
  .spawn (.admin sampleCredentials (.createTenant "Ada")) :: steps 0 4
    ++ .spawn (.admin sampleCredentials (.createApiKey (.ofNat 0)))
      :: steps 1 6 (.ofNat 1)
    ++ .spawn (.admin sampleCredentials (.createPlan ResumeScreening.samplePlan))
      :: steps 2 2 (.ofNat 5)
    ++ .spawn (.tenant none (some "key") (.subscribe (.ofNat 5)))
      :: steps 3 10 (.ofNat 7)

theorem subscriptions_authorized_sample : ∃ s : Sys (service sampleEnv),
    ∃ r ∈ s.world.2.db.subscriptions.rows, Buys s r.tenantId
      fun _ response => response.id = r.razorpaySubscriptionId := by
  obtain ⟨s, hs, h⟩ := reachable_of_exec sampleSubscribe
    (fun s => !s.world.2.db.subscriptions.rows.isEmpty) (by decide +kernel)
  have hne : s.world.2.db.subscriptions.rows ≠ [] := by simpa using h
  obtain ⟨r, hr⟩ := List.exists_mem_of_ne_nil _ hne
  exact ⟨s, r, hr, (subscriptions_authorized hs r hr).2.1⟩

end ResumeScreening.Api
