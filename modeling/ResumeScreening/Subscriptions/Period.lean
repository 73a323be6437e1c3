/-
The period end a subscription row holds.

`create_subscription` puts another Razorpay subscription in the row and
leaves `current_period_end` as it finds it; `handle_webhook_event`
stores one in the row it loaded, whichever subscription that row carries
by then. Where neither of these is met (`Current`), a stored period end
is one that was charged for the subscription the row carries, and the
row's plan is the plan that subscription was bought for.
-/
import ResumeScreening.Subscriptions.Purchases

namespace ResumeScreening.Subscriptions

open Effect Pipeline Tenancy

variable {env : Env} {w : World} {log : Log sig}
  {ros : Roster (service env) (List Fact)} {K : List Fact}

-- ================================================================ the property

/-- The event charges this Razorpay subscription for a period that ends
then. -/
def Charged (op : Op) (rid : String) (t : Py.DateTime) : Prop :=
  ∃ payload e seconds, op = .webhook "subscription.charged" payload
    ∧ payload.entity = .ok (rid, e) ∧ e.currentEnd = some seconds
    ∧ fromTimestamp seconds = .ok t

/-- The Razorpay subscription was bought for this plan. -/
def BoughtFor (log : Log sig) (plan : Plan) (rid : String) : Prop :=
  ∃ i response, Bought log i plan.razorpayPlanId response ∧ response.id = rid

/-- A UPDATE of a subscription finds its row fit for it: one by
`create_subscription` finds no period end and leaves the plan it was
called for, one by `handle_webhook_event` finds the Razorpay id its event
carries. -/
def Current : Op → Subscription → SubscriptionPatch → Prop
  | .subscribe _ p, row, set =>
      row.currentPeriodEnd = none ∧ set.planId.getD row.planId = p
  | .webhook _ payload, row, _ =>
      match payload.entity with
      | .ok (rid, _) => row.razorpaySubscriptionId = rid
      | .error _ => True
  | _, _, _ => True

instance Current.decidable :
    ∀ op row set, Decidable (Current op row set)
  | .subscribe _ p, row, set => inferInstanceAs (Decidable
      (row.currentPeriodEnd = none ∧ set.planId.getD row.planId = p))
  | .webhook _ payload, row, _ =>
      match h : payload.entity with
      | .ok (rid, _) =>
          decidable_of_iff (row.razorpaySubscriptionId = rid) (by simp [Current, h])
      | .error _ => isTrue (by simp [Current, h])
  | .createCandidate .., _, _ | .listCandidates _, _, _
  | .getCandidate .., _, _ | .uploadResume .., _, _ | .createJob .., _, _
  | .listJobs _, _, _ | .getJob .., _, _ | .rankCandidates .., _, _
  | .createPlan _, _, _ | .worker, _, _ => isTrue trivial

-- ==================================================================== scopes

theorem plans_scope {op : Op} {p : UUID} (h : (scope op).plans p) :
    ∃ t, op = .subscribe t p := by
  cases op with
  | subscribe t p' => exact ⟨t, by rw [show p = p' from h]⟩
  | _ => exact h.elim

theorem applies_scope {op : Op} {rid newStatus : String}
    {newEnd : Option Py.DateTime} (h : (scope op).applies rid newStatus newEnd) :
    ∃ eventType payload e, op = .webhook eventType payload
      ∧ statusEvent eventType = some newStatus
      ∧ payload.entity = .ok (rid, e) ∧ periodEnd eventType e = .ok newEnd := by
  cases op with
  | webhook eventType payload =>
      obtain ⟨hst, e, he, hend⟩ := h
      exact ⟨eventType, payload, e, rfl, hst, he, hend⟩
  | _ => exact h.elim

/-- What a period end comes from. -/
theorem charged_of_periodEnd {eventType rid : String} {payload : WebhookPayload}
    {e : SubscriptionEntity} {t : Py.DateTime}
    (he : payload.entity = .ok (rid, e))
    (h : periodEnd eventType e = .ok (some t)) :
    Charged (.webhook eventType payload) rid t := by
  unfold periodEnd at h
  split at h
  next hcharged =>
    subst hcharged
    cases hend : e.currentEnd with
    | none => simp [hend] at h
    | some seconds =>
        simp only [hend] at h
        cases hts : fromTimestamp seconds with
        | error x => simp [hts, Except.map] at h
        | ok t' =>
            simp only [hts, Except.map, Except.ok.injEq, Option.some.injEq] at h
            subst h
            exact ⟨payload, e, seconds, rfl, he, hend, hts⟩
  next => simp at h

-- ==================================================================== one row

/-- A row that holds what it should. -/
structure RowHolds (w : World) (log : Log sig)
    (ros : Roster (service env) (List Fact)) (row : Subscription) : Prop where
  period : ∀ t, row.currentPeriodEnd = some t → ∃ (i : Nat) (op : Op)
    (x : Option (List Fact)), ros[i]? = some (op, x)
      ∧ Charged op row.razorpaySubscriptionId t
  plan : ∃ plan ∈ w.db.plans.rows, plan.id = row.planId
    ∧ BoughtFor log plan row.razorpaySubscriptionId

/-- Events stay delivered, plans stay, purchases stay logged. -/
theorem RowHolds.grow {w' : World} {log' : Log sig}
    {ros' : Roster (service env) (List Fact)} {row : Subscription}
    (h : RowHolds w log ros row) (hg : WorldGrows w w') (hlog : log ⊆ log')
    (hros : ∀ (i : Nat) (op : Op) (x : Option (List Fact)),
      ros[i]? = some (op, x) → ∃ x', ros'[i]? = some (op, x')) :
    RowHolds w' log' ros' row := by
  constructor
  · intro t ht
    obtain ⟨i, op, x, hi, hc⟩ := h.period t ht
    obtain ⟨x', hi'⟩ := hros i op x hi
    exact ⟨i, op, x', hi', hc⟩
  · obtain ⟨plan, hplan, hid, i, response, hb, hrid⟩ := h.plan
    exact ⟨plan, hg.rows.plans plan hplan, hid, i, response, hlog hb, hrid⟩

/-- The period end a webhook leaves is the row's, or the event's. -/
theorem applied_end {loaded row : Subscription} {newStatus : String}
    {newEnd : Option Py.DateTime} {t : Py.DateTime}
    (h : ((webhookPatch loaded newStatus newEnd).apply row).currentPeriodEnd
      = some t) : row.currentPeriodEnd = some t ∨ newEnd = some t := by
  cases newEnd with
  | none => exact .inl h
  | some t' =>
      have h' : (assign loaded.currentPeriodEnd (some t')).getD
          row.currentPeriodEnd = some t := h
      unfold assign at h'
      split at h'
      · exact .inl h'
      · exact .inr h'

theorem RowHolds.from {op : Op} {i : Nat} {db : Db} {row : Subscription}
    (hinf : Informed env w ros) (hp : Purchases env w log ros)
    (hi : ros[i]? = some (op, some K))
    (hold : ∀ r ∈ db.subscriptions.rows, RowHolds w log ros r)
    (h : RowFrom (Current op) (scope op) K db row) :
    RowHolds w log ros row := by
  cases h with
  | kept hr => exact hold _ hr
  | created hplan hplan' hissued hK =>
      refine ⟨fun t ht => (nomatch ht), _, hinf.known.get hi _ hplan', rfl, ?_⟩
      exact ⟨i, _, hp.logged hi hissued, rfl⟩
  | @replaced row loaded plan response hr hloaded hid hcur hplan hplan' hissued
      hK =>
      obtain ⟨t, rfl⟩ := plans_scope hplan
      obtain ⟨hnone, hplanId⟩ := hcur
      have hrid : ((replacedPatch loaded plan
          response).apply row).razorpaySubscriptionId = response.id := by
        rcases replaced_id loaded row plan response with heq | ⟨heq, -⟩
        · exact heq
        · exact absurd heq ((hp.own hi hK hissued).2 loaded hloaded)
      refine ⟨fun t ht => ?_, plan, hinf.known.get hi _ hplan', hplanId.symm, ?_⟩
      · have ht' : row.currentPeriodEnd = some t := ht
        rw [hnone] at ht'
        cases ht'
      · exact ⟨i, response, hp.logged hi hissued, hrid.symm⟩
  | @applied row loaded newStatus newEnd hr hloaded hid hcur happ =>
      obtain ⟨eventType, payload, e, rfl, -, he, hend⟩ := applies_scope happ
      have hrid : row.razorpaySubscriptionId = loaded.razorpaySubscriptionId := by
        simpa only [Current, he] using hcur
      refine ⟨fun t ht => ?_, (hold row hr).plan⟩
      rcases applied_end ht with hkept | rfl
      · exact (hold row hr).period t hkept
      · refine ⟨i, _, _, hi, ?_⟩
        show Charged _ row.razorpaySubscriptionId t
        rw [hrid]
        exact charged_of_periodEnd he hend

-- ====================================================================== runs

/-- Every row holds what it should. -/
def RowsHold (w : World) (log : Log sig)
    (ros : Roster (service env) (List Fact)) : Prop :=
  ∀ row ∈ w.db.subscriptions.rows, RowHolds w log ros row

theorem rows_keeps (env : Env) :
    (knowing env).KeepsWith (UpdatesMeet Current)
      (fun w log ros => Informed env w ros ∧ Purchases env w log ros)
      fun w log ros => RowsHold w log ros where
  spawn op _ h row hr := (h row hr).grow ⟨.refl _, fun _ h => h, fun _ h => h⟩
    (fun _ h => h) fun i op' x hi => ⟨x, roster_append_old hi⟩
  act {s ros i op K e k K'} ans _ hI h hi ht hadm hok hm := by
    obtain ⟨hallow, rfl⟩ := hm
    have hgrow := (touched env hadm).grows
    have hlog : s.log ⊆ (i, ⟨e, (perform env e (ans e) s.world).1⟩) :: s.log :=
      List.subset_cons_self ..
    have hrows : ∀ row ∈ (perform env e (ans e) s.world).2.db.subscriptions.rows,
        RowHolds s.world s.log ros row :=
      rows_step (P := Current) (fun db row hold hfrom =>
        RowHolds.from hI.1 hI.2 hi hold hfrom) ht hadm hallow hok h
    exact fun row hr => (hrows row hr).grow hgrow hlog
      fun _ _ _ hj => roster_set_op _ hi hj
  crash {s ros i op K e k} _ _ h hi _ _ row hr :=
    (h row hr).grow ⟨.refl _, fun _ h => h, fun _ h => h⟩ (fun _ h => h)
      fun _ _ _ hj => roster_set_op _ hi hj
  restart {w log ros i op K x} _ h hi _ _ row hr :=
    (h row hr).grow ⟨.refl _, fun _ h => h, fun _ h => h⟩ (fun _ h => h)
      fun _ _ _ hj => roster_set_op _ hi hj
  env k _ h hk row hr := by
    have hs := surroundings_same hk
    rw [hs.db] at hr
    exact (h row hr).grow hs.grows (fun _ h => h) fun i op x hi => ⟨x, hi⟩

theorem reachable_purchases {ok : Guard (service env)}
    {s : Sys (service env)} (h : GuardedRun env ok s) :
    ∃ ros, (knowing env).Tracks s ros ∧ Informed env s.world ros
      ∧ Purchases env s.world s.log ros :=
  Run.invariant ((sound_keeps env ok).and (purchases_keeps env ok))
    (knowing_conforms env) ⟨sound_init env, purchases_init env⟩ h

-- ================================================================ the result

/-- In every run all of whose UPDATEs find their row fit for them, the
period end a row holds was charged for the Razorpay subscription the row
carries, and the row's plan is the one that subscription was bought
for. -/
theorem period_current {s : Sys (service env)}
    (h : GuardedRun env (UpdatesMeet Current) s) {row : Subscription}
    (hr : row ∈ s.world.db.subscriptions.rows) :
    (∀ t, row.currentPeriodEnd = some t → ∃ i op, s.op? i = some op
        ∧ Charged op row.razorpaySubscriptionId t)
      ∧ ∃ plan ∈ s.world.db.plans.rows, plan.id = row.planId
        ∧ BoughtFor s.log plan row.razorpaySubscriptionId := by
  have hkeeps := ((sound_keeps env (UpdatesMeet Current)).and
    (purchases_keeps env _)).and (rows_keeps env)
  obtain ⟨ros, htr, -, hrows⟩ := Run.invariant hkeeps (knowing_conforms env)
    ⟨⟨sound_init env, purchases_init env⟩, fun _ h => nomatch h⟩ h
  refine ⟨fun t ht => ?_, (hrows row hr).plan⟩
  obtain ⟨i, op, x, hi, hc⟩ := (hrows row hr).period t ht
  exact ⟨i, op, htr.op_of_slot hi, hc⟩

/-- A charge of the first purchase. -/
def sampleCharge : Op :=
  .webhook "subscription.charged"
    { subscription := some (some { id := some "sub_1", currentEnd := some 86400 }) }

/-- A tenant buys a plan. -/
def samplePurchase : List (Label (service sampleEnv)) :=
  .spawn (.createPlan samplePlan) :: steps 0 2 { id := UUID.ofNat 5 }
    ++ .spawn (.subscribe sampleTenant (UUID.ofNat 5)) :: steps 1 6

/-- The tenant is charged for it. -/
def chargedPurchase : List (Label (service sampleEnv)) :=
  samplePurchase ++ .spawn sampleCharge :: steps 2 2

/-- A purchase and its charge are such a run. -/
theorem period_current_sample : ∃ (s : Sys (service sampleEnv))
    (row : Subscription) (t : Py.DateTime),
    GuardedRun sampleEnv (UpdatesMeet Current) s
      ∧ row ∈ s.world.db.subscriptions.rows ∧ row.currentPeriodEnd = some t
      ∧ ∃ i op, s.op? i = some op ∧ Charged op row.razorpaySubscriptionId t := by
  have hexec : Reaches chargedPurchase (fun s =>
      decide (∃ row ∈ s.world.db.subscriptions.rows,
        row.currentPeriodEnd.isSome = true)) (UpdatesMeet Current) := by
    decide +kernel
  obtain ⟨s, hrun, hp⟩ := Run.exists_of_exec hexec
  obtain ⟨row, hr, hsome⟩ := of_decide_eq_true hp
  obtain ⟨t, ht⟩ := Option.isSome_iff_exists.mp hsome
  exact ⟨s, row, t, hrun, hr, ht, (period_current hrun hr).1 t ht⟩

/-- The same tenant buys the plan again. -/
def secondPurchase : List (Label (service sampleEnv)) :=
  .spawn (.subscribe sampleTenant (UUID.ofNat 5))
    :: steps 3 5 { razorpay := ⟨"sub_2", "created", "https://rzp.io/2"⟩ }

/-- Without the condition the row keeps the period end of the purchase
that was replaced. -/
theorem period_inherited : ∃ (s : Sys (service sampleEnv))
    (row : Subscription) (t : Py.DateTime), Reachable sampleEnv s
      ∧ row ∈ s.world.db.subscriptions.rows ∧ row.currentPeriodEnd = some t
      ∧ ¬ ∃ i op, s.op? i = some op
        ∧ Charged op row.razorpaySubscriptionId t := by
  have hexec : Reaches (chargedPurchase ++ secondPurchase) (fun s =>
      decide (s.threads.map Thread.op = [.createPlan samplePlan,
          .subscribe sampleTenant (UUID.ofNat 5), sampleCharge,
          .subscribe sampleTenant (UUID.ofNat 5)]
        ∧ ∃ row ∈ s.world.db.subscriptions.rows,
          row.currentPeriodEnd.isSome = true
            ∧ row.razorpaySubscriptionId = "sub_2")) := by
    decide +kernel
  obtain ⟨s, hrun, hp⟩ := Run.exists_of_exec hexec
  obtain ⟨hops, row, hr, hsome, hrid⟩ := of_decide_eq_true hp
  obtain ⟨t, ht⟩ := Option.isSome_iff_exists.mp hsome
  refine ⟨s, row, t, hrun, hr, ht, fun hcharged => ?_⟩
  obtain ⟨i, op, hop, payload, e, seconds, rfl, he, -, -⟩ := hcharged
  have hmem : Op.webhook "subscription.charged" payload
      ∈ s.threads.map Thread.op := by
    unfold Sys.op? at hop
    rw [← List.getElem?_map] at hop
    exact List.mem_of_getElem? hop
  rw [hops] at hmem
  simp only [sampleCharge, List.mem_cons, Op.webhook.injEq, reduceCtorEq,
    true_and, false_or, List.not_mem_nil, or_false] at hmem
  rw [hmem, hrid] at he
  simp [WebhookPayload.entity] at he

end ResumeScreening.Subscriptions
