/-
Where the columns of a subscription row come from.

A row's plan and its Razorpay subscription were asked for by its own
tenant; its status is what Razorpay answered that tenant, or what an
event about a subscription of that tenant says; and the end of its
period is always an event's (`Sourced`). The rows a thread was shown are
sourced too, which is what the two writes that compute a row from one
loaded earlier need.
-/
import ResumeScreening.Lib.Own
import ResumeScreening.Subscriptions.Period

namespace ResumeScreening.Subscriptions

open Effect Pipeline Tenancy

variable {env : Env} {w : World} {log log' : Log sig} {ops ops' : List Op}
  {ros : Roster (service env) (List Fact)} {K : List Fact} {t : UUID}

-- =================================================================== sources

/-- A request of the tenant for a plan was answered by Razorpay, as `P`
says. -/
def Purchased (log : Log sig) (ops : List Op) (t : UUID)
    (P : UUID → RazorpayResponse → Prop) : Prop :=
  ∃ i p razorpayPlanId response, ops[i]? = some (.subscribe t p)
    ∧ Bought log i razorpayPlanId response ∧ P p response

/-- An event about a Razorpay subscription of the tenant is as `P` says. -/
def Told (log : Log sig) (ops : List Op) (t : UUID)
    (P : String → SubscriptionEntity → Prop) : Prop :=
  ∃ eventType payload rid e, .webhook eventType payload ∈ ops
    ∧ payload.entity = .ok (rid, e)
    ∧ Purchased log ops t (fun _ response => response.id = rid)
    ∧ P eventType e

/-- A row each of whose columns has a source. -/
structure Sourced (log : Log sig) (ops : List Op) (row : Subscription) :
    Prop where
  plan : Purchased log ops row.tenantId fun p _ => p = row.planId
  account : Purchased log ops row.tenantId fun _ response =>
    response.id = row.razorpaySubscriptionId
  status : Purchased log ops row.tenantId (fun _ response =>
      response.status = row.status)
    ∨ Told log ops row.tenantId fun eventType _ =>
      statusEvent eventType = some row.status
  period : ∀ ends, row.currentPeriodEnd = some ends →
    Told log ops row.tenantId fun eventType e =>
      periodEnd eventType e = .ok (some ends)

theorem Purchased.mono {P : UUID → RazorpayResponse → Prop}
    (h : Purchased log ops t P) (hlog : log ⊆ log')
    (hops : ops <+: ops') :
    Purchased log' ops' t P := by
  obtain ⟨i, p, razorpayPlanId, response, hop, hb, hP⟩ := h
  obtain ⟨rest, rfl⟩ := hops
  have hlt := (List.getElem?_eq_some_iff.mp hop).1
  refine ⟨i, p, razorpayPlanId, response, ?_, hlog hb, hP⟩
  rw [List.getElem?_append_left hlt]
  exact hop

theorem Told.mono {P : String → SubscriptionEntity → Prop}
    (h : Told log ops t P) (hlog : log ⊆ log')
    (hops : ops <+: ops') :
    Told log' ops' t P := by
  obtain ⟨eventType, payload, rid, e, hmem, he, hp, hP⟩ := h
  exact ⟨eventType, payload, rid, e, hops.subset hmem, he, hp.mono hlog hops,
    hP⟩

/-- Events stay delivered and purchases stay made. -/
theorem Sourced.mono {row : Subscription} (h : Sourced log ops row)
    (hlog : log ⊆ log')
    (hops : ops <+: ops') :
    Sourced log' ops' row where
  plan := h.plan.mono hlog hops
  account := h.account.mono hlog hops
  status := h.status.imp (fun hp => hp.mono hlog hops)
    fun ht => ht.mono hlog hops
  period ends hends := (h.period ends hends).mono hlog hops

-- ============================================================= one statement

/-- The row a purchase leaves. -/
theorem Sourced.replaced {row loaded : Subscription} {plan : Plan}
    {response : RazorpayResponse} {i : Nat} (h : Sourced log ops row)
    (hop : ops[i]? = some (.subscribe row.tenantId plan.id))
    (hb : Bought log i plan.razorpayPlanId response) :
    Sourced log ops ((replacedPatch loaded plan response).apply row) := by
  have hbought : ∀ {P : UUID → RazorpayResponse → Prop}, P plan.id response →
      Purchased log ops row.tenantId P :=
    fun hP => ⟨i, _, _, response, hop, hb, hP⟩
  refine ⟨?_, ?_, ?_, h.period⟩
  · show Purchased log ops row.tenantId fun p _ =>
      p = (assign loaded.planId plan.id).getD row.planId
    unfold assign
    split
    · exact h.plan
    · exact hbought rfl
  · show Purchased log ops row.tenantId fun _ r =>
      r.id = (assign loaded.razorpaySubscriptionId response.id).getD
        row.razorpaySubscriptionId
    unfold assign
    split
    · exact h.account
    · exact hbought rfl
  · show Purchased log ops row.tenantId (fun _ r =>
        r.status = (assign loaded.status response.status).getD row.status)
      ∨ Told log ops row.tenantId fun eventType _ => statusEvent eventType
        = some ((assign loaded.status response.status).getD row.status)
    unfold assign
    split
    · exact h.status
    · exact .inl (hbought rfl)

/-- The row an event leaves, where the row it was found by is sourced. -/
theorem Sourced.applied {row loaded : Subscription} {eventType newStatus : String}
    {payload : WebhookPayload} {e : SubscriptionEntity}
    {newEnd : Option Py.DateTime} (h : Sourced log ops row)
    (hloaded : Sourced log ops loaded) (ht : loaded.tenantId = row.tenantId)
    (hop : .webhook eventType payload ∈ ops)
    (hstatus : statusEvent eventType = some newStatus)
    (he : payload.entity = .ok (loaded.razorpaySubscriptionId, e))
    (hend : periodEnd eventType e = .ok newEnd) :
    Sourced log ops ((webhookPatch loaded newStatus newEnd).apply row) := by
  have htold : ∀ {P : String → SubscriptionEntity → Prop}, P eventType e →
      Told log ops row.tenantId P := fun hP =>
    ⟨eventType, payload, _, e, hop, he, ht ▸ hloaded.account, hP⟩
  refine ⟨h.plan, h.account, ?_, fun ends hends => ?_⟩
  · show Purchased log ops row.tenantId (fun _ r =>
        r.status = (assign loaded.status newStatus).getD row.status)
      ∨ Told log ops row.tenantId fun eventType _ => statusEvent eventType
        = some ((assign loaded.status newStatus).getD row.status)
    unfold assign
    split
    · exact h.status
    · exact .inr (htold hstatus)
  · rcases applied_end hends with hkept | rfl
    · exact h.period ends hkept
    · exact htold hend

/-- What the rows of a thread's statements must be for those statements to
leave sourced rows. -/
structure Shown (w : World) (log : Log sig) (ops : List Op) (op : Op)
    (i : Nat) (K : List Fact) : Prop where
  served : ops[i]? = some op
  bought : ∀ {p response}, .issued p response ∈ K → Bought log i p response
  sourced : ∀ {loaded}, .subscription loaded ∈ K → Sourced log ops loaded
  asked : ∀ {loaded}, .subscription loaded ∈ K →
    ∀ t p, op = .subscribe t p → loaded.tenantId = t

theorem sourced_write {db db' : Db} {x : Write} {op : Op} {i : Nat}
    (h : Shown w log ops op i K)
    (hK : ∀ f ∈ K, Known { w with db := db } f)
    (hold : ∀ r ∈ db.subscriptions.rows, Sourced log ops r)
    (hx : AllowsWrite (scope op) K x) (hw : db.write x = some db') :
    ∀ r ∈ db'.subscriptions.rows, Sourced log ops r := by
  intro r hr
  cases x with
  | insertSubscription row =>
      obtain ⟨tab, htab, rfl⟩ := Option.map_eq_some_iff.mp hw
      rcases (Relational.Table.mem_insert? htab).mp hr with hr | rfl
      · exact hold r hr
      · obtain ⟨-, ht, -, plan, response, hplan, -, hissued, hrow⟩ := hx
        obtain ⟨t, rfl⟩ := plans_scope hplan
        have ht : r.tenantId = t := ht
        have hb := h.bought hissued
        have hbought : ∀ {P : UUID → RazorpayResponse → Prop},
            P plan.id response → Purchased log ops r.tenantId P :=
          fun hP => ⟨i, _, _, response, ht ▸ h.served, hb, hP⟩
        rw [hrow]
        exact ⟨hbought rfl, hbought rfl, .inl (hbought rfl),
          fun _ hends => by cases hends⟩
  | updateSubscription id set =>
      obtain ⟨tab, htab, rfl⟩ := Option.map_eq_some_iff.mp hw
      obtain ⟨r₀, hr₀, rfl⟩ := (Relational.Table.mem_update? htab).mp hr
      by_cases hid : r₀.id = id
      · rw [if_pos (by simp [hid])]
        obtain ⟨loaded, hloaded, hlid, hset⟩ := hx
        -- the row loaded and the row found are one tenant's
        have ht : loaded.tenantId = r₀.tenantId := by
          obtain ⟨r₁, hr₁, hid₁, ht₁⟩ := hK _ hloaded
          rw [← ht₁, subscription_unique hr₁ hr₀
            (hid₁.trans (hlid.trans hid.symm))]
        cases hset with
        | @replace plan response _ hplan _ hissued =>
            obtain ⟨t, rfl⟩ := plans_scope hplan
            have hasked := h.asked hloaded t _ rfl
            refine (hold r₀ hr₀).replaced ?_ (h.bought hissued)
            rw [← ht, hasked]
            exact h.served
        | apply happ =>
            obtain ⟨eventType, payload, e, rfl, hstatus, he, hend⟩ :=
              applies_scope happ
            exact (hold r₀ hr₀).applied (h.sourced hloaded) ht
              (List.mem_of_getElem? h.served) hstatus he hend
      · rw [if_neg (by simp [hid])]
        exact hold r₀ hr₀
  | insertCandidate row =>
      obtain ⟨tab, -, rfl⟩ := write_insertCandidate hw
      exact hold r hr
  | updateCandidate id set =>
      obtain ⟨tab, -, rfl⟩ := write_updateCandidate hw
      exact hold r hr
  | insertJob row =>
      obtain ⟨tab, -, rfl⟩ := write_insertJob hw
      exact hold r hr
  | insertPlan row =>
      obtain ⟨tab, -, rfl⟩ := Option.map_eq_some_iff.mp hw
      exact hold r hr
  | insertMatchResult m =>
      simp only [Db.write] at hw
      split at hw
      · cases hw
        exact hold r hr
      · cases hw

theorem sourced_writeAll {pending : List Write} {op : Op} {i : Nat}
    (h : Shown w log ops op i K) :
    ∀ {db db' : Db}, (∀ f ∈ K, Known { w with db := db } f) →
      (∀ r ∈ db.subscriptions.rows, Sourced log ops r) →
      (∀ x ∈ pending, AllowsWrite (scope op) K x) →
      db.writeAll pending = some db' →
      ∀ r ∈ db'.subscriptions.rows, Sourced log ops r := by
  induction pending with
  | nil =>
      intro db db' _ hold _ hw
      cases hw
      exact hold
  | cons x xs ih =>
      intro db db' hK hold hall hw
      unfold Db.writeAll at hw
      cases hx : db.write x with
      | none => simp [hx] at hw
      | some db₁ =>
          simp only [hx] at hw
          refine ih (fun f hf => (hK f hf).grow ?_)
            (sourced_write h hK hold (hall x (List.mem_cons_self ..)) hx)
            (fun y hy => hall y (List.mem_cons_of_mem x hy)) hw
          exact ⟨write_grows hx, List.Subset.refl _, List.Subset.refl _⟩

-- ====================================================================== runs

/-- A subscription shown to a thread that subscribes is its tenant's. -/
theorem asked_of_learned {e : Act} {a : e.Ans} {p : UUID} {row : Subscription}
    (hallow : Allows (scope (.subscribe t p)) K env e)
    (h : Fact.subscription row ∈ learned ⟨e, (perform env e a w).1⟩) :
    row.tenantId = t := by
  generalize hr : (perform env e a w).1 = r at h
  unfold learned at h
  split at h <;> simp at h
  next t' _ heq =>
    subst h
    cases heq
    have ht : t' = t := hallow
    have hrow := (read_ok (α := Option Subscription) hr).symm
    have hfound := (Relational.Table.find?_mem hrow).2
    rw [← ht]
    simpa using hfound
  next heq =>
    cases heq
    exact hallow.elim

/-- A slot keeps its operation. -/
theorem ops_slot {i : Nat} {op : Op} {x y : Option (List Fact)}
    (hi : ros[i]? = some (op, y)) :
    ros.map Prod.fst <+: (ros.set i (op, x)).map Prod.fst := by
  have heq : (ros.set i (op, x)).map Prod.fst = ros.map Prod.fst :=
    map_set hi rfl
  exact ⟨[], (List.append_nil _).trans heq.symm⟩

/-- Every row is sourced, and so is every row a thread was shown. -/
structure AllSourced (w : World) (log : Log sig)
    (ros : Roster (service env) (List Fact)) : Prop where
  rows : ∀ r ∈ w.db.subscriptions.rows, Sourced log (ros.map Prod.fst) r
  shown : ∀ {i : Nat} {op : Op} {K : List Fact} {loaded},
    ros[i]? = some (op, some K) → .subscription loaded ∈ K →
    Sourced log (ros.map Prod.fst) loaded
      ∧ ∀ t p, op = .subscribe t p → loaded.tenantId = t

/-- Slots are emptied, or start with nothing known. -/
theorem AllSourced.renew {ros' : Roster (service env) (List Fact)}
    (h : AllSourced w log ros) (hr : Renews [] ros ros')
    (hops : ros.map Prod.fst <+: ros'.map Prod.fst) :
    AllSourced w log ros' where
  rows r hmem := (h.rows r hmem).mono (List.Subset.refl _) hops
  shown hj hloaded := by
    rcases hr hj with rfl | hold
    · cases hloaded
    · obtain ⟨hsourced, hasked⟩ := h.shown hold hloaded
      exact ⟨hsourced.mono (List.Subset.refl _) hops, hasked⟩

theorem sourced_act {s : Sys (service env)} {op : Op} {i : Nat} {e : Act}
    {a : e.Ans} (h : AllSourced s.world log ros)
    (hinf : Informed env s.world ros) (hp : Purchases env s.world log ros)
    (hi : ros[i]? = some (op, some K)) (hadm : admits s.world e a = true)
    (hallow : Allows (scope op) K env e) :
    ∀ r ∈ (perform env e a s.world).2.db.subscriptions.rows,
      Sourced log (ros.map Prod.fst) r := by
  have hshown : Shown s.world log (ros.map Prod.fst) op i K := by
    refine ⟨?_, hp.logged hi, fun hl => (h.shown hi hl).1,
      fun hl => (h.shown hi hl).2⟩
    rw [List.getElem?_map, hi]
    rfl
  by_cases hcommit : ∃ pending, e = .commit pending
  · obtain ⟨pending, rfl⟩ := hcommit
    show ∀ r ∈ (s.world.commit pending a).2.db.subscriptions.rows, _
    rcases commit_cases s.world pending a with ⟨hw, -⟩ | ⟨db, hdb, hw⟩
    · rw [hw]
      exact h.rows
    · rw [hw]
      exact sourced_writeAll hshown (hinf.known.get hi) h.rows hallow hdb
  · rw [(touched env hadm).db fun pending he => hcommit ⟨pending, he⟩]
    exact h.rows

theorem sourced_keeps (env : Env) (ok : Guard (service env)) :
    (knowing env).KeepsWith ok
      (fun w log ros => Informed env w ros ∧ Purchases env w log ros)
      fun w log ros => AllSourced w log ros where
  spawn op _ h := h.renew renews_append (by
    rw [List.map_append]
    exact List.prefix_append _ _)
  act {s ros i op K e k K'} ans _ hI h hi ht hadm _ hm := by
    obtain ⟨hallow, rfl⟩ := hm
    have hops := fun x => ops_slot (x := x) hi
    have hlog : s.log ⊆ (i, ⟨e, (perform env e (ans e) s.world).1⟩) :: s.log :=
      List.subset_cons_self ..
    have hrows := sourced_act h hI.1 hI.2 hi hadm hallow
    refine ⟨fun r hr => ?_, fun {j op' K' loaded} hj hloaded => ?_⟩
    · exact (hrows r hr).mono hlog (hops _)
    · rcases roster_set hj with ⟨rfl, heq⟩ | ⟨-, hold⟩
      · cases heq
        rcases List.mem_append.mp hloaded with hnew | hknown
        · have hmem := subscription_of_learned hnew
          refine ⟨(h.rows loaded hmem).mono hlog (hops _), ?_⟩
          rintro t p rfl
          exact asked_of_learned hallow hnew
        · obtain ⟨hsourced, hasked⟩ := h.shown hi hknown
          exact ⟨hsourced.mono hlog (hops _), hasked⟩
      · obtain ⟨hsourced, hasked⟩ := h.shown hold hloaded
        exact ⟨hsourced.mono hlog (hops _), hasked⟩
  crash _ _ h hi _ _ := h.renew (renews_set (.inl rfl)) (ops_slot hi)
  restart _ h hi _ _ := h.renew (renews_set (.inr rfl)) (ops_slot hi)
  env k _ h hk := by
    refine ⟨?_, h.shown⟩
    rw [(surroundings_same hk).db]
    exact h.rows

/-- In every reachable state every subscription row is sourced. -/
theorem reachable_sourced {ok : Guard (service env)} {s : Sys (service env)}
    (h : GuardedRun env ok s) {row : Subscription}
    (hr : row ∈ s.world.db.subscriptions.rows) : Sourced s.log s.ops row := by
  have hkeeps := ((sound_keeps env ok).and (purchases_keeps env ok)).and
    (sourced_keeps env ok)
  have hinit : AllSourced World.empty []
      ([] : Roster (service env) (List Fact)) :=
    { rows := fun r hr => by cases hr
      shown := fun hj => by cases hj }
  obtain ⟨ros, htr, -, hall⟩ := Run.invariant hkeeps (knowing_conforms env)
    ⟨⟨sound_init env, purchases_init env⟩, hinit⟩ h
  rw [← htr.ops]
  exact hall.rows row hr

end ResumeScreening.Subscriptions
