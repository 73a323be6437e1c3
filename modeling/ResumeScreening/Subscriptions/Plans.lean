/-
Every subscription is on a plan of the catalogue: `create_subscription`
stores the plan it has loaded, and no plan is ever changed or removed.
-/
import ResumeScreening.Subscriptions.Rows

namespace ResumeScreening.Subscriptions

open Effect Pipeline Tenancy

variable {env : Env} {w w' : World}

/-- The row's plan is in the catalogue. -/
def OnPlan (w : World) (s : Subscription) : Prop :=
  ∃ plan ∈ w.db.plans.rows, plan.id = s.planId

theorem OnPlan.grow {s : Subscription} (h : OnPlan w s)
    (hg : WorldGrows w w') : OnPlan w' s := by
  obtain ⟨plan, hplan, hid⟩ := h
  exact ⟨plan, hg.rows.plans plan hplan, hid⟩

/-- The plan of a replaced row. -/
theorem replaced_plan (loaded row : Subscription) (plan : Plan)
    (response : RazorpayResponse) :
    ((replacedPatch loaded plan response).apply row).planId = plan.id
      ∨ ((replacedPatch loaded plan response).apply row).planId
        = row.planId := by
  show (assign loaded.planId plan.id).getD _ = _
    ∨ (assign loaded.planId plan.id).getD _ = _
  unfold assign
  split
  next => exact .inr rfl
  next => exact .inl rfl

/-- What a statement leaves is on a plan, where the plans it has loaded
are there. -/
theorem RowFrom.onPlan {P : Subscription → SubscriptionPatch → Prop}
    {σ : Scope} {K : List Fact} {db : Db} {row : Subscription}
    (h : RowFrom P σ K db row)
    (hold : ∀ r ∈ db.subscriptions.rows, OnPlan w r)
    (hK : ∀ plan, .plan plan ∈ K → plan ∈ w.db.plans.rows) : OnPlan w row := by
  cases h with
  | kept hr => exact hold row hr
  | @created _ plan _ _ _ hplan => exact ⟨plan, hK plan hplan, rfl⟩
  | @replaced row loaded plan response hr _ _ _ _ hplan =>
      rcases replaced_plan loaded row plan response with heq | heq
      · exact ⟨plan, hK plan hplan, heq.symm⟩
      · obtain ⟨old, hin, hid⟩ := hold row hr
        exact ⟨old, hin, hid.trans heq.symm⟩
  | @applied row _ _ _ hr => exact hold row hr

theorem plans_keeps (env : Env) (ok : Guard (service env)) :
    (knowing env).KeepsWith ok (fun w _ ros => Informed env w ros)
      fun w _ _ => ∀ s ∈ w.db.subscriptions.rows, OnPlan w s where
  spawn _ _ h := h
  act {s ros i op K e k ph'} ans _ hinf h hi ht hadm _ hm := by
    obtain ⟨hallow, rfl⟩ := hm
    have hgrow := (touched env hadm).grows
    refine rows_step (P := fun _ _ _ => True) ?_ ht hadm hallow
      (fun _ _ _ _ => eachMeets_trivial _ _) fun s hs => (h s hs).grow hgrow
    intro db row hold hfrom
    refine hfrom.onPlan hold fun plan hplan => ?_
    exact hgrow.rows.plans plan (hinf.known.get hi (.plan plan) hplan)
  crash _ _ h _ _ _ := h
  restart _ h _ _ _ := h
  env _ _ h hk := by
    intro s hs
    rw [(surroundings_same hk).db] at hs
    exact (h s hs).grow (surroundings_same hk).grows

/-- In every reachable world. -/
theorem reachable_plans {ok : Guard (service env)} {s : Sys (service env)}
    (h : GuardedRun env ok s) :
    ∀ r ∈ s.world.db.subscriptions.rows, OnPlan s.world r := by
  obtain ⟨ros, -, -, hrows⟩ := Run.invariant
    ((sound_keeps env ok).and (plans_keeps env ok)) (knowing_conforms env)
    (w := World.empty) ⟨sound_init env, fun _ hs => nomatch hs⟩ h
  exact hrows

end ResumeScreening.Subscriptions
