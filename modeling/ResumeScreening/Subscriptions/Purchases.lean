/-
Each Razorpay subscription has one buyer.

The id a create call returns is known to one thread only, the one that
made the call, and no row carries it before that thread's commit
(`Purchases.own`). So a subscription row changes hands only by that
commit, and never goes back to an id it has lost.
-/
import ResumeScreening.Subscriptions.Rows

namespace ResumeScreening.Subscriptions

open Effect Pipeline Tenancy

variable {env : Env} {w : World} {log : Log sig}
  {ros : Roster (service env) (List Fact)} {K : List Fact}

/-- The thread's create call was answered so. -/
abbrev Bought (log : Log sig) (i : Nat) (p : String)
    (response : RazorpayResponse) : Prop :=
  (i, ⟨.createRazorpaySubscription p, .ok response⟩) ∈ log

instance Bought.decidable (log : Log sig) (i : Nat) (p : String)
    (response : RazorpayResponse) : Decidable (Bought log i p response) :=
  decidable_of_iff (∃ x ∈ log, (match x with
    | (j, ⟨.createRazorpaySubscription p', .ok response'⟩) =>
        decide (j = i ∧ p' = p ∧ response' = response)
    | _ => false) = true) (by
      constructor
      · rintro ⟨⟨j, ev⟩, hx, hev⟩
        split at hev
        next heq =>
          cases heq
          obtain ⟨rfl, rfl, rfl⟩ := of_decide_eq_true hev
          exact hx
        next => cases hev
      · exact fun h => ⟨_, h, by simp⟩)

structure Purchases (env : Env) (w : World) (log : Log sig)
    (ros : Roster (service env) (List Fact)) : Prop where
  logged : ∀ {i : Nat} {op : Op} {K : List Fact} {p response},
    ros[i]? = some (op, some K) → .issued p response ∈ K →
    Bought log i p response
  used : ∀ {i p response}, Bought log i p response →
    response.id ∈ w.usedSubscriptionIds
  once : ∀ {i j p p' response response'}, Bought log i p response →
    Bought log j p' response' → response.id = response'.id → i = j ∧ p = p'
  seen : ∀ {i : Nat} {op : Op} {K : List Fact} {loaded},
    ros[i]? = some (op, some K) → .subscription loaded ∈ K →
    loaded.razorpaySubscriptionId ∈ w.usedSubscriptionIds
  own : ∀ {i : Nat} {op : Op} {K : List Fact} {p response},
    ros[i]? = some (op, some K) → .attempted ∉ K → .issued p response ∈ K →
    (∀ s ∈ w.db.subscriptions.rows, s.razorpaySubscriptionId ≠ response.id)
      ∧ ∀ loaded, .subscription loaded ∈ K →
        loaded.razorpaySubscriptionId ≠ response.id

-- ================================================================ what is learned

theorem issued_of_learned {e : Act} {r : Except Exn e.Ret} {p : String}
    {response : RazorpayResponse}
    (h : Fact.issued p response ∈ learned ⟨e, r⟩) :
    (⟨e, r⟩ : Event sig) = ⟨.createRazorpaySubscription p, .ok response⟩ := by
  unfold learned at h
  split at h <;> simp at h
  next heq =>
    obtain ⟨rfl, rfl⟩ := h
    exact heq

/-- A row an action showed is one of the rows. -/
theorem subscription_of_learned {e : Act} {a : e.Ans} {row : Subscription}
    (h : Fact.subscription row ∈ learned ⟨e, (perform env e a w).1⟩) :
    row ∈ w.db.subscriptions.rows := by
  generalize hr : (perform env e a w).1 = r at h
  unfold learned at h
  split at h <;> simp at h
  all_goals
    next heq =>
      subst h
      cases heq
      have hrow := (read_ok (α := Option Subscription) hr).symm
      exact (Relational.Table.find?_mem hrow).1

theorem not_attempted {pending : List Write} {r : Except Exn Unit} :
    Fact.attempted ∈ learned ⟨.commit pending, r⟩ := by
  cases r <;> simp [learned]

-- ==================================================================== one step

/-- The id a replaced row carries. -/
theorem replaced_id (loaded row : Subscription) (plan : Plan)
    (response : RazorpayResponse) :
    ((replacedPatch loaded plan response).apply row).razorpaySubscriptionId
        = response.id
      ∨ (loaded.razorpaySubscriptionId = response.id
        ∧ ((replacedPatch loaded plan response).apply
            row).razorpaySubscriptionId = row.razorpaySubscriptionId) := by
  show (assign loaded.razorpaySubscriptionId response.id).getD _ = _
    ∨ (_ ∧ (assign loaded.razorpaySubscriptionId response.id).getD _ = _)
  unfold assign
  split
  next heq => exact .inr ⟨heq.symm, rfl⟩
  next => exact .inl rfl

/-- An id issued to one thread is not what another thread's statement
leaves. -/
theorem RowFrom.id_ne {P : Subscription → SubscriptionPatch → Prop} {σ : Scope}
    {db : Db} {row : Subscription} {rid : String}
    (h : RowFrom P σ K db row)
    (hold : ∀ r ∈ db.subscriptions.rows, r.razorpaySubscriptionId ≠ rid)
    (hK : ∀ p response, .issued p response ∈ K → response.id ≠ rid) :
    row.razorpaySubscriptionId ≠ rid := by
  cases h with
  | kept hr => exact hold _ hr
  | created _ _ hissued => exact hK _ _ hissued
  | @replaced row loaded plan response hr _ _ _ _ _ hissued =>
      rcases replaced_id loaded row plan response with heq | ⟨-, heq⟩
      · rw [heq]
        exact hK _ _ hissued
      · rw [heq]
        exact hold _ hr
  | @applied row _ _ _ hr => exact fun heq => hold row hr heq

/-- The ids of rows are ids that were issued. -/
theorem rows_used (hinf : Informed env w ros) {row : Subscription}
    (hr : row ∈ w.db.subscriptions.rows) :
    row.razorpaySubscriptionId ∈ w.usedSubscriptionIds :=
  (hinf.sound.rows.subscriptions row hr).2

/-- A reply that tells of a purchase tells of a fresh id. -/
theorem bought_fresh {e : Act} {a : e.Ans} (hadm : admits w e a = true)
    {p : String} {response : RazorpayResponse}
    (h : (⟨e, (perform env e a w).1⟩ : Event sig)
      = ⟨.createRazorpaySubscription p, .ok response⟩) :
    response.id ∉ w.usedSubscriptionIds
      ∧ response.id ∈ (perform env e a w).2.usedSubscriptionIds := by
  obtain ⟨rfl, hr⟩ := Event.mk.injEq .. ▸ h
  cases a with
  | error msg => cases hr
  | ok response' =>
      cases hr
      exact ⟨by simpa [admits] using hadm, List.mem_cons_self ..⟩

section Step

variable {s : Sys (service env)} {i : Nat} {op : Op} {e : Act}
  {k : Except Exn e.Ret → Py Resp} {ans : (e : Act) → e.Ans}

/-- The log after an action still has each id once. -/
theorem Purchases.once_act (h : Purchases env s.world s.log ros)
    (hadm : admits s.world e (ans e) = true) {j j' : Nat} {p p' : String}
    {response response' : RazorpayResponse}
    (hb : Bought ((i, ⟨e, (perform env e (ans e) s.world).1⟩) :: s.log)
      j p response)
    (hb' : Bought ((i, ⟨e, (perform env e (ans e) s.world).1⟩) :: s.log)
      j' p' response') (heq : response.id = response'.id) :
    j = j' ∧ p = p' := by
  rcases List.mem_cons.mp hb with hnew | hold
  · rcases List.mem_cons.mp hb' with hnew' | hold'
    · rw [Prod.mk.injEq] at hnew hnew'
      have hev := hnew.2.trans hnew'.2.symm
      rw [Event.mk.injEq] at hev
      exact ⟨hnew.1.trans hnew'.1.symm, by simpa using hev.1⟩
    · rw [Prod.mk.injEq] at hnew
      have hfresh := (bought_fresh hadm hnew.2.symm).1
      exact absurd (heq ▸ h.used hold') hfresh
  · rcases List.mem_cons.mp hb' with hnew' | hold'
    · rw [Prod.mk.injEq] at hnew'
      have hfresh := (bought_fresh hadm hnew'.2.symm).1
      exact absurd (heq ▸ h.used hold) hfresh
    · exact h.once hold hold' heq

/-- Another thread's purchases stay unwritten. -/
theorem Purchases.own_other (h : Purchases env s.world s.log ros)
    (hi : ros[i]? = some (op, some K))
    (ht : s.threads[i]? = some ⟨op, some (.act e k)⟩)
    (hadm : admits s.world e (ans e) = true)
    (hallow : Allows (scope op) K env e) {j : Nat} {p : String}
    {response : RazorpayResponse} (hj : Bought s.log j p response)
    (hji : j ≠ i) (hrows : ∀ r ∈ s.world.db.subscriptions.rows,
      r.razorpaySubscriptionId ≠ response.id) :
    ∀ r ∈ (perform env e (ans e) s.world).2.db.subscriptions.rows,
      r.razorpaySubscriptionId ≠ response.id := by
  refine rows_step (P := fun _ _ _ => True) (fun db row hold hfrom => ?_) ht
    hadm hallow (fun _ _ _ _ => eachMeets_trivial _ _) hrows
  refine hfrom.id_ne hold fun p' response' hissued heq => hji ?_
  exact (h.once hj (h.logged hi hissued) heq.symm).1

/-- The thread's own purchases stay unwritten until its commit. -/
theorem Purchases.own_self (h : Purchases env s.world s.log ros)
    (hinf : Informed env s.world ros) (hi : ros[i]? = some (op, some K))
    (hadm : admits s.world e (ans e) = true) {p : String}
    {response : RazorpayResponse}
    (hK : Fact.attempted ∉ learned ⟨e, (perform env e (ans e) s.world).1⟩ ++ K)
    (hissued : Fact.issued p response
      ∈ learned ⟨e, (perform env e (ans e) s.world).1⟩ ++ K) :
    (∀ r ∈ (perform env e (ans e) s.world).2.db.subscriptions.rows,
        r.razorpaySubscriptionId ≠ response.id)
      ∧ ∀ loaded, Fact.subscription loaded
          ∈ learned ⟨e, (perform env e (ans e) s.world).1⟩ ++ K →
        loaded.razorpaySubscriptionId ≠ response.id := by
  have he : ∀ pending, e ≠ .commit pending := by
    rintro pending rfl
    exact hK (List.mem_append_left _ not_attempted)
  have hold : Fact.attempted ∉ K := fun hmem =>
    hK (List.mem_append_right _ hmem)
  rw [(touched env hadm).db he]
  rcases List.mem_append.mp hissued with hnew | hknown
  · have hev := issued_of_learned hnew
    have hfresh := (bought_fresh hadm hev).1
    refine ⟨fun r hr heq => hfresh (heq ▸ rows_used hinf hr), ?_⟩
    intro loaded hloaded heq
    rcases List.mem_append.mp hloaded with hshown | hseen
    · exact hfresh (heq ▸ rows_used hinf (subscription_of_learned hshown))
    · exact hfresh (heq ▸ h.seen hi hseen)
  · obtain ⟨hrows, hseen⟩ := h.own hi hold hknown
    refine ⟨hrows, fun loaded hloaded => ?_⟩
    rcases List.mem_append.mp hloaded with hshown | hloaded
    · exact hrows loaded (subscription_of_learned hshown)
    · exact hseen loaded hloaded

theorem Purchases.act (h : Purchases env s.world s.log ros)
    (hinf : Informed env s.world ros) (hi : ros[i]? = some (op, some K))
    (ht : s.threads[i]? = some ⟨op, some (.act e k)⟩)
    (hadm : admits s.world e (ans e) = true)
    (hallow : Allows (scope op) K env e) :
    Purchases env (perform env e (ans e) s.world).2
      ((i, ⟨e, (perform env e (ans e) s.world).1⟩) :: s.log)
      (ros.set i (op, some
        (learned ⟨e, (perform env e (ans e) s.world).1⟩ ++ K))) := by
  have hgrow := (touched env hadm).grows
  refine ⟨fun {j op' K' p response} hj hissued => ?_,
    fun {j p response} hb => ?_, fun hb hb' => h.once_act hadm hb hb',
    fun {j op' K' loaded} hj hloaded => ?_,
    fun {j op' K' p response} hj hK hissued => ?_⟩
  · rcases roster_set hj with ⟨rfl, heq⟩ | ⟨-, hold⟩
    · cases heq
      rcases List.mem_append.mp hissued with hnew | hknown
      · rw [issued_of_learned hnew]
        exact List.mem_cons_self ..
      · exact List.mem_cons_of_mem _ (h.logged hi hknown)
    · exact List.mem_cons_of_mem _ (h.logged hold hissued)
  · rcases List.mem_cons.mp hb with hnew | hold
    · rw [Prod.mk.injEq] at hnew
      exact (bought_fresh hadm hnew.2.symm).2
    · exact hgrow.issued (h.used hold)
  · rcases roster_set hj with ⟨rfl, heq⟩ | ⟨-, hold⟩
    · cases heq
      rcases List.mem_append.mp hloaded with hshown | hknown
      · exact hgrow.issued (rows_used hinf (subscription_of_learned hshown))
      · exact hgrow.issued (h.seen hi hknown)
    · exact hgrow.issued (h.seen hold hloaded)
  · rcases roster_set hj with ⟨rfl, heq⟩ | ⟨hji, hold⟩
    · cases heq
      exact h.own_self hinf hi hadm hK hissued
    · obtain ⟨hrows, hseen⟩ := h.own hold hK hissued
      exact ⟨h.own_other hi ht hadm hallow (h.logged hold hissued) hji hrows,
        hseen⟩

end Step

/-- Slots are emptied, or start with nothing known. -/
theorem Purchases.renew (h : Purchases env w log ros)
    {ros' : Roster (service env) (List Fact)} (hr : Renews [] ros ros') :
    Purchases env w log ros' := by
  refine ⟨fun hj hissued => ?_, h.used, h.once, fun hj hloaded => ?_,
    fun hj hK hissued => ?_⟩
  · rcases hr hj with rfl | hold
    · cases hissued
    · exact h.logged hold hissued
  · rcases hr hj with rfl | hold
    · cases hloaded
    · exact h.seen hold hloaded
  · rcases hr hj with rfl | hold
    · cases hissued
    · exact h.own hold hK hissued

theorem purchases_keeps (env : Env) (ok : Guard (service env)) :
    (knowing env).KeepsWith ok (fun w _ ros => Informed env w ros)
      (Purchases env) where
  spawn _ _ h := h.renew renews_append
  act ans _ hinf h hi ht hadm _ hm := by
    obtain ⟨hallow, rfl⟩ := hm
    exact h.act hinf hi ht hadm hallow
  crash _ _ h _ _ _ := h.renew (renews_set (.inl rfl))
  restart _ h _ _ _ := h.renew (renews_set (.inr rfl))
  env k _ h hk := by
    have hs := surroundings_same hk
    refine ⟨h.logged, fun hb => ?_, h.once, fun hj hloaded => ?_,
      fun hj hK hissued => ?_⟩
    · rw [hs.usedSubscriptionIds]
      exact h.used hb
    · rw [hs.usedSubscriptionIds]
      exact h.seen hj hloaded
    · rw [hs.db]
      exact h.own hj hK hissued

theorem purchases_init (env : Env) : Purchases env World.empty [] [] where
  logged h := by cases h
  used h := by cases h
  once h := by cases h
  seen h := by cases h
  own h := by cases h

end ResumeScreening.Subscriptions
