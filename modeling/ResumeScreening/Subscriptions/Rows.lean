/-
Where a subscription row comes from, one statement at a time.

A row is inserted by `create_subscription`, or replaced by it, or set by
`handle_webhook_event`; nothing else writes one (`rowFrom_write`). Two
of these writes were computed from a row loaded earlier, so what they
leave depends on what they find: `UpdatesMeet` is the condition on runs
that says what every UPDATE finds.
-/
import ResumeScreening.Tenancy.Sound
import ResumeScreening.Pipeline.Status

namespace ResumeScreening.Subscriptions

open Effect Pipeline Tenancy Relational

variable {env : Env} {σ : Scope} {K : List Fact} {w : World} {db db' : Db}
  {op : Op} {i : Nat}

-- ==================================================================== guards

/-- Each statement of a list meets a condition on the rows it finds. -/
def EachMeets (C : Db → Write → Prop) : Db → List Write → Prop
  | _, [] => True
  | db, x :: xs => C db x ∧ match db.write x with
      | some db' => EachMeets C db' xs
      | none => True

instance EachMeets.decidable {C : Db → Write → Prop}
    [∀ db x, Decidable (C db x)] :
    ∀ db xs, Decidable (EachMeets C db xs)
  | _, [] => isTrue trivial
  | db, x :: xs =>
      have : Decidable (match db.write x with
          | some db' => EachMeets C db' xs
          | none => True) :=
        match db.write x with
        | some db' => EachMeets.decidable db' xs
        | none => isTrue trivial
      inferInstanceAs (Decidable (_ ∧ _))

/-- The row an UPDATE of a subscription changes is as `P` says. -/
def UpdateMeets (P : Subscription → SubscriptionPatch → Prop) (db : Db) :
    Write → Prop
  | .updateSubscription id set =>
      ∀ row ∈ db.subscriptions.rows, row.id = id → P row set
  | _ => True

instance UpdateMeets.decidable {P : Subscription → SubscriptionPatch → Prop}
    [∀ row set, Decidable (P row set)] (db : Db) :
    ∀ x, Decidable (UpdateMeets P db x)
  | .updateSubscription id set => inferInstanceAs (Decidable
      (∀ row ∈ db.subscriptions.rows, row.id = id → P row set))
  | .insertCandidate _ | .updateCandidate .. | .insertJob _ | .insertPlan _
  | .insertSubscription _ | .insertMatchResult _ => isTrue trivial

/-- Every UPDATE of a subscription that reaches the database finds its row
as `P` says of the operation that performs it. -/
def UpdatesMeet (P : Op → Subscription → SubscriptionPatch → Prop) :
    Guard (service env) := fun s l =>
  ∀ i ∈ l.actor, ∀ op ∈ s.op? i,
    EachMeets (UpdateMeets (P op)) s.world.db (commits s l)

instance UpdatesMeet.decidable
    {P : Op → Subscription → SubscriptionPatch → Prop}
    [∀ op row set, Decidable (P op row set)] (s : Sys (service env))
    (l : Label (service env)) : Decidable (UpdatesMeet P s l) :=
  inferInstanceAs (Decidable (∀ i ∈ l.actor, ∀ op ∈ s.op? i,
    EachMeets (UpdateMeets (P op)) s.world.db (commits s l)))

/-- No condition at all. -/
theorem eachMeets_trivial (xs : List Write) :
    ∀ db, EachMeets (UpdateMeets fun _ _ => True) db xs := by
  induction xs with
  | nil => exact fun _ => trivial
  | cons x xs ih =>
      intro db
      refine ⟨?_, ?_⟩
      · cases x <;> try trivial
        exact fun _ _ _ => trivial
      · cases db.write x with
        | none => trivial
        | some db' => exact ih db'

-- ============================================================= one statement

/-- A subscription row after an allowed statement. -/
inductive RowFrom (P : Subscription → SubscriptionPatch → Prop) (σ : Scope)
    (K : List Fact) (db : Db) : Subscription → Prop
  | kept {row} : row ∈ db.subscriptions.rows → RowFrom P σ K db row
  | created {t plan response id} : σ.plans plan.id → .plan plan ∈ K →
      .issued plan.razorpayPlanId response ∈ K → .attempted ∉ K →
      RowFrom P σ K db (createdSubscription t plan response id)
  | replaced {row loaded plan response} : row ∈ db.subscriptions.rows →
      .subscription loaded ∈ K → loaded.id = row.id →
      P row (replacedPatch loaded plan response) → σ.plans plan.id →
      .plan plan ∈ K → .issued plan.razorpayPlanId response ∈ K →
      .attempted ∉ K →
      RowFrom P σ K db ((replacedPatch loaded plan response).apply row)
  | applied {row loaded newStatus newEnd} : row ∈ db.subscriptions.rows →
      .subscription loaded ∈ K → loaded.id = row.id →
      P row (webhookPatch loaded newStatus newEnd) →
      σ.applies loaded.razorpaySubscriptionId newStatus newEnd →
      RowFrom P σ K db ((webhookPatch loaded newStatus newEnd).apply row)

theorem rowFrom_write {P : Subscription → SubscriptionPatch → Prop} {x : Write}
    (hx : AllowsWrite σ K x) (hmeets : UpdateMeets P db x)
    (hw : db.write x = some db') {row : Subscription}
    (hrow : row ∈ db'.subscriptions.rows) : RowFrom P σ K db row := by
  cases x with
  | insertCandidate =>
      obtain ⟨tab, -, rfl⟩ := write_insertCandidate hw
      exact .kept hrow
  | updateCandidate =>
      obtain ⟨tab, -, rfl⟩ := write_updateCandidate hw
      exact .kept hrow
  | insertJob =>
      obtain ⟨tab, -, rfl⟩ := write_insertJob hw
      exact .kept hrow
  | insertPlan =>
      obtain ⟨tab, -, rfl⟩ := Option.map_eq_some_iff.mp hw
      exact .kept hrow
  | insertSubscription row' =>
      obtain ⟨tab, htab, rfl⟩ := Option.map_eq_some_iff.mp hw
      rcases (Table.mem_insert? htab).mp hrow with hold | rfl
      · exact .kept hold
      · obtain ⟨-, -, hK, plan, response, hplan, hplan', hissued, hrow'⟩ := hx
        rw [hrow']
        exact .created hplan hplan' hissued hK
  | updateSubscription id set =>
      obtain ⟨tab, htab, rfl⟩ := Option.map_eq_some_iff.mp hw
      obtain ⟨row₀, hrow₀, rfl⟩ := (Table.mem_update? htab).mp hrow
      by_cases hid : row₀.id = id
      · rw [if_pos (by simp [hid])]
        obtain ⟨loaded, hloaded, hlid, hset⟩ := hx
        have hP := hmeets row₀ hrow₀ hid
        cases hset with
        | replace hK hplan hplan' hissued =>
            exact .replaced hrow₀ hloaded (hlid.trans hid.symm) hP hplan hplan'
              hissued hK
        | apply happ =>
            exact .applied hrow₀ hloaded (hlid.trans hid.symm) hP happ
      · rw [if_neg (by simp [hid])]
        exact .kept hrow₀
  | insertMatchResult m =>
      simp only [Db.write] at hw
      split at hw
      · cases hw
        exact .kept hrow
      · cases hw

/-- What every row a statement leaves has, the rows a list of statements
leaves have. -/
theorem rows_writeAll {P : Subscription → SubscriptionPatch → Prop}
    {Q : Subscription → Prop} (hQ : ∀ db row,
      (∀ r ∈ db.subscriptions.rows, Q r) → RowFrom P σ K db row → Q row)
    {pending : List Write} :
    ∀ {db db' : Db}, (∀ x ∈ pending, AllowsWrite σ K x) →
      EachMeets (UpdateMeets P) db pending → db.writeAll pending = some db' →
      (∀ r ∈ db.subscriptions.rows, Q r) →
      ∀ r ∈ db'.subscriptions.rows, Q r := by
  induction pending with
  | nil =>
      intro db db' _ _ hw hrows
      cases hw
      exact hrows
  | cons x xs ih =>
      intro db db' hall hmeets hw hrows
      unfold Db.writeAll at hw
      obtain ⟨hfirst, hrest⟩ := hmeets
      cases hx : db.write x with
      | none => simp [hx] at hw
      | some db₁ =>
          simp only [hx] at hw hrest
          refine ih (fun y hy => hall y (List.mem_cons_of_mem x hy)) hrest hw ?_
          exact fun r hr => hQ db r hrows
            (rowFrom_write (hall x (List.mem_cons_self ..)) hfirst hx hr)

-- ================================================================ one action

/-- What every row a statement leaves has, the rows an action leaves
have. -/
theorem rows_step {P : Op → Subscription → SubscriptionPatch → Prop}
    {Q : Subscription → Prop} {s : Sys (service env)} {e : Act}
    {k : Except Exn e.Ret → Py Resp} {ans : (e : Act) → e.Ans}
    (hQ : ∀ db row, (∀ r ∈ db.subscriptions.rows, Q r) →
      RowFrom (P op) (scope op) K db row → Q row)
    (ht : s.threads[i]? = some ⟨op, some (.act e k)⟩)
    (hadm : admits s.world e (ans e) = true)
    (hallow : Allows (scope op) K env e)
    (hmeets : UpdatesMeet P s (.act i ans))
    (hrows : ∀ r ∈ s.world.db.subscriptions.rows, Q r) :
    ∀ r ∈ (perform env e (ans e) s.world).2.db.subscriptions.rows, Q r := by
  by_cases hcommit : ∃ pending, e = .commit pending
  · obtain ⟨pending, rfl⟩ := hcommit
    by_cases happ : Fate.applied (ans (.commit pending)) = true
    · have hpend : commits s (.act i ans) = pending := by
        simp only [commits, next_of_thread ht, happ, if_true]
      have heach := hmeets i rfl op (op_of_thread ht)
      rw [hpend] at heach
      show ∀ r ∈ (s.world.commit pending _).2.db.subscriptions.rows, Q r
      rcases commit_cases s.world pending (ans (.commit pending))
        with ⟨hw, -⟩ | ⟨db, hdb, hw⟩
      · rw [hw]
        exact hrows
      · rw [hw]
        exact rows_writeAll hQ hallow heach hdb hrows
    · show ∀ r ∈ (s.world.commit pending _).2.db.subscriptions.rows, Q r
      rw [commit_unapplied happ]
      exact hrows
  · rw [(touched env hadm).db fun pending he => hcommit ⟨pending, he⟩]
    exact hrows

end ResumeScreening.Subscriptions
