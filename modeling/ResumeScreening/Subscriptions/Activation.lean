/-
A paid activation, while its row is not replaced.

The row carries one Razorpay id, the last one bought. Once a create call
has returned, no other thread can put its id in a row again
(`row_before`), so a row that still carries it is the row its events
find; and what an activation leaves there is only undone by a
cancellation applied to it (`Watching`).
-/
import ResumeScreening.Subscriptions.Period

namespace ResumeScreening.Subscriptions

open Effect Pipeline Tenancy Relational

variable {env : Env} {w w' : World} {log : Log sig}
  {ros : Roster (service env) (List Fact)} {K : List Fact} {rid : String}

-- ================================================================ the condition

/-- No cancelled or halted event is applied to the row of this id. -/
def Uncancelled (rid : String) : Op → Subscription → SubscriptionPatch → Prop
  | .webhook eventType _, row, _ => statusEvent eventType = some "cancelled" →
      row.razorpaySubscriptionId ≠ rid
  | _, _, _ => True

instance Uncancelled.decidable (rid : String) :
    ∀ op row set, Decidable (Uncancelled rid op row set)
  | .webhook eventType _, row, _ => inferInstanceAs (Decidable
      (statusEvent eventType = some "cancelled" →
        row.razorpaySubscriptionId ≠ rid))
  | .createCandidate .., _, _ | .listCandidates _, _, _
  | .getCandidate .., _, _ | .uploadResume .., _, _ | .createJob .., _, _
  | .listJobs _, _, _ | .getJob .., _, _ | .rankCandidates .., _, _
  | .createPlan _, _, _ | .subscribe .., _, _ | .worker, _, _ => isTrue trivial

theorem statusEvent_cases {eventType newStatus : String}
    (h : statusEvent eventType = some newStatus) :
    newStatus = "active" ∨ newStatus = "cancelled" := by
  unfold statusEvent at h
  split at h
  · exact .inl (Option.some.inj h).symm
  · split at h
    · exact .inl (Option.some.inj h).symm
    · split at h
      · exact .inr (Option.some.inj h).symm
      · split at h
        · exact .inr (Option.some.inj h).symm
        · cases h

-- ==================================================================== one row

/-- A row of the id, as it was: the same row, active if it was. -/
def Before (db : Db) (rid : String) (row : Subscription) : Prop :=
  row.razorpaySubscriptionId = rid → ∃ row₀ ∈ db.subscriptions.rows,
    row₀.razorpaySubscriptionId = rid ∧ row₀.id = row.id
      ∧ (row₀.status = "active" → row.status = "active")

theorem applied_status {loaded row : Subscription} {newStatus : String}
    {newEnd : Option Py.DateTime} (hnew : newStatus = "active")
    (h : row.status = "active") :
    ((webhookPatch loaded newStatus newEnd).apply row).status = "active" := by
  show (assign loaded.status newStatus).getD row.status = "active"
  unfold assign
  split
  · exact h
  · exact hnew

/-- A statement of a thread that did not buy the id. -/
theorem RowFrom.before {op : Op} {i : Nat} {db₀ db : Db} {row : Subscription}
    (hp : Purchases env w log ros) (hi : ros[i]? = some (op, some K))
    (hne : ∀ p response, .issued p response ∈ K → response.id ≠ rid)
    (hold : ∀ r ∈ db.subscriptions.rows, Before db₀ rid r)
    (h : RowFrom (Uncancelled rid op) (scope op) K db row) :
    Before db₀ rid row := by
  cases h with
  | kept hr => exact hold _ hr
  | created _ _ hissued => exact fun heq => absurd heq (hne _ _ hissued)
  | @replaced row loaded plan response hr hloaded _ _ _ _ hissued hK =>
      intro heq
      rcases replaced_id loaded row plan response with hid | ⟨hid, -⟩
      · exact absurd (hid.symm.trans heq) (hne _ _ hissued)
      · exact absurd hid ((hp.own hi hK hissued).2 loaded hloaded)
  | @applied row loaded newStatus newEnd hr _ _ hun happ =>
      intro heq
      obtain ⟨row₀, hr₀, hrid, hid, hactive⟩ := hold row hr heq
      refine ⟨row₀, hr₀, hrid, hid, fun h₀ => ?_⟩
      obtain ⟨eventType, payload, e, rfl, hst, -, -⟩ := applies_scope happ
      refine applied_status ?_ (hactive h₀)
      rcases statusEvent_cases hst with hnew | rfl
      · exact hnew
      · exact absurd heq (hun hst)

/-- A step of a thread that did not buy the id. -/
theorem row_before {s : Sys (service env)} {i j : Nat} {op : Op} {e : Act}
    {k : Except Exn e.Ret → Py Resp} {ans : (e : Act) → e.Ans}
    {p : String} {response : RazorpayResponse}
    (hp : Purchases env s.world s.log ros) (hb : Bought s.log j p response)
    (hij : i ≠ j) (hi : ros[i]? = some (op, some K))
    (ht : s.threads[i]? = some ⟨op, some (.act e k)⟩)
    (hadm : admits s.world e (ans e) = true)
    (hallow : Allows (scope op) K env e)
    (hok : UpdatesMeet (Uncancelled response.id) s (.act i ans)) :
    ∀ row ∈ (perform env e (ans e) s.world).2.db.subscriptions.rows,
      Before s.world.db response.id row := by
  refine rows_step (P := Uncancelled response.id) (fun db row hold hfrom => ?_)
    ht hadm hallow hok fun row hr hrid => ⟨row, hr, hrid, rfl, fun h => h⟩
  refine hfrom.before hp hi (fun p' response' hissued heq => hij ?_) hold
  exact (hp.once (hp.logged hi hissued) hb heq).1

-- ============================================================== the activation

/-- What the facts of an activation's handler say of the row. -/
structure Watching (w : World) (rid : String) (K : List Fact) : Prop where
  unknown : .unknown rid ∈ K → ∀ row ∈ w.db.subscriptions.rows,
    row.razorpaySubscriptionId ≠ rid
  shown : ∀ loaded, .subscription loaded ∈ K →
    loaded.razorpaySubscriptionId = rid → ∀ row ∈ w.db.subscriptions.rows,
    row.razorpaySubscriptionId = rid →
      row.id = loaded.id ∧ (loaded.status = "active" → row.status = "active")
  stored : ∀ id set, .committed [.updateSubscription id set] ∈ K →
    set.status = some "active" → ∀ row ∈ w.db.subscriptions.rows,
    row.razorpaySubscriptionId = rid → row.id = id → row.status = "active"

theorem watching_nil : Watching w rid [] where
  unknown h := by cases h
  shown _ h := by cases h
  stored _ _ h := by cases h

/-- What is known of the row stays so. -/
theorem Watching.step (h : Watching w rid K)
    (hrows : ∀ row ∈ w'.db.subscriptions.rows, Before w.db rid row) :
    Watching w' rid K := by
  refine ⟨fun hK row hr hrid => ?_, fun loaded hK hl row hr hrid => ?_,
    fun id set hK hset row hr hrid hid => ?_⟩
  · obtain ⟨row₀, hr₀, hrid₀, -, -⟩ := hrows row hr hrid
    exact h.unknown hK row₀ hr₀ hrid₀
  · obtain ⟨row₀, hr₀, hrid₀, hid₀, hactive⟩ := hrows row hr hrid
    obtain ⟨hid, hkept⟩ := h.shown loaded hK hl row₀ hr₀ hrid₀
    exact ⟨hid₀.symm.trans hid, fun hla => hactive (hkept hla)⟩
  · obtain ⟨row₀, hr₀, hrid₀, hid₀, hactive⟩ := hrows row hr hrid
    exact hactive (h.stored id set hK hset row₀ hr₀ hrid₀ (hid₀.trans hid))

/-- A look that found no row of the id. -/
theorem unknown_of_learned {e : Act} {a : e.Ans}
    (h : Fact.unknown rid ∈ learned ⟨e, (perform env e a w).1⟩) :
    ∀ row ∈ w.db.subscriptions.rows, row.razorpaySubscriptionId ≠ rid := by
  generalize hr : (perform env e a w).1 = r at h
  unfold learned at h
  split at h <;> simp at h
  next heq =>
    subst h
    cases heq
    have hnone := (read_ok (α := Option Subscription) hr).symm
    intro row hrow heq
    exact absurd (List.find?_eq_none.mp hnone row hrow) (by simp [heq])

/-- A commit that went through. -/
theorem committed_of_learned {e : Act} {a : e.Ans} {pending : List Write}
    (h : Fact.committed pending ∈ learned ⟨e, (perform env e a w).1⟩) :
    ∃ db, w.db.writeAll pending = some db ∧ (perform env e a w).2.db = db := by
  generalize hr : (perform env e a w).1 = r at h
  unfold learned at h
  split at h <;> simp at h
  next heq =>
    subst h
    cases heq
    obtain ⟨db, hdb, hw⟩ := commit_ok hr
    exact ⟨db, hdb, by rw [show perform env (.commit _) a w = w.commit _ a from rfl, hw]⟩

/-- Nothing is learned of the row by an action that changes it. -/
theorem before_of_learned {e : Act} {a : e.Ans} (hadm : admits w e a = true)
    {x : Fact} (h : x ∈ learned ⟨e, (perform env e a w).1⟩)
    (hx : x ≠ .attempted) (hc : ∀ pending, x ≠ .committed pending) :
    (perform env e a w).2.db = w.db := by
  refine (touched env hadm).db fun pending he => ?_
  subst he
  generalize (perform env (.commit pending) a w).1 = r at h
  cases r with
  | error msg => exact hx (List.mem_singleton.mp h)
  | ok v =>
      rcases List.mem_cons.mp h with rfl | h
      · exact hc pending rfl
      · exact hx (List.mem_singleton.mp h)

/-- What the handler learns of the row is so. -/
theorem Watching.learn {e : Act} {a : e.Ans} (hadm : admits w e a = true)
    (h : Watching (perform env e a w).2 rid K) :
    Watching (perform env e a w).2 rid
      (learned ⟨e, (perform env e a w).1⟩ ++ K) := by
  refine ⟨fun hK => ?_, fun loaded hK hl => ?_, fun id set hK hset => ?_⟩
  · rcases List.mem_append.mp hK with hnew | hold
    · rw [before_of_learned hadm hnew nofun nofun]
      exact unknown_of_learned hnew
    · exact h.unknown hold
  · rcases List.mem_append.mp hK with hnew | hold
    · rw [before_of_learned hadm hnew nofun nofun]
      intro row hr hrid
      have hsame : row = loaded := razorpay_unique hr
        (subscription_of_learned hnew) (hrid.trans hl.symm)
      exact ⟨by rw [hsame], fun hla => by rw [hsame, hla]⟩
    · exact h.shown loaded hold hl
  · rcases List.mem_append.mp hK with hnew | hold
    · obtain ⟨db, hdb, hw⟩ := committed_of_learned hnew
      rw [writeAll_one] at hdb
      obtain ⟨tab, htab, rfl⟩ := Option.map_eq_some_iff.mp hdb
      rw [hw]
      intro row hr hrid hid
      obtain ⟨row₀, hr₀, rfl⟩ := (Table.mem_update? htab).mp hr
      by_cases hid₀ : row₀.id = id
      · rw [if_pos (by simp [hid₀])]
        show set.status.getD row₀.status = "active"
        rw [hset]
        rfl
      · rw [if_neg (by simp [hid₀])] at hid
        exact absurd hid hid₀
    · exact h.stored id set hold hset

-- ====================================================================== runs

/-- The thread's handler watches the row. -/
def Watched (rid : String) (k : Nat) (w : World) (_ : Log sig)
    (ros : Roster (service env) (List Fact)) : Prop :=
  ∀ op K, ros[k]? = some (op, some K) → Watching w rid K

theorem Watched.renew {rid : String} {k : Nat} {log : Log sig}
    {ros ros' : Roster (service env) (List Fact)}
    (h : Watched rid k w log ros) (hr : Renews [] ros ros') :
    Watched rid k w log ros' := by
  intro op K hk
  rcases hr hk with rfl | hold
  · exact watching_nil
  · exact h op K hold

theorem watched_keeps (env : Env) (i : Nat) (p : String)
    (response : RazorpayResponse) (k : Nat) :
    (knowing env).KeepsWith (fun s l =>
        UpdatesMeet (Uncancelled response.id) s l ∧ l.actor ≠ some i)
      (fun w log ros => (Informed env w ros ∧ Purchases env w log ros)
        ∧ Bought log i p response)
      (Watched response.id k) where
  spawn _ _ h := h.renew renews_append
  act {s ros j op K e k' K'} ans _ hI h hj ht hadm hok hm op' L hk := by
    obtain ⟨hallow, rfl⟩ := hm
    have hji : j ≠ i := fun heq => hok.2 (by rw [heq]; rfl)
    have hrows := row_before hI.1.2 hI.2 hji hj ht hadm hallow hok.1
    rcases roster_set hk with ⟨rfl, heq⟩ | ⟨-, hold⟩
    · cases heq
      exact ((h op K hj).step hrows).learn hadm
    · exact (h op' L hold).step hrows
  crash _ _ h _ _ _ := h.renew (renews_set (.inl rfl))
  restart _ h _ _ _ := h.renew (renews_set (.inr rfl))
  env k' _ h hk op' K' hk' := by
    have hs := surroundings_same hk
    refine (h op' K' hk').step fun row hr hrid => ?_
    rw [hs.db] at hr
    exact ⟨row, hr, hrid, rfl, fun h => h⟩

/-- What was bought stays logged. -/
theorem bought_keeps {i : Nat} {p : String} {response : RazorpayResponse}
    (ok : Guard (service env)) :
    (knowing env).KeepsWith ok
      (fun w log ros => Informed env w ros ∧ Purchases env w log ros)
      fun _ log _ => Bought log i p response where
  spawn _ _ h := h
  act _ _ _ h _ _ _ _ _ := List.mem_cons_of_mem _ h
  crash _ _ h _ _ _ := h
  restart _ h _ _ _ := h
  env _ _ h _ := h

-- ================================================================ the result

/-- A tenant's create call has returned a checkout; from some later state
on an activation or a charge of it is delivered, and no cancelled or
halted event is applied to a row that carries it. Once the delivery has
ended, a row that still carries that Razorpay id is active. -/
theorem activation_kept {s u t : Sys (service env)} (hs : Reachable env s)
    {i : Nat} {T p : UUID} {c : SubscribeResponse}
    (hret : s.Ended i (.subscribe T p) (.ok (.subscribe c)))
    {plan : String} {response : RazorpayResponse}
    (hbought : Bought s.log i plan response)
    (hsu : Run (fun _ _ => True) s u)
    (hut : Run (UpdatesMeet (Uncancelled response.id)) u t)
    {k : Nat} (hk : u.threads.length ≤ k) {eventType : String}
    {payload : WebhookPayload} {e : SubscriptionEntity}
    (hend : t.Ended k (.webhook eventType payload) (.ok .done))
    (hevent : statusEvent eventType = some "active")
    (hpayload : payload.entity = .ok (response.id, e)) :
    ∀ row ∈ t.world.db.subscriptions.rows, row.tenantId = T →
      row.razorpaySubscriptionId = response.id → row.status = "active" := by
  intro row hr _ hrid
  obtain ⟨ros, htr, hinf, hp⟩ := reachable_purchases (hs.trans hsu)
  have hendu := (hsu.of_ended hret rfl).1
  have hfirst : Watched response.id k u.world u.log ros := by
    intro op K hslot
    obtain ⟨hlt, -⟩ := List.getElem?_eq_some_iff.mp hslot
    have hlen : u.threads.length = ros.length := htr.length_eq
    omega
  have hkeeps := (((sound_keeps env _).and (purchases_keeps env _)).and
    (bought_keeps _)).and (watched_keeps env i plan response k)
  obtain ⟨ros', htr', -, hwatch⟩ := Run.invariant_from hkeeps
    (knowing_conforms env) (hut.of_ended hendu rfl).2 htr
    ⟨⟨⟨hinf, hp⟩, hsu.log_mono hbought⟩, hfirst⟩
  obtain ⟨K, hslot, hfol⟩ := htr'.phase hend
  have hfin : Finished K (.webhook eventType payload) := hfol .done rfl
  have hw := hwatch _ K hslot
  rcases hfin "active" response.id e hevent hpayload with
    hnone | ⟨loaded, newEnd, hloaded, hl, -, hstored⟩
  · exact absurd hrid (hw.unknown hnone row hr)
  · obtain ⟨hid, hkept⟩ := hw.shown loaded hloaded hl row hr hrid
    by_cases hactive : loaded.status = "active"
    · exact hkept hactive
    · refine hw.stored _ _ hstored ?_ row hr hrid hid
      show assign loaded.status "active" = some "active"
      rw [assign, if_neg fun heq => hactive heq.symm]

/-- An event of this type about a Razorpay subscription. -/
def sampleEvent (eventType rid : String) : Op :=
  .webhook eventType { subscription := some (some { id := some rid }) }

/-- What the purchases of the runs below answer with. -/
def firstCheckout : SubscribeResponse :=
  ⟨UUID.ofNat 0, "created", "https://rzp.io/1"⟩

def firstAnswer : RazorpayResponse := ⟨"sub_1", "created", "https://rzp.io/1"⟩

def secondCheckout : SubscribeResponse :=
  ⟨UUID.ofNat 0, "created", "https://rzp.io/2"⟩

def secondAnswer : RazorpayResponse := ⟨"sub_2", "created", "https://rzp.io/2"⟩

/-- A purchase and its activation are such a run. -/
theorem activation_kept_sample : ∃ t : Sys (service sampleEnv),
    Reachable sampleEnv t ∧ ∃ row ∈ t.world.db.subscriptions.rows,
      row.tenantId = sampleTenant ∧ row.razorpaySubscriptionId = "sub_1"
        ∧ row.status = "active" := by
  have hexec : Reaches samplePurchase fun s =>
      decide (s.op? 1 = some (.subscribe sampleTenant (UUID.ofNat 5))
        ∧ s.result? 1 = some (.ok (.subscribe firstCheckout))
        ∧ Bought s.log 1 "plan_1" firstAnswer)
      && decide ((s.exec (UpdatesMeet (Uncancelled "sub_1"))
          (.spawn (sampleEvent "subscription.activated" "sub_1")
            :: steps 2 2)).map (fun t => decide (s.threads.length ≤ 2
          ∧ t.op? 2 = some (sampleEvent "subscription.activated" "sub_1")
          ∧ t.result? 2 = some (.ok .done)
          ∧ ∃ row ∈ t.world.db.subscriptions.rows,
            row.tenantId = sampleTenant
              ∧ row.razorpaySubscriptionId = "sub_1")) = some true) := by
    decide +kernel
  obtain ⟨s, hs, hp⟩ := Run.exists_of_exec hexec
  rw [Bool.and_eq_true, decide_eq_true_eq, decide_eq_true_eq] at hp
  obtain ⟨⟨hop, hres, hbought⟩, hrest⟩ := hp
  obtain ⟨t, ht, hq⟩ := Run.exists_of_exec hrest
  obtain ⟨hk, hopt, hrest, row, hr, hten, hrid⟩ := of_decide_eq_true hq
  refine ⟨t, hs.trans (ht.mono fun _ _ _ => trivial), row, hr, hten, hrid, ?_⟩
  exact activation_kept hs (Sys.ended_iff.mpr ⟨hop, hres⟩) hbought .refl ht hk
    (Sys.ended_iff.mpr ⟨hopt, hrest⟩) rfl rfl row hr hten hrid

/-- The tenant buys the plan twice and pays the first checkout: its
activation finds no row. -/
def paidFirst : List (Label (service sampleEnv)) :=
  samplePurchase
    ++ .spawn (.subscribe sampleTenant (UUID.ofNat 5))
      :: steps 2 5 { razorpay := secondAnswer }
    ++ .spawn (sampleEvent "subscription.activated" "sub_1") :: steps 3 1

/-- A cancellation of the first purchase is read before and applied after
the second purchase and its activation. -/
def cancelledLate : List (Label (service sampleEnv)) :=
  samplePurchase
    ++ .spawn (sampleEvent "subscription.cancelled" "sub_1") :: steps 2 1
    ++ .spawn (.subscribe sampleTenant (UUID.ofNat 5))
      :: steps 3 5 { razorpay := secondAnswer }
    ++ .spawn (sampleEvent "subscription.activated" "sub_2") :: steps 4 2
    ++ steps 2 1

/-- Two ways an activation is lost: its checkout was replaced by another
create call, or a late cancellation of the replaced one is applied to the
row. -/
theorem activation_lost :
    (∃ s : Sys (service sampleEnv), Reachable sampleEnv s
      ∧ s.Ended 1 (.subscribe sampleTenant (UUID.ofNat 5))
          (.ok (.subscribe firstCheckout))
      ∧ Bought s.log 1 "plan_1" firstAnswer
      ∧ s.Ended 3 (sampleEvent "subscription.activated" "sub_1") (.ok .done)
      ∧ (∀ th ∈ s.threads, th.op ∈ [.createPlan samplePlan,
          .subscribe sampleTenant (UUID.ofNat 5),
          sampleEvent "subscription.activated" "sub_1"])
      ∧ ∃ row ∈ s.world.db.subscriptions.rows,
          row.tenantId = sampleTenant ∧ row.status = "created")
    ∧ ∃ s : Sys (service sampleEnv), Reachable sampleEnv s
      ∧ s.Ended 3 (.subscribe sampleTenant (UUID.ofNat 5))
          (.ok (.subscribe secondCheckout))
      ∧ Bought s.log 3 "plan_1" secondAnswer
      ∧ s.Ended 4 (sampleEvent "subscription.activated" "sub_2") (.ok .done)
      ∧ (∀ th ∈ s.threads, th.op ∈ [.createPlan samplePlan,
          .subscribe sampleTenant (UUID.ofNat 5),
          sampleEvent "subscription.activated" "sub_2",
          sampleEvent "subscription.cancelled" "sub_1"])
      ∧ ∃ row ∈ s.world.db.subscriptions.rows,
          row.tenantId = sampleTenant ∧ row.razorpaySubscriptionId = "sub_2"
            ∧ row.status = "cancelled" := by
  constructor
  · have hexec : Reaches paidFirst fun s =>
        decide (s.op? 1 = some (.subscribe sampleTenant (UUID.ofNat 5))
          ∧ s.result? 1 = some (.ok (.subscribe firstCheckout))
          ∧ Bought s.log 1 "plan_1" firstAnswer
          ∧ s.op? 3 = some (sampleEvent "subscription.activated" "sub_1")
          ∧ s.result? 3 = some (.ok .done)
          ∧ (∀ th ∈ s.threads, th.op ∈ [.createPlan samplePlan,
            .subscribe sampleTenant (UUID.ofNat 5),
            sampleEvent "subscription.activated" "sub_1"])
          ∧ ∃ row ∈ s.world.db.subscriptions.rows,
            row.tenantId = sampleTenant ∧ row.status = "created") := by
      decide +kernel
    obtain ⟨s, hs, hp⟩ := Run.exists_of_exec hexec
    obtain ⟨hop, hres, hb, hop', hres', hths, hrow⟩ := of_decide_eq_true hp
    exact ⟨s, hs, Sys.ended_iff.mpr ⟨hop, hres⟩, hb,
      Sys.ended_iff.mpr ⟨hop', hres'⟩, hths, hrow⟩
  · have hexec : Reaches cancelledLate fun s =>
        decide (s.op? 3 = some (.subscribe sampleTenant (UUID.ofNat 5))
          ∧ s.result? 3 = some (.ok (.subscribe secondCheckout))
          ∧ Bought s.log 3 "plan_1" secondAnswer
          ∧ s.op? 4 = some (sampleEvent "subscription.activated" "sub_2")
          ∧ s.result? 4 = some (.ok .done)
          ∧ (∀ th ∈ s.threads, th.op ∈ [.createPlan samplePlan,
            .subscribe sampleTenant (UUID.ofNat 5),
            sampleEvent "subscription.activated" "sub_2",
            sampleEvent "subscription.cancelled" "sub_1"])
          ∧ ∃ row ∈ s.world.db.subscriptions.rows,
            row.tenantId = sampleTenant ∧ row.razorpaySubscriptionId = "sub_2"
              ∧ row.status = "cancelled") := by
      decide +kernel
    obtain ⟨s, hs, hp⟩ := Run.exists_of_exec hexec
    obtain ⟨hop, hres, hb, hop', hres', hths, hrow⟩ := of_decide_eq_true hp
    exact ⟨s, hs, Sys.ended_iff.mpr ⟨hop, hres⟩, hb,
      Sys.ended_iff.mpr ⟨hop', hres'⟩, hths, hrow⟩

end ResumeScreening.Subscriptions
