/-
A sequence of webhook deliveries about one Razorpay subscription.

The handler keeps no record of what it has applied: each delivery sets
the status its event stands for, and a charge that carries one sets the
period end. So a sequence leaves the status of its last event and the
period end of its last charge (`delivered_row`), and two sequences of
the same events agree on either exactly where these do.
-/
import ResumeScreening.Subscriptions.Activation
import ResumeScreening.Lib.Outcome

namespace ResumeScreening.Subscriptions

open Effect Pipeline Relational

variable {env : Env} {w w' : World} {rid : String}

-- ================================================================ deliveries

/-- What `handle_webhook_event` is given. -/
structure Notice where
  eventType : String
  payload : WebhookPayload

/-- The status and the period end a notice stores. -/
def Notice.newStatus (n : Notice) : Option String := statusEvent n.eventType

def Notice.newEnd (n : Notice) : Option Py.DateTime :=
  match n.payload.entity with
  | .ok (_, e) =>
      match periodEnd n.eventType e with
      | .ok newEnd => newEnd
      | .error _ => none
  | .error _ => none

/-- Deliveries, one after another: each is about the same Razorpay
subscription, is tracked, and is handled to its end under whatever
answers. -/
inductive Delivered (env : Env) (rid : String) :
    World → List Notice → World → Prop
  | nil {w : World} : Delivered env rid w [] w
  | cons {w w₁ w' : World} {n : Notice} {ns newStatus e tr} :
      statusEvent n.eventType = some newStatus →
      n.payload.entity = .ok (rid, e) →
      Ran (machine env) (handleWebhookEvent n.eventType n.payload) w tr
        (some (.ok ())) w₁ →
      Delivered env rid w₁ ns w' → Delivered env rid w (n :: ns) w'

/-- The last value some element of a list has. -/
def lastSome {α β : Type} (f : α → Option β) (xs : List α) : Option β :=
  xs.reverse.findSome? f

def lastStatus (ns : List Notice) : Option String := lastSome Notice.newStatus ns

def lastEnd (ns : List Notice) : Option Py.DateTime := lastSome Notice.newEnd ns

theorem lastSome_cons {α β : Type} (f : α → Option β) (x : α) (xs : List α) :
    lastSome f (x :: xs) = (lastSome f xs).or (f x) := by
  unfold lastSome
  rw [List.reverse_cons, List.findSome?_append]
  cases hx : f x <;> simp [List.findSome?, hx]

/-- Lists of the same elements have a last value together. -/
theorem lastSome_isSome {α β : Type} (f : α → Option β) (xs : List α) :
    (lastSome f xs).isSome = true ↔ ∃ x ∈ xs, (f x).isSome = true := by
  unfold lastSome
  simp [List.findSome?_isSome_iff]

-- ============================================================== one delivery

/-- The row of a Razorpay subscription. -/
def rowOf (w : World) (rid : String) : Option Subscription :=
  w.db.subscriptions.find? fun s => s.razorpaySubscriptionId == rid

/-- The patch of a webhook, applied to the row it was computed from. -/
theorem webhookPatch_loaded (loaded : Subscription) (newStatus : String)
    (newEnd : Option Py.DateTime) :
    (webhookPatch loaded newStatus newEnd).apply loaded = { loaded with
      status := newStatus
      currentPeriodEnd := newEnd.or loaded.currentPeriodEnd } := by
  cases newEnd <;> simp [webhookPatch, SubscriptionPatch.apply]

/-- What a handler that returned has done to the row of its event. -/
theorem handled_row {n : Notice} {newStatus : String} {e : SubscriptionEntity}
    {tr : List (Event sig)} (hst : statusEvent n.eventType = some newStatus)
    (he : n.payload.entity = .ok (rid, e))
    (h : Ran (machine env) (handleWebhookEvent n.eventType n.payload) w tr
      (some (.ok ())) w') :
    rowOf w' rid = (rowOf w rid).map fun row =>
      { row with
        status := newStatus
        currentPeriodEnd := n.newEnd.or row.currentPeriodEnd } := by
  unfold handleWebhookEvent at h
  rw [hst] at h
  simp only [Prog.bind_eq] at h
  obtain ⟨x, _, w₀, tr₁, rfl, hent, h⟩ := h.bind_ok
  obtain ⟨-, hx, rfl⟩ := Ran.ofExcept_iff.mp hent
  rw [he] at hx
  cases hx
  obtain ⟨found, tr₂, w₁, tr₃, rfl, hsel, hrest⟩ := h.bind_ok
  obtain ⟨a, -, -, hr, hw₁⟩ := hsel.perform_ok
  have hfound : rowOf w₀ rid = found :=
    (read_ok (α := Option Subscription) hr).symm
  obtain rfl : w₁ = w₀ := hw₁.trans (read_snd a _)
  rw [hfound]
  cases found with
  | none =>
      obtain ⟨-, -, rfl⟩ := Ran.ret_iff.mp hrest
      exact hfound
  | some loaded =>
      obtain ⟨newEnd, _, w₂, tr₄, rfl, hend, hcommit⟩ := hrest.bind_ok
      obtain ⟨-, hnewEnd, rfl⟩ := Ran.ofExcept_iff.mp hend
      rw [Option.some.injEq] at hnewEnd
      have hend' : n.newEnd = newEnd := by
        unfold Notice.newEnd
        rw [he]
        simp only [← hnewEnd]
      obtain ⟨a', -, -, hr', hw'⟩ := hcommit.perform_ok
      obtain ⟨db, hdb, hcw⟩ := commit_ok hr'
      rw [writeAll_one] at hdb
      obtain ⟨tab, htab, rfl⟩ := Option.map_eq_some_iff.mp hdb
      obtain ⟨hmem, hrid⟩ := Table.find?_mem hfound
      rw [hw', show ((machine env).perform _ a' w₂).2 = _ from hcw, hend']
      refine (Table.find?_key tab ?_).mpr ⟨?_, hrid⟩
      · intro a b ha hb
        simp only [beq_iff_eq] at ha hb
        simp [subscriptionSchema, ha, hb]
      · refine (Table.mem_update? htab).mpr ⟨loaded, hmem, ?_⟩
        rw [if_pos (by simp)]
        exact (webhookPatch_loaded loaded newStatus newEnd).symm

/-- A sequence of deliveries leaves its last status and its last period
end. -/
theorem delivered_row {ns : List Notice} (h : Delivered env rid w ns w')
    {row : Subscription} (hrow : rowOf w rid = some row) :
    rowOf w' rid = some { row with
      status := (lastStatus ns).getD row.status
      currentPeriodEnd := (lastEnd ns).or row.currentPeriodEnd } := by
  induction h generalizing row with
  | nil => exact hrow
  | @cons w w₁ w' n ns newStatus e tr hst he hran hrest ih =>
      have hfirst := handled_row hst he hran
      rw [hrow] at hfirst
      rw [ih hfirst]
      unfold lastStatus lastEnd
      rw [lastSome_cons, lastSome_cons,
        show n.newStatus = some newStatus from hst]
      cases lastSome Notice.newStatus ns <;>
        cases lastSome Notice.newEnd ns <;> rfl

-- ================================================================ the result

/-- Each of two sequences of the same events leaves the status of its last
event and the period end of its last charge that carries one; so they
agree on the status exactly where their last events set the same status,
and on the period end exactly where their last charges do. -/
theorem deliveries_agree {w₁ w₂ : World} {ns₁ ns₂ : List Notice}
    (h₁ : Delivered env rid w ns₁ w₁) (h₂ : Delivered env rid w ns₂ w₂)
    (hsame : ∀ n, n ∈ ns₁ ↔ n ∈ ns₂) {row : Subscription}
    (hrow : rowOf w rid = some row) :
    ∃ row₁ row₂, rowOf w₁ rid = some row₁ ∧ rowOf w₂ rid = some row₂
      ∧ row₁.status = (lastStatus ns₁).getD row.status
      ∧ row₁.currentPeriodEnd = (lastEnd ns₁).or row.currentPeriodEnd
      ∧ (row₁.status = row₂.status ↔ lastStatus ns₁ = lastStatus ns₂)
      ∧ (row₁.currentPeriodEnd = row₂.currentPeriodEnd
        ↔ lastEnd ns₁ = lastEnd ns₂) := by
  have htogether : ∀ {β : Type} (f : Notice → Option β),
      (lastSome f ns₁).isSome = (lastSome f ns₂).isSome := by
    intro β f
    rw [Bool.eq_iff_iff, lastSome_isSome, lastSome_isSome]
    simp only [hsame]
  refine ⟨_, _, delivered_row h₁ hrow, delivered_row h₂ hrow, rfl, rfl, ?_, ?_⟩
  · have hs := htogether Notice.newStatus
    unfold lastStatus
    cases h₁' : lastSome Notice.newStatus ns₁ <;>
      cases h₂' : lastSome Notice.newStatus ns₂ <;> simp [h₁', h₂'] at hs ⊢
  · have he := htogether Notice.newEnd
    unfold lastEnd
    cases h₁' : lastSome Notice.newEnd ns₁ <;>
      cases h₂' : lastSome Notice.newEnd ns₂ <;> simp [h₁', h₂'] at he ⊢

/-- A delivery where nothing fails. -/
theorem Delivered.run {w w' : World} {n : Notice} {ns : List Notice}
    {e : SubscriptionEntity}
    (hst : (statusEvent n.eventType).isSome = true)
    (he : n.payload.entity = .ok (rid, e))
    (hadm : (handleWebhookEvent n.eventType n.payload).Admitted
      sampleOracle 0 w)
    (hok : ((handleWebhookEvent n.eventType n.payload).run
      sampleOracle 0 w).1 = some (.ok ()))
    (hrest : Delivered sampleEnv rid ((handleWebhookEvent n.eventType
      n.payload).run sampleOracle 0 w).2 ns w') :
    Delivered sampleEnv rid w (n :: ns) w' := by
  obtain ⟨tr, hran⟩ := Ran.of_run hadm
  rw [hok] at hran
  obtain ⟨newStatus, hst⟩ := Option.isSome_iff_exists.mp hst
  exact .cons hst he hran hrest

/-- A charge up to so many seconds, and a cancellation, of one purchase. -/
def chargeNotice (seconds : Int) : Notice where
  eventType := "subscription.charged"
  payload.subscription :=
    some (some { id := some "sub_1", currentEnd := some seconds })

def cancelNotice : Notice where
  eventType := "subscription.cancelled"
  payload.subscription := some (some { id := some "sub_1" })

/-- A tenant with a purchase. -/
def purchased : World := (reached samplePurchase (by decide +kernel)).world

/-- What two deliveries leave where nothing fails. -/
def afterNotices (m n : Notice) : World :=
  ((handleWebhookEvent n.eventType n.payload).run sampleOracle 0
    ((handleWebhookEvent m.eventType m.payload).run sampleOracle 0
      purchased).2).2

theorem charge_then_cancel : Delivered sampleEnv "sub_1" purchased
    [chargeNotice 86400, cancelNotice]
    (afterNotices (chargeNotice 86400) cancelNotice) := by
  refine .run rfl rfl ?_ rfl
    (.run rfl rfl ?_ rfl .nil) <;> decide +kernel

theorem cancel_then_charge : Delivered sampleEnv "sub_1" purchased
    [cancelNotice, chargeNotice 86400]
    (afterNotices cancelNotice (chargeNotice 86400)) := by
  refine .run rfl rfl ?_ rfl
    (.run rfl rfl ?_ rfl .nil) <;> decide +kernel

theorem charges_back : Delivered sampleEnv "sub_1" purchased
    [chargeNotice 172800, chargeNotice 86400]
    (afterNotices (chargeNotice 172800) (chargeNotice 86400)) := by
  refine .run rfl rfl ?_ rfl
    (.run rfl rfl ?_ rfl .nil) <;> decide +kernel

/-- The sequences above have such rows. -/
theorem deliveries_agree_sample : ∃ row₁ row₂,
    rowOf (afterNotices (chargeNotice 86400) cancelNotice) "sub_1" = some row₁
      ∧ rowOf (afterNotices cancelNotice (chargeNotice 86400)) "sub_1"
        = some row₂
      ∧ row₁.status = "cancelled"
      ∧ row₁.currentPeriodEnd = row₂.currentPeriodEnd := by
  obtain ⟨row, hrow⟩ : ∃ row, rowOf purchased "sub_1" = some row :=
    Option.isSome_iff_exists.mp (by decide +kernel)
  obtain ⟨row₁, row₂, hr₁, hr₂, hst, -, -, hend⟩ := deliveries_agree
    charge_then_cancel cancel_then_charge (fun n => by
      simp only [List.mem_cons, List.not_mem_nil, or_false]
      exact or_comm) hrow
  exact ⟨row₁, row₂, hr₁, hr₂, hst, hend.mpr rfl⟩

/-- The order of deliveries does matter: the same two events leave the
subscription cancelled in one order and active in the other, and a late
charge moves the period end back. -/
theorem order_matters :
    ((rowOf (afterNotices (chargeNotice 86400) cancelNotice) "sub_1").map
        Subscription.status = some "cancelled"
      ∧ (rowOf (afterNotices cancelNotice (chargeNotice 86400)) "sub_1").map
        Subscription.status = some "active"
      ∧ Delivered sampleEnv "sub_1" purchased
          [chargeNotice 86400, cancelNotice]
          (afterNotices (chargeNotice 86400) cancelNotice)
      ∧ Delivered sampleEnv "sub_1" purchased
          [cancelNotice, chargeNotice 86400]
          (afterNotices cancelNotice (chargeNotice 86400)))
    ∧ Delivered sampleEnv "sub_1" purchased
        [chargeNotice 172800, chargeNotice 86400]
        (afterNotices (chargeNotice 172800) (chargeNotice 86400))
      ∧ (rowOf (afterNotices (chargeNotice 172800) (chargeNotice 86400))
          "sub_1").bind Subscription.currentPeriodEnd
        = Py.DateTime.fromTimestamp 86400 := by
  refine ⟨⟨?_, ?_, charge_then_cancel, cancel_then_charge⟩, charges_back, ?_⟩
  · decide +kernel
  · decide +kernel
  · decide +kernel

end ResumeScreening.Subscriptions
