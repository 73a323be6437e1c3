/-
The credential gates with nothing configured.

`FailsClosed` is the contract of the five gates: an empty JWT secret, an
empty admin credential, an empty Google client id, an empty key table and
an empty webhook secret each shut their gate to every request. Four of
them hold as they stand. The webhook's does not: the endpoint verifies
under whatever secret there is, and anyone can sign under the empty one.
`forge` builds the request, and `gates_fail_closed_iff` says that it
works against every stored subscription, and nothing else does.
-/
import ResumeScreening.Model.Auth
import ResumeScreening.Model.Webhook
import ResumeScreening.Subscriptions.Deliveries

namespace ResumeScreening.Gates

open Effect Pipeline Relational
open Accounts (Settings HTTPBasicCredentials requireAdmin requireTenant googleAuth)
open Subscriptions (rowOf handled_row)

variable {env : Accounts.Env} {libs : WebhookLibs} {app : ResumeScreening.Env}
  {stores : Accounts.World} {w w' : World} {α : Type}

-- ================================================================ contract

/-- However it goes, the program returns nothing and leaves the stores as
they are. -/
def Shut (p : Accounts.Py α) (stores : Accounts.World) : Prop :=
  ∀ tr r stores', Ran Accounts.machine p stores tr r stores' →
    stores' = stores ∧ ∀ v, r ≠ some (.ok v)

/-- Every gate without a configured credential is shut to every request. -/
structure FailsClosed (env : Accounts.Env) (libs : WebhookLibs)
    (app : ResumeScreening.Env) (stores : Accounts.World) (w : World) :
    Prop where
  bearer : env.jwtSecret = "" → ∀ authorization xApiKey,
    Shut (requireTenant env (some authorization) xApiKey) stores
  admin : env.adminUsername = "" ∨ env.adminPassword = "" →
    ∀ credentials, requireAdmin env.toSettings credentials ≠ .ok ()
  google : env.googleOauthClientId = "" → ∀ idToken,
    Shut (googleAuth env idToken) stores
  apiKey : stores.db.apiKeys.rows = [] → ∀ xApiKey,
    Shut (requireTenant env none xApiKey) stores
  webhook : env.razorpayWebhookSecret = "" → ∀ rawBody signature tr r w',
    Ran (machine app) (webhook env.toSettings libs rawBody signature) w tr r
      w' → w'.db.subscriptions.rows = w.db.subscriptions.rows

-- ============================================================ the shut gates

theorem shut_raise (x : Accounts.Exn) :
    Shut (Accounts.raise x : Accounts.Py α) stores := by
  intro tr r stores' h
  obtain ⟨-, rfl, rfl⟩ := Ran.raise_iff.mp h
  exact ⟨rfl, nofun⟩

/-- A token is not looked at. -/
theorem bearer_shut (h : env.jwtSecret = "") (authorization : String)
    (xApiKey : Option String) :
    Shut (requireTenant env (some authorization) xApiKey) stores := by
  unfold requireTenant Accounts.decodeAccessToken
  simp only [h]
  split
  · exact shut_raise _
  · exact shut_raise _

theorem admin_shut {settings : Settings}
    (h : settings.adminUsername = "" ∨ settings.adminPassword = "")
    (credentials : HTTPBasicCredentials) :
    requireAdmin settings credentials ≠ .ok () := by
  unfold requireAdmin
  rw [if_pos h]
  nofun

/-- Google is not asked. -/
theorem google_shut (h : env.googleOauthClientId = "") (idToken : String) :
    Shut (googleAuth env idToken) stores := by
  unfold googleAuth Accounts.registerOrLoginWithGoogle
  rw [if_pos h]
  exact shut_raise _

/-- A lookup in an empty table finds nothing. -/
theorem apiKey_shut (h : stores.db.apiKeys.rows = []) (xApiKey : Option String) :
    Shut (requireTenant env none xApiKey) stores := by
  show Shut (Accounts.requireApiKey env xApiKey) stores
  unfold Accounts.requireApiKey
  cases Py.optTruthy xApiKey with
  | none => exact shut_raise _
  | some rawKey =>
      intro tr r stores' hrun
      rcases hrun.bind with
        ⟨found, tr₁, stores₁, tr₂, -, hfind, hrest⟩ | ⟨x, rfl, hfind⟩
          | ⟨rfl, hfind⟩
      · obtain ⟨a, -, -, hr, rfl⟩ := hfind.perform_ok
        cases a with
        | error msg => cases hr
        | ok u =>
            have hnone : found = none := by
              cases hr
              simp [Table.find?, h]
            subst hnone
            exact shut_raise _ _ _ _ hrest
      · rcases hfind.perform with ⟨-, hr, -⟩ | ⟨a, -, -, -, rfl⟩
        · cases hr
        · exact ⟨rfl, fun v hv => by cases hv⟩
      · rcases hfind.perform with ⟨-, -, rfl⟩ | ⟨a, -, -, hr, -⟩
        · exact ⟨rfl, fun v hv => by cases hv⟩
        · cases hr

-- ================================================ the webhook without rows

/-- The actions of the endpoint: lookups, and updates of subscriptions. -/
def Updates : Act → Prop
  | .selectSubscriptionByRazorpayId _ => True
  | .commit pending => ∃ id set, pending = [.updateSubscription id set]
  | _ => False

theorem uses_selectByRazorpayId (id : Py.Json) :
    (selectByRazorpayId id).Uses Updates := by
  unfold selectByRazorpayId
  split
  · split
    · exact (Prog.uses_perform _ _).mpr trivial
    · trivial
  · trivial
  · trivial

theorem uses_handleWebhook (event payload : Py.Json) :
    (handleWebhook libs event payload).Uses Updates := by
  unfold handleWebhook
  refine Prog.uses_bind (Prog.uses_ofExcept _ _) fun status => ?_
  cases status with
  | none => trivial
  | some newStatus =>
      refine Prog.uses_bind (Prog.uses_ofExcept _ _) fun _ => ?_
      refine Prog.uses_bind (Prog.uses_ofExcept _ _) fun _ => ?_
      refine Prog.uses_bind (Prog.uses_ofExcept _ _) fun id => ?_
      refine Prog.uses_bind (uses_selectByRazorpayId id) fun found => ?_
      cases found with
      | none => trivial
      | some loaded =>
          refine Prog.uses_bind (Prog.uses_ofExcept _ _) fun _ => ?_
          exact (Prog.uses_perform _ _).mpr ⟨_, _, rfl⟩

theorem uses_webhook (settings : Settings) (rawBody : List UInt8)
    (signature : Option String) :
    (webhook settings libs rawBody signature).Uses Updates := by
  unfold webhook
  refine Prog.uses_bind (Prog.uses_ofExcept _ _) fun verified => ?_
  split
  · split
    · trivial
    · refine Prog.uses_bind (Prog.uses_ofExcept _ _) fun event => ?_
      exact uses_handleWebhook event _
  · trivial

theorem updates_keep_empty {e : Act} {a : e.Ans} (he : Updates e)
    (hw : w.db.subscriptions.rows = []) :
    (perform app e a w).2.db.subscriptions.rows = [] := by
  cases e with
  | selectSubscriptionByRazorpayId rid =>
      show (w.read a _).2.db.subscriptions.rows = []
      rw [read_snd]
      exact hw
  | commit pending =>
      obtain ⟨id, set, rfl⟩ := he
      show (w.commit _ a).2.db.subscriptions.rows = []
      rcases commit_cases w [.updateSubscription id set] a with
        ⟨hsame, -⟩ | ⟨db, hdb, hafter⟩
      · rw [hsame]
        exact hw
      · rw [writeAll_one] at hdb
        obtain ⟨tab, htab, rfl⟩ := Option.map_eq_some_iff.mp hdb
        rw [hafter]
        show tab.rows = []
        rw [Table.update?_rows htab, hw]
        rfl
  | _ => exact he.elim

/-- Where no subscription is stored, no webhook stores one. -/
theorem webhook_without_rows {settings : Settings} {rawBody : List UInt8}
    {signature : Option String} {tr : List (Event sig)}
    {r : Option (Except Exn Unit)} (hw : w.db.subscriptions.rows = [])
    (h : Ran (machine app) (webhook settings libs rawBody signature) w tr r w') :
    w'.db.subscriptions.rows = [] :=
  h.keeps (I := fun (u : World) => u.db.subscriptions.rows = [])
    (uses_webhook settings rawBody signature)
    (fun _ _ _ he hrows => updates_keep_empty he hrows) hw

-- ============================================================== the forgery

/-- An event about a Razorpay subscription, in the documented shape. -/
def notice (rid : String) : WebhookPayload where
  subscription := some (some { id := some rid })

/-- Its text. -/
def forgedText (eventType rid : String) : String :=
  String.ofList (Py.printObject [("event", Py.quoted eventType),
    ("subscription", Py.printObject
      [("entity", Py.printObject [("id", Py.quoted rid)])])])

def forgedBody (eventType rid : String) : List UInt8 :=
  Py.utf8 (forgedText eventType rid)

/-- The signature of the text under the empty secret. -/
def forgedSignature (libs : WebhookLibs) (eventType rid : String) : String :=
  libs.hmacSha256Hex "" (forgedText eventType rid)

theorem loads_forgedBody (eventType rid : String) :
    Py.loads (forgedBody eventType rid)
      = some ((notice rid).json eventType) := by
  have hentity := Py.reads_member
    (Py.reads_member (Py.reads_quoted rid) "id") "entity"
  have hevent := (Py.reads_quoted eventType).mono (by decide : 1 ≤ 1 + 2 + 2)
  refine Py.loads_object (by simp)
    (.cons ⟨rfl, hevent⟩ (.cons ⟨rfl, hentity⟩ .nil)) ?_
  simp only [Py.printObject, Py.printMembers, Py.quoted, List.length_cons,
    List.length_append, List.length_nil]
  omega

/-- With the secret unset, the forgery reaches the handler. -/
theorem webhook_forged {settings : Settings}
    (h : settings.razorpayWebhookSecret = "") (eventType rid : String) :
    webhook settings libs (forgedBody eventType rid)
        (some (forgedSignature libs eventType rid))
      = handleWebhookEvent eventType (notice rid) := by
  apply webhook_documented (Py.decodeUtf8_utf8 _) _ (loads_forgedBody _ _)
  rw [h]
  rfl

/-- An update of a stored subscription's status meets the constraints. -/
theorem status_writes {row : Subscription} (hrow : row ∈ w.db.subscriptions.rows)
    {newStatus : String} (hfits : fits 20 newStatus = true) :
    ∃ db, w.db.writeAll [.updateSubscription row.id
      (webhookPatch row newStatus none)] = some db := by
  have hupdate : ∃ tab, w.db.subscriptions.update? (fun s => s.id == row.id)
      (webhookPatch row newStatus none).apply = some tab := by
    apply Table.update?_isSome
    · intro s hs hid
      rw [beq_iff_eq] at hid
      obtain rfl := subscription_unique hs hrow hid
      have hvalid := w.db.subscriptions.valid s hs
      rw [Subscriptions.webhookPatch_loaded]
      simp only [subscriptionSchema, Bool.and_eq_true] at hvalid ⊢
      exact ⟨hfits, hvalid.2⟩
    · intro a b
      rfl
  obtain ⟨tab, htab⟩ := hupdate
  rw [writeAll_one]
  exact ⟨{ w.db with subscriptions := tab }, by rw [Db.write, htab]; rfl⟩

theorem rowOf_stored {row : Subscription} (hrow : row ∈ w.db.subscriptions.rows) :
    rowOf w row.razorpaySubscriptionId = some row := by
  refine (Table.find?_key _ ?_).mpr ⟨hrow, by simp⟩
  intro a b ha hb
  rw [beq_iff_eq] at ha hb
  simp [subscriptionSchema, ha, hb]

/-- Where nothing fails, the handler runs an event about a stored
subscription to its end. -/
theorem notice_handled (app : ResumeScreening.Env) {row : Subscription}
    (hrow : row ∈ w.db.subscriptions.rows) {eventType newStatus : String}
    (hstatus : statusEvent eventType = some newStatus)
    (hfits : fits 20 newStatus = true)
    (hcharge : eventType ≠ "subscription.charged") :
    ∃ tr w', Ran (machine app) (handleWebhookEvent eventType
      (notice row.razorpaySubscriptionId)) w tr (some (.ok ())) w' := by
  obtain ⟨db, hdb⟩ := status_writes hrow hfits
  have hselect := Ran.performed (M := machine app) (w := w)
    (e := .selectSubscriptionByRazorpayId row.razorpaySubscriptionId)
    (a := .ok ()) rfl (congrArg Except.ok (rowOf_stored hrow))
  have hcommit : ((machine app).perform (.commit [.updateSubscription row.id
      (webhookPatch row newStatus none)]) Fate.ok w).1 = .ok () := by
    show (w.commit _ _).1 = _
    simp only [World.commit, hdb, World.write]
  have hend : periodEnd eventType { id := some row.razorpaySubscriptionId }
      = .ok none := if_neg hcharge
  have hrest : ∃ tr w', Ran (machine app)
      (Prog.bind (Prog.ofExcept
        (periodEnd eventType { id := some row.razorpaySubscriptionId }))
        fun newEnd => call (.commit [.updateSubscription row.id
          (webhookPatch row newStatus newEnd)])) w tr (some (.ok ())) w' := by
    rw [hend]
    exact ⟨_, _, Ran.performed rfl hcommit⟩
  obtain ⟨tr, w', hrest⟩ := hrest
  unfold handleWebhookEvent
  rw [hstatus]
  exact ⟨_, w', hselect.seq hrest⟩

/-- An event that would change the subscription's status. -/
def otherEvent (status : String) : String :=
  if status = "active" then "subscription.cancelled"
  else "subscription.activated"

/-- With the secret unset, the forgery changes any stored subscription. -/
theorem forge (libs : WebhookLibs) (app : ResumeScreening.Env)
    (settings : Settings) (h : settings.razorpayWebhookSecret = "")
    {row : Subscription} (hrow : row ∈ w.db.subscriptions.rows) :
    ∃ tr w', Ran (machine app)
        (webhook settings libs
          (forgedBody (otherEvent row.status) row.razorpaySubscriptionId)
          (some (forgedSignature libs (otherEvent row.status)
            row.razorpaySubscriptionId)))
        w tr (some (.ok ())) w'
      ∧ ∃ row' ∈ w'.db.subscriptions.rows,
        row'.razorpaySubscriptionId = row.razorpaySubscriptionId
          ∧ row'.status ≠ row.status := by
  obtain ⟨newStatus, hstatus, hfits, hne⟩ : ∃ newStatus,
      statusEvent (otherEvent row.status) = some newStatus
        ∧ fits 20 newStatus = true ∧ newStatus ≠ row.status := by
    unfold otherEvent
    split
    next hactive =>
      refine ⟨"cancelled", by decide, by decide, ?_⟩
      rw [hactive]
      decide
    next hinactive =>
      exact ⟨"active", by decide, by decide, Ne.symm hinactive⟩
  have hcharge : otherEvent row.status ≠ "subscription.charged" := by
    unfold otherEvent
    split <;> decide
  obtain ⟨tr, w', hran⟩ := notice_handled app hrow hstatus hfits hcharge
  rw [webhook_forged h]
  have hafter := handled_row (n := ⟨otherEvent row.status,
    notice row.razorpaySubscriptionId⟩) hstatus rfl hran
  rw [rowOf_stored hrow, Option.map_some] at hafter
  have hmem := (Table.find?_mem hafter).1
  exact ⟨tr, w', hran, _, hmem, rfl, hne⟩

-- =============================================================== exactness

/-- The gates fail closed exactly where the webhook secret is set or no
subscription is stored. -/
theorem gates_fail_closed_iff (env : Accounts.Env) (libs : WebhookLibs)
    (app : ResumeScreening.Env) (stores : Accounts.World) (w : World) :
    FailsClosed env libs app stores w
      ↔ env.razorpayWebhookSecret ≠ "" ∨ w.db.subscriptions.rows = [] := by
  constructor
  · intro h
    by_contra hopen
    rw [not_or, not_not] at hopen
    obtain ⟨hunset, hrows⟩ := hopen
    obtain ⟨row, hrow⟩ := List.exists_mem_of_ne_nil _ hrows
    obtain ⟨tr, w', hran, row', hrow', hid, hstatus⟩ :=
      forge libs app env.toSettings hunset hrow
    rw [h.webhook hunset _ _ _ _ _ hran] at hrow'
    rw [razorpay_unique hrow' hrow hid] at hstatus
    exact hstatus rfl
  · intro h
    refine ⟨bearer_shut, admin_shut, google_shut, apiKey_shut, ?_⟩
    intro hunset rawBody signature tr r w' hran
    rcases h with hset | hrows
    · exact absurd hunset hset
    · rw [hrows]
      exact webhook_without_rows hrows hran

/-- Nothing configured. -/
def unconfigured : Accounts.Env where
  jwtExpiryMinutes_pos := Accounts.dayMinutes_pos
  sha256Hex _ := ""
  jwtDecode _ _ _ := .error (.invalidToken "Not enough segments")
  jwtEncode _ _ := .error (.other "InvalidKeyError")
  hashpw _ _ := .error (.valueError "Invalid salt")
  checkpw _ _ := .error (.valueError "Invalid salt")

/-- The one digest the forgery below needs. -/
def forgeryLibs : WebhookLibs where
  hmacSha256Hex secret text :=
    if secret = "" ∧ text = forgedText "subscription.activated" "sub_1" then
      "7abfbe768dd84d0a6bd49825f6aea0007db1a6caf6bc5127945b20e8c5ed9147"
    else ""
  floatTimestamp _ := .error (.external "OverflowError")

/-- A subscription that was never paid for, activated by a signature
under the empty secret. -/
theorem webhook_open :
    (∃ row ∈ Subscriptions.purchased.db.subscriptions.rows,
      row.razorpaySubscriptionId = "sub_1" ∧ row.status = "created")
    ∧ (∃ tr w', Ran (machine ResumeScreening.sampleEnv)
        (webhook unconfigured.toSettings forgeryLibs
          (forgedBody "subscription.activated" "sub_1")
          (some
            "7abfbe768dd84d0a6bd49825f6aea0007db1a6caf6bc5127945b20e8c5ed9147"))
        Subscriptions.purchased tr (some (.ok ())) w'
      ∧ ∃ row' ∈ w'.db.subscriptions.rows,
        row'.razorpaySubscriptionId = "sub_1" ∧ row'.status ≠ "created")
    ∧ ¬ FailsClosed unconfigured forgeryLibs ResumeScreening.sampleEnv
        .empty Subscriptions.purchased := by
  have hlook : (rowOf Subscriptions.purchased "sub_1").map
      (fun row => (row.razorpaySubscriptionId, row.status))
      = some ("sub_1", "created") := by decide +kernel
  obtain ⟨row, hfound, heq⟩ := Option.map_eq_some_iff.mp hlook
  obtain ⟨hid, hstatus⟩ := Prod.mk.inj heq
  have hrow := (Table.find?_mem hfound).1
  have hrun := forge forgeryLibs ResumeScreening.sampleEnv
    unconfigured.toSettings rfl hrow
  have hevent : otherEvent "created" = "subscription.activated" := by decide
  have hsigned : forgedSignature forgeryLibs "subscription.activated" "sub_1"
      = "7abfbe768dd84d0a6bd49825f6aea0007db1a6caf6bc5127945b20e8c5ed9147" := by
    simp [forgedSignature, forgeryLibs]
  rw [hid, hstatus, hevent, hsigned] at hrun
  refine ⟨⟨row, hrow, hid, hstatus⟩, hrun, fun hclosed => ?_⟩
  obtain ⟨tr, w', hran, row', hrow', hid', hne⟩ := hrun
  rw [hclosed.webhook rfl _ _ _ _ _ hran] at hrow'
  rw [razorpay_unique hrow' hrow (hid'.trans hid.symm)] at hne
  exact hne hstatus

end ResumeScreening.Gates
