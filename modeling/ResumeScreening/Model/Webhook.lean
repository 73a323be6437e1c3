/-
The webhook endpoint from the raw request on: the route of
app/routers/billing.py and the signature check of
app/services/billing_service.py.

The body is bytes, so the handler sees whatever JSON they hold, not only
the shape Razorpay documents; on that shape it is the `handleWebhookEvent`
of Model/Billing.lean (`handleWebhook_documented`).
-/
import ResumeScreening.Model.Accounts
import ResumeScreening.Py.Json

namespace ResumeScreening

open Py (Json DateTime codes text?)

/-- The Razorpay SDK's digest, the hex HMAC-SHA256 of a text under a
secret, and `datetime.fromtimestamp` of a floating-point literal. -/
structure WebhookLibs where
  hmacSha256Hex : (secret text : String) → String
  floatTimestamp : List Nat → Except Exn DateTime

def verifyWebhookSignature (settings : Accounts.Settings) (libs : WebhookLibs)
    (rawBody : List UInt8) (signature : String) : Except Exn Bool :=
  match Py.decodeUtf8 rawBody with
  | none => .error (.valueError "UnicodeDecodeError")
  | some text => .ok (decide
      (signature = libs.hmacSha256Hex settings.razorpayWebhookSecret text))

/-- `value.get(key)`, of an object's fields: the last of equal keys
counts. -/
def lookupKey (fields : List (List Nat × Json)) (key : String) : Option Json :=
  fields.reverse.lookup (codes key)

/-- `value[key]`. -/
def subscript (value : Json) (key : String) : Except Exn Json :=
  match value with
  | .obj fields =>
      match lookupKey fields key with
      | some v => .ok v
      | none => .error (.keyError key)
  | _ => .error (.external "TypeError")

/-- `_STATUS_EVENTS.get(event_type)` of any JSON value: lists and dicts
cannot be looked up. -/
def eventStatus : Json → Except Exn (Option String)
  | .str s => .ok ((text? s).bind statusEvent)
  | .arr _ => .error (.external "TypeError")
  | .obj _ => .error (.external "TypeError")
  | _ => .ok none

/-- The subscription under an identifier of any JSON type. `NULL` equals
nothing, and Postgres compares no other type with a text. -/
def selectByRazorpayId : Json → Py (Option Subscription)
  | .str s =>
      match text? s with
      | some rid => call (.selectSubscriptionByRazorpayId rid)
      | none => raise (.valueError "UnicodeEncodeError")
  | .null => return none
  | _ => raise (.external "ProgrammingError")

/-- The period end assigned on an event, from an entity of any shape. -/
def chargedEnd (libs : WebhookLibs) (event entity : Json) :
    Except Exn (Option DateTime) :=
  match event, entity with
  | .str s, .obj fields =>
      if s = codes "subscription.charged" then
        match lookupKey fields "current_end" with
        | none => .ok none
        | some .null => .ok none
        | some (.int n) => (fromTimestamp n).map some
        | some (.bool b) => (fromTimestamp (if b then 1 else 0)).map some
        | some (.float literal) => (libs.floatTimestamp literal).map some
        | some _ => .error (.external "TypeError")
      else .ok none
  | _, _ => .ok none

/-- `handle_webhook_event`, on whatever the body held. -/
def handleWebhook (libs : WebhookLibs) (event payload : Json) : Py Unit := do
  match ← Effect.Prog.ofExcept (eventStatus event) with
  | none => return ()
  | some newStatus =>
      let subscription ←
        Effect.Prog.ofExcept (subscript payload "subscription")
      let entity ← Effect.Prog.ofExcept (subscript subscription "entity")
      let razorpayId ← Effect.Prog.ofExcept (subscript entity "id")
      match ← selectByRazorpayId razorpayId with
      | none => return ()
      | some loaded =>
          let newEnd ← Effect.Prog.ofExcept (chargedEnd libs event entity)
          call (.commit [.updateSubscription loaded.id
            (webhookPatch loaded newStatus newEnd)])

/-- `POST /billing/webhook`: the raw body and the X-Razorpay-Signature
header, if there is one. -/
def webhook (settings : Accounts.Settings) (libs : WebhookLibs)
    (rawBody : List UInt8) (signature : Option String) : Py Unit := do
  let verified ← Effect.Prog.ofExcept
    (verifyWebhookSignature settings libs rawBody (signature.getD ""))
  if verified then
    match Py.loads rawBody with
    | none => raise (.valueError "JSONDecodeError")
    | some payload =>
        let event ← Effect.Prog.ofExcept (subscript payload "event")
        handleWebhook libs event payload
  else raise (.http 400 "Invalid webhook signature.")

-- ====================================================== the documented shape

/-- The entity as JSON. -/
def SubscriptionEntity.json (e : SubscriptionEntity) : Json :=
  .obj ((e.id.toList.map fun id => (codes "id", .str (codes id)))
    ++ e.currentEnd.toList.map fun n => (codes "current_end", .int n))

/-- An event of the documented shape as JSON. -/
def WebhookPayload.json (eventType : String) (payload : WebhookPayload) : Json :=
  .obj ((codes "event", .str (codes eventType))
    :: payload.subscription.toList.map fun s => (codes "subscription",
      .obj (s.toList.map fun e => (codes "entity", e.json))))

theorem subscript_one (key : String) (v : Json) :
    subscript (.obj [(codes key, v)]) key = .ok v := by
  simp [subscript, lookupKey]

/-- The later of two different keys hides nothing. -/
theorem subscript_first {key other : String} (h : codes key ≠ codes other)
    (v v' : Json) :
    subscript (.obj [(codes key, v), (codes other, v')]) key = .ok v := by
  have hne : (codes key == codes other) = false := by simpa using h
  simp [subscript, lookupKey, List.lookup_cons, hne]

theorem subscript_last {key other : String} (v v' : Json) :
    subscript (.obj [(codes other, v'), (codes key, v)]) key = .ok v := by
  simp [subscript, lookupKey]

theorem subscript_none {key other : String} (h : codes key ≠ codes other)
    (v : Json) :
    subscript (.obj [(codes other, v)]) key = .error (.keyError key) := by
  have hne : (codes key == codes other) = false := by simpa using h
  simp [subscript, lookupKey, List.lookup_cons, hne]

theorem subscript_event (eventType : String) (payload : WebhookPayload) :
    subscript (payload.json eventType) "event"
      = .ok (.str (codes eventType)) := by
  obtain ⟨subscription⟩ := payload
  cases subscription with
  | none => exact subscript_one _ _
  | some s => exact subscript_first (by decide) _ _

theorem eventStatus_str (eventType : String) :
    eventStatus (.str (codes eventType)) = .ok (statusEvent eventType) := by
  simp [eventStatus, Py.text?_codes]

theorem codes_injective {s t : String} (h : codes s = codes t) : s = t := by
  have hs := Py.text?_codes s
  rw [h, Py.text?_codes] at hs
  exact (Option.some.inj hs).symm

theorem chargedEnd_json (libs : WebhookLibs) (eventType : String)
    (e : SubscriptionEntity) :
    chargedEnd libs (.str (codes eventType)) e.json = periodEnd eventType e := by
  have hne : (codes "current_end" == codes "id") = false := by decide
  have hiff : codes eventType = codes "subscription.charged"
      ↔ eventType = "subscription.charged" :=
    ⟨codes_injective, fun h => by rw [h]⟩
  obtain ⟨id, currentEnd⟩ := e
  unfold chargedEnd SubscriptionEntity.json periodEnd
  simp only [hiff]
  split
  · cases id <;> cases currentEnd <;> simp [lookupKey, List.lookup_cons, hne]
  · rfl

theorem subscript_id (e : SubscriptionEntity) :
    subscript e.json "id" = match e.id with
      | none => .error (.keyError "id")
      | some id => .ok (.str (codes id)) := by
  obtain ⟨id, currentEnd⟩ := e
  cases id with
  | none =>
      cases currentEnd with
      | none => rfl
      | some n => exact subscript_none (by decide) _
  | some id =>
      cases currentEnd with
      | none => exact subscript_one _ _
      | some n => exact subscript_first (by decide) _ _

/-- On the documented shape the handler is `handleWebhookEvent`. -/
theorem handleWebhook_documented (libs : WebhookLibs) (eventType : String)
    (payload : WebhookPayload) :
    handleWebhook libs (.str (codes eventType)) (payload.json eventType)
      = handleWebhookEvent eventType payload := by
  unfold handleWebhook handleWebhookEvent
  rw [eventStatus_str]
  cases statusEvent eventType with
  | none => rfl
  | some newStatus =>
      obtain ⟨subscription⟩ := payload
      cases subscription with
      | none =>
          have hsub : subscript (WebhookPayload.json eventType ⟨none⟩)
              "subscription" = .error (.keyError "subscription") :=
            subscript_none (by decide) _
          simp only [hsub]
          rfl
      | some entity =>
          have hsub : subscript (WebhookPayload.json eventType ⟨some entity⟩)
              "subscription" = .ok (.obj (entity.toList.map fun e =>
                (codes "entity", e.json))) := subscript_last _ _
          simp only [hsub]
          cases entity with
          | none => rfl
          | some e =>
              have hentity : subscript (.obj [(codes "entity", e.json)]) "entity"
                  = .ok e.json := subscript_one _ _
              have hid := subscript_id e
              cases hname : e.id with
              | none =>
                  rw [hname] at hid
                  simp only [Option.toList_some, List.map_cons, List.map_nil,
                    Effect.Prog.ofExcept, Effect.Prog.bind_eq,
                    Effect.Prog.ret_bind, hentity, hid,
                    WebhookPayload.entity, hname]
                  rfl
              | some rid =>
                  rw [hname] at hid
                  simp only [Option.toList_some, List.map_cons, List.map_nil,
                    Effect.Prog.ofExcept, Effect.Prog.bind_eq,
                    Effect.Prog.ret_bind, hentity, hid, WebhookPayload.entity,
                    hname, selectByRazorpayId, Py.text?_codes, chargedEnd_json]
                  congr 1
                  funext found
                  cases found <;> rfl

/-- A signed body of the documented shape reaches `handleWebhookEvent`. -/
theorem webhook_documented {settings : Accounts.Settings} {libs : WebhookLibs}
    {rawBody : List UInt8} {signature : Option String} {text eventType : String}
    {payload : WebhookPayload} (htext : Py.decodeUtf8 rawBody = some text)
    (hsigned : signature.getD ""
      = libs.hmacSha256Hex settings.razorpayWebhookSecret text)
    (hloads : Py.loads rawBody = some (payload.json eventType)) :
    webhook settings libs rawBody signature
      = handleWebhookEvent eventType payload := by
  have hverified : verifyWebhookSignature settings libs rawBody
      (signature.getD "") = .ok true := by
    simp [verifyWebhookSignature, htext, hsigned]
  unfold webhook
  simp only [hverified, Effect.Prog.ofExcept, Effect.Prog.bind_eq,
    Effect.Prog.ret_bind, if_true, hloads, subscript_event,
    handleWebhook_documented]

end ResumeScreening
