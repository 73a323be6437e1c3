/-
A webhook's body, of any JSON shape.

`readEvent` picks out of a body what the handler reads of it where it
may come to write. Wherever it finds that, the endpoint is the
`handleWebhookEvent` of Model/Billing.lean on the event found, whatever
else the body holds; wherever it does not, the endpoint writes nothing.
The one body it does not describe charges a subscription to a fraction
of a second (`Fractional`), which the documented integers do not.
-/
import ResumeScreening.Lib.Beside
import ResumeScreening.Model.Webhook

namespace ResumeScreening

open Effect (Prog)
open Py (Json DateTime codes text?)

variable {env : Env} {settings : Accounts.Settings} {libs : WebhookLibs}

-- ================================================================== reading

/-- An instant of whole seconds, in seconds. -/
def wholeSeconds (t : DateTime) : Option Int :=
  if t.micros % 1000000 = 0 then some (t.micros / 1000000) else none

/-- The seconds a charge's `current_end` stands for; the outer `none`
where the handler raises on it. -/
def readEnd (libs : WebhookLibs) (fields : List (List Nat × Json)) :
    Option (Option Int) :=
  match lookupKey fields "current_end" with
  | none => some none
  | some .null => some none
  | some (.int n) => some (some n)
  | some (.bool b) => some (some (if b then 1 else 0))
  | some (.float literal) =>
      match libs.floatTimestamp literal with
      | .ok t => (wholeSeconds t).map some
      | .error _ => none
  | some _ => none

/-- The same for an event of any type: only a charge carries one. -/
def readCharge (libs : WebhookLibs) (eventType : String)
    (fields : List (List Nat × Json)) : Option (Option Int) :=
  if eventType = "subscription.charged" then readEnd libs fields
  else some none

/-- The subscription's entity in a body. -/
def readEntity (payload : Json) : Option (List (List Nat × Json)) := do
  let subscription ← (subscript payload "subscription").toOption
  let entity ← (subscript subscription "entity").toOption
  match entity with
  | .obj fields => some fields
  | _ => none

/-- A text under a key. -/
def readText (value : Json) (key : String) : Option String := do
  match ← (subscript value key).toOption with
  | .str s => text? s
  | _ => none

/-- The event type of a body and the part of its payload that is read. -/
def readEvent (libs : WebhookLibs) (payload : Json) :
    Option (String × WebhookPayload) := do
  let eventType ← readText payload "event"
  let fields ← readEntity payload
  let id ← readText (.obj fields) "id"
  let currentEnd ← readCharge libs eventType fields
  return (eventType, ⟨some (some ⟨some id, currentEnd⟩)⟩)

/-- The body charges a subscription to a fraction of a second. -/
def Fractional (libs : WebhookLibs) (payload : Json) : Prop :=
  ∃ fields literal t, readText payload "event" = some "subscription.charged"
    ∧ readEntity payload = some fields
    ∧ lookupKey fields "current_end" = some (.float literal)
    ∧ libs.floatTimestamp literal = .ok t ∧ wholeSeconds t = none

-- ==================================================================== texts

theorem toOption_eq_some {ε α : Type} {r : Except ε α} {a : α} :
    r.toOption = some a ↔ r = .ok a := by
  cases r with
  | error x => simp [Except.toOption]
  | ok v => simp [Except.toOption]

theorem char?_toNat {n : Nat} {c : Char} (h : Py.char? n = some c) :
    c.toNat = n := by
  unfold Py.char? at h
  split at h
  next hvalid =>
    cases h
    rw [Char.ofNat, dif_pos hvalid]
    rfl
  next => cases h

theorem codes_of_text {cs : List Nat} {s : String} (h : text? cs = some s) :
    cs = codes s := by
  have hchars : ∀ {cs : List Nat} {xs : List Char},
      cs.mapM Py.char? = some xs → cs = xs.map Char.toNat := by
    intro cs
    induction cs with
    | nil =>
        intro xs h
        cases h
        rfl
    | cons n cs ih =>
        intro xs h
        rw [List.mapM_cons] at h
        obtain ⟨c, hc, h⟩ := Option.bind_eq_some_iff.mp h
        obtain ⟨xs', hxs, h⟩ := Option.bind_eq_some_iff.mp h
        cases h
        rw [List.map_cons, char?_toNat hc, ← ih hxs]
  obtain ⟨xs, hxs, rfl⟩ := Option.map_eq_some_iff.mp h
  rw [hchars hxs]
  simp [codes]

theorem readText_eq {value : Json} {key s : String}
    (h : readText value key = some s) :
    subscript value key = .ok (.str (codes s)) := by
  obtain ⟨v, hv, h⟩ := Option.bind_eq_some_iff.mp h
  rw [toOption_eq_some.mp hv]
  cases v with
  | str cs => rw [codes_of_text h]
  | _ => cases h

theorem readEntity_eq {payload : Json} {fields : List (List Nat × Json)} :
    readEntity payload = some fields ↔
    ∃ subscription, subscript payload "subscription" = .ok subscription
      ∧ subscript subscription "entity" = .ok (.obj fields) := by
  constructor
  · intro h
    obtain ⟨subscription, hsub, h⟩ := Option.bind_eq_some_iff.mp h
    obtain ⟨entity, hentity, h⟩ := Option.bind_eq_some_iff.mp h
    refine ⟨subscription, toOption_eq_some.mp hsub, ?_⟩
    rw [toOption_eq_some.mp hentity]
    cases entity with
    | obj fields' =>
        cases h
        rfl
    | _ => cases h
  · intro h
    obtain ⟨subscription, hsub, hentity⟩ := h
    unfold readEntity
    rw [hsub]
    show (subscript subscription "entity").toOption.bind _ = _
    rw [hentity]
    rfl

-- ================================================================== writing

theorem fromTimestamp_whole {t : DateTime} {n : Int}
    (h : wholeSeconds t = some n) : fromTimestamp n = .ok t := by
  unfold wholeSeconds at h
  split at h
  next hmod =>
    cases h
    have hmicros : t.micros / 1000000 * 1000000 = t.micros := by omega
    unfold fromTimestamp DateTime.fromTimestamp DateTime.ofMicros
    rw [hmicros, dif_pos ⟨t.lower, t.upper⟩]
  next => cases h

/-- The period end the handler reads is the one of the event read. -/
theorem chargedEnd_read {fields : List (List Nat × Json)} {eventType : String}
    (id : String) {currentEnd : Option Int}
    (h : readCharge libs eventType fields = some currentEnd) :
    chargedEnd libs (.str (codes eventType)) (.obj fields)
      = periodEnd eventType ⟨some id, currentEnd⟩ := by
  have hiff : codes eventType = codes "subscription.charged"
      ↔ eventType = "subscription.charged" :=
    ⟨codes_injective, fun h => by rw [h]⟩
  unfold chargedEnd periodEnd
  unfold readCharge at h
  simp only [hiff]
  by_cases hcharged : eventType = "subscription.charged"
  · rw [if_pos hcharged] at h
    rw [if_pos hcharged, if_pos hcharged]
    unfold readEnd at h
    generalize lookupKey fields "current_end" = found at h ⊢
    cases found with
    | none => cases h; rfl
    | some value =>
      cases value with
      | null => cases h; rfl
      | int n => cases h; rfl
      | bool b => cases h; rfl
      | float literal =>
        cases ht : libs.floatTimestamp literal with
        | ok t =>
          simp only [ht] at h
          obtain ⟨n, hn, rfl⟩ := Option.map_eq_some_iff.mp h
          simp only [ht, fromTimestamp_whole hn]
        | error e => simp only [ht] at h; cases h
      | str s => cases h
      | arr items => cases h
      | obj fields => cases h
  · rw [if_neg hcharged, if_neg hcharged]

/-- Where an event can be read, the handler is `handleWebhookEvent` of
it. -/
theorem handleWebhook_read {payload : Json} {eventType : String}
    {read : WebhookPayload} (h : readEvent libs payload = some (eventType, read)) :
    subscript payload "event" = .ok (.str (codes eventType))
      ∧ handleWebhook libs (.str (codes eventType)) payload
        = handleWebhookEvent eventType read := by
  obtain ⟨eventType', hevent, hrest⟩ := Option.bind_eq_some_iff.mp h
  obtain ⟨fields, hfields, hrest⟩ := Option.bind_eq_some_iff.mp hrest
  obtain ⟨id, hid, hrest⟩ := Option.bind_eq_some_iff.mp hrest
  obtain ⟨currentEnd, hend, hrest⟩ := Option.bind_eq_some_iff.mp hrest
  cases hrest
  refine ⟨readText_eq hevent, ?_⟩
  obtain ⟨subscription, hsub, hentity⟩ := readEntity_eq.mp hfields
  unfold handleWebhook handleWebhookEvent
  rw [eventStatus_str]
  cases statusEvent eventType with
  | none => rfl
  | some newStatus =>
      simp only [hsub, hentity, readText_eq hid, chargedEnd_read id hend,
        WebhookPayload.entity, selectByRazorpayId, Py.text?_codes,
        Effect.Prog.ofExcept, Effect.Prog.bind_eq, Effect.Prog.ret_bind]
      congr 1
      funext found
      cases found <;> rfl

-- ================================================================== silence

/-- Where no period end is read, the handler raises on it, a fraction of
a second apart. -/
theorem chargedEnd_unread {fields : List (List Nat × Json)} {eventType : String}
    {newEnd : Option DateTime} (h : readCharge libs eventType fields = none)
    (hend : chargedEnd libs (.str (codes eventType)) (.obj fields) = .ok newEnd) :
    eventType = "subscription.charged" ∧ ∃ literal t,
      lookupKey fields "current_end" = some (.float literal)
        ∧ libs.floatTimestamp literal = .ok t ∧ wholeSeconds t = none := by
  unfold readCharge at h
  split at h
  next hcharged =>
    subst hcharged
    refine ⟨rfl, ?_⟩
    unfold readEnd at h
    unfold chargedEnd at hend
    simp only [if_true] at hend
    split at h
    next => cases h
    next => cases h
    next => cases h
    next => cases h
    next literal heq =>
      simp only [heq] at hend
      split at h
      next t ht => exact ⟨literal, t, heq, ht, Option.map_eq_none_iff.mp h⟩
      next x hx =>
        rw [hx] at hend
        cases hend
    next v hnull hint hbool hfloat heq =>
      -- a value of any other type is a TypeError
      rw [heq] at hend
      cases v with
      | null => exact absurd rfl hnull
      | bool b => exact absurd rfl (hbool b)
      | int n => exact absurd rfl (hint n)
      | float l => exact absurd rfl (hfloat l)
      | _ => cases hend
  next => cases h

/-- Where no event can be read, the handler looks a subscription up at
most. -/
theorem handleWebhook_still {event payload : Json}
    (hevent : subscript payload "event" = .ok event)
    (hread : readEvent libs payload = none) (hwhole : ¬ Fractional libs payload) :
    (handleWebhook libs event payload).Uses (machine env).Still := by
  unfold handleWebhook
  refine Prog.uses_ofExcept_bind fun status hstatus => ?_
  cases status with
  | none => trivial
  | some newStatus =>
      refine Prog.uses_ofExcept_bind fun subscription hsub => ?_
      refine Prog.uses_ofExcept_bind fun entity hentity => ?_
      refine Prog.uses_ofExcept_bind fun id hid => ?_
      -- what has a status is a text, and what has a key is an object
      obtain ⟨eventType, rfl⟩ : ∃ eventType, event = .str (codes eventType) := by
        cases event with
        | str s =>
            cases hs : text? s with
            | none =>
                simp only [eventStatus, hs] at hstatus
                cases hstatus
            | some eventType => exact ⟨eventType, by rw [codes_of_text hs]⟩
        | _ => cases hstatus
      obtain ⟨fields, rfl⟩ : ∃ fields, entity = .obj fields := by
        cases entity with
        | obj fields => exact ⟨fields, rfl⟩
        | _ => cases hid
      have hfields := readEntity_eq.mpr ⟨subscription, hsub, hentity⟩
      have htype : readText payload "event" = some eventType := by
        unfold readText
        rw [hevent]
        exact Py.text?_codes eventType
      cases id with
      | str s =>
          simp only [selectByRazorpayId]
          cases hs : text? s with
          | none => trivial
          | some rid =>
              have hrid : readText (.obj fields) "id" = some rid := by
                unfold readText
                rw [hid]
                exact hs
              have hcharge : readCharge libs eventType fields = none := by
                unfold readEvent at hread
                cases hc : readCharge libs eventType fields with
                | none => rfl
                | some currentEnd => simp [htype, hfields, hrid, hc] at hread
              refine Prog.uses_bind ((Prog.uses_perform _ _).mpr fun a w => ?_)
                fun found => ?_
              · cases a <;> rfl
              · cases found with
                | none => trivial
                | some loaded =>
                    refine Prog.uses_ofExcept_bind fun newEnd hend => ?_
                    obtain ⟨rfl, literal, t, hliteral, ht, hnone⟩ :=
                      chargedEnd_unread hcharge hend
                    exact absurd ⟨fields, literal, t, htype, hfields, hliteral,
                      ht, hnone⟩ hwhole
      | _ => trivial

end ResumeScreening
