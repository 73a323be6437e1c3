/-
What the resolution loop of a ranking makes of a list of matches: the
candidates it finds, as a function of the rows, and the runs it has.
-/
import ResumeScreening.Pipeline.Conform
import ResumeScreening.Pipeline.Effects
import ResumeScreening.Model.Screening

namespace ResumeScreening.Screening

open Effect Prog Pipeline

variable {env : Env} {w w' : World} {t : UUID} {m : VectorMatch}
  {ms : List VectorMatch} {tr : List (Event sig)}

-- ============================================================== one match

/-- The id a match carries, where it carries one. -/
def idText (m : VectorMatch) : Option String := Py.optTruthy m.candidateId

/-- The candidate of the tenant a match resolves to. -/
def found (w : World) (t : UUID) (m : VectorMatch) :
    Option (Candidate × Rat) :=
  ((idText m).bind UUID.parse).bind fun c =>
    (w.db.candidates.find? fun r => r.id == c && r.tenantId == t).map
      fun candidate => (candidate, m.vectorScore)

/-- The match carries no id, or the text of one. -/
def Readable (m : VectorMatch) : Prop :=
  ∀ text, idText m = some text → (UUID.parse text).isSome = true

instance : DecidablePred Readable := fun m =>
  match h : idText m with
  | none => isTrue fun text ht => by rw [h] at ht; cases ht
  | some text => decidable_of_iff ((UUID.parse text).isSome = true)
      ⟨fun hp text' ht => by rw [h] at ht; cases ht; exact hp,
        fun hr => hr text h⟩

theorem found_none_of_idText (h : idText m = none) : found w t m = none := by
  unfold found
  rw [h]
  rfl

/-- A match with an id resolves to what the lookup answers. -/
theorem found_of_parse {text : String} {c : UUID} (h : idText m = some text)
    (hc : UUID.parse text = some c) :
    found w t m = (w.db.candidates.find? fun r => r.id == c
      && r.tenantId == t).map fun candidate => (candidate, m.vectorScore) := by
  unfold found
  rw [h, Option.bind_some, hc, Option.bind_some]

-- ================================================================ one pass

/-- The loop on a match without an id. -/
theorem resolve_skip (h : idText m = none) :
    resolve t (m :: ms) = resolve t ms := by
  unfold idText at h
  conv => lhs; unfold resolve
  simp only [h]

/-- The loop on a match whose id is not one. -/
theorem resolve_malformed {text : String} (h : idText m = some text)
    (hc : UUID.parse text = none) :
    resolve t (m :: ms)
      = raise (.valueError "badly formed hexadecimal UUID string") := by
  unfold idText at h
  unfold resolve
  simp only [h, uuid, hc]
  rfl

/-- The loop on a match with an id. -/
theorem resolve_lookup {text : String} {c : UUID} (h : idText m = some text)
    (hc : UUID.parse text = some c) :
    resolve t (m :: ms) = (call (.selectCandidate t c)).bind fun
      | none => resolve t ms
      | some candidate => (resolve t ms).bind fun rest =>
          ret ((candidate, m.vectorScore) :: rest) := by
  unfold idText at h
  conv => lhs; unfold resolve
  simp only [h, uuid, hc, pure_eq, bind_eq, ret_bind]
  refine congrArg (Prog.bind _) (funext fun o => ?_)
  cases o <;> rfl

-- =================================================================== runs

/-- A lookup of the resolution loop. -/
def isLookup : Act → Bool
  | .selectCandidate .. => true
  | _ => false

theorem uses_resolve :
    ∀ ms, (resolve t ms).Uses fun e => isLookup e = true := by
  intro ms
  induction ms with
  | nil => trivial
  | cons m ms ih =>
      cases htext : idText m with
      | none =>
          rw [resolve_skip htext]
          exact ih
      | some text =>
          cases hc : UUID.parse text with
          | none =>
              rw [resolve_malformed htext hc]
              trivial
          | some c =>
              rw [resolve_lookup htext hc]
              refine uses_bind ?_ fun o => ?_
              · rw [uses_perform]
                rfl
              · cases o with
                | none => exact ih
                | some candidate => exact uses_bind ih fun rest => trivial

theorem lookup_same : ∀ (e : Act) (a : e.Ans) (w : World),
    isLookup e = true → ((machine env).perform e a w).2 = w := by
  intro e a w he
  cases e with
  | selectCandidate t c => exact read_snd a _
  | _ => cases he

/-- Resolving changes nothing. -/
theorem resolve_same {r : Option (Except Exn (List (Candidate × Rat)))}
    (h : Ran (machine env) (resolve t ms) w tr r w') : w' = w :=
  h.same_world (uses_resolve ms) lookup_same

theorem resolve_lookups {r : Option (Except Exn (List (Candidate × Rat)))}
    (h : Ran (machine env) (resolve t ms) w tr r w') :
    ∀ ev ∈ tr, isLookup ev.act = true :=
  h.uses (uses_resolve ms)

/-- What a lookup answers. -/
theorem lookup_ok {c : UUID} {o : Option Candidate}
    (h : Ran (machine env) (call (.selectCandidate t c)) w tr
      (some (.ok o)) w') :
    o = (w.db.candidates.find? fun r => r.id == c && r.tenantId == t)
      ∧ w' = w := by
  obtain ⟨a, -, -, hr, hw⟩ := h.perform_ok
  exact ⟨read_ok hr, hw.trans (read_snd a _)⟩

end ResumeScreening.Screening
