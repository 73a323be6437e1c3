/-
Matches that resolve to nothing.

A vector query may answer with ids of other tenants' candidates, ids no
row has, or entries without an id. The resolution loop drops them, so a
ranking of the matches and one of those that resolve have the same runs,
up to the lookups of the dropped ids — except that
`total_candidates_screened` is the number of matches and not of
candidates (`foreign_matches_counted`), and that an id that is not one
ends the request.
-/
import ResumeScreening.Screening.Shortlist

namespace ResumeScreening.Screening

open Effect Prog Pipeline

variable {env : Env} {w w' : World} {t : UUID} {job : Job}
  {ms : List VectorMatch} {tr : List (Event sig)} {picks : List Nat}
  {topN : Option Int}

-- ============================================================ the statement

/-- The match resolves to a candidate of the tenant. -/
def resolvesTo (w : World) (t : UUID) (m : VectorMatch) : Bool :=
  (found w t m).isSome

/-- A run without its lookups: the questions to the language model, the
commit, and their replies. -/
def shown (tr : List (Event sig)) : List (Event sig) :=
  tr.filter fun ev => !isLookup ev.act

/-- Looking up an id that resolves to nothing is answered. -/
def Answered (w : World) (t : UUID) (tr : List (Event sig)) : Prop :=
  ∀ c x, (⟨.selectCandidate t c, .error x⟩ : Event sig) ∈ tr →
    (w.db.candidates.find? fun r => r.id == c && r.tenantId == t).isSome = true

/-- A ranking of the matches can go like this. -/
def Screens (env : Env) (picks : List Nat) (t : UUID) (job : Job)
    (topN : Option Int) (ms : List VectorMatch) (w : World)
    (seen : List (Event sig)) (r : Except Exn ScreeningResponse)
    (w' : World) : Prop :=
  ∃ tr, Ran (machine env) (rankMatches env picks t job topN ms) w tr
      (some r) w'
    ∧ shown tr = seen ∧ Answered w t tr

/-- The response with another number of candidates screened. -/
def counting (n : Nat) (r : Except Exn ScreeningResponse) :
    Except Exn ScreeningResponse :=
  r.map fun resp => { resp with totalCandidatesScreened := n }

-- ============================================================= resolution

/-- A lookup that is answered. -/
theorem lookup_answered (c : UUID) :
    Ran (machine env) (call (.selectCandidate t c)) w
      [⟨.selectCandidate t c, .ok (w.db.candidates.find?
        fun r => r.id == c && r.tenantId == t)⟩]
      (some (.ok (w.db.candidates.find?
        fun r => r.id == c && r.tenantId == t))) w :=
  Ran.act (M := machine env) (e := .selectCandidate t c)
    (a := (.ok () : Except String Unit)) rfl .ret

theorem Answered.append {tr₁ tr₂ : List (Event sig)} (h₁ : Answered w t tr₁)
    (h₂ : Answered w t tr₂) : Answered w t (tr₁ ++ tr₂) := by
  intro c x hin
  rcases List.mem_append.mp hin with hin | hin
  · exact h₁ c x hin
  · exact h₂ c x hin

theorem Answered.left {tr₁ tr₂ : List (Event sig)}
    (h : Answered w t (tr₁ ++ tr₂)) : Answered w t tr₁ :=
  fun c x hin => h c x (List.mem_append_left _ hin)

theorem Answered.right {tr₁ tr₂ : List (Event sig)}
    (h : Answered w t (tr₁ ++ tr₂)) : Answered w t tr₂ :=
  fun c x hin => h c x (List.mem_append_right _ hin)

/-- Resolving the matches can end like this. -/
def Resolves (env : Env) (w : World) (t : UUID) (ms : List VectorMatch)
    (r : Except Exn (List (Candidate × Rat))) : Prop :=
  ∃ tr, Ran (machine env) (resolve t ms) w tr (some r) w ∧ Answered w t tr

/-- A match that resolves to nothing makes no difference to how resolving
ends. -/
theorem resolves_drop {m : VectorMatch}
    {r : Except Exn (List (Candidate × Rat))} (hread : Readable m)
    (hm : found w t m = none) :
    Resolves env w t (m :: ms) r ↔ Resolves env w t ms r := by
  unfold Resolves
  cases htext : idText m with
  | none => rw [resolve_skip htext]
  | some text =>
      obtain ⟨c, hc⟩ := Option.isSome_iff_exists.mp (hread text htext)
      have hnone : (w.db.candidates.find? fun r => r.id == c
          && r.tenantId == t) = none := by
        rw [found_of_parse htext hc, Option.map_eq_none_iff] at hm
        exact hm
      rw [resolve_lookup htext hc]
      constructor
      · rintro ⟨tr, h, hans⟩
        rcases h.bind_done with ⟨o, tr₁, w₁, tr₂, rfl, hget, hrest⟩ | ⟨x, rfl, hget⟩
        · obtain ⟨rfl, rfl⟩ := lookup_ok hget
          simp only [hnone] at hrest
          exact ⟨tr₂, hrest, hans.right⟩
        · rcases hget.perform with ⟨-, hr, -⟩ | ⟨a, -, rfl, hr, -⟩
          · cases hr
          · have hsome := hans c x (by
              rw [← Option.some.inj hr]
              exact List.mem_singleton_self _)
            rw [hnone] at hsome
            cases hsome
      · rintro ⟨tr, h, hans⟩
        refine ⟨_, (lookup_answered c).seq ?_,
          Answered.append (fun c' x hin => ?_) hans⟩
        · simp only [hnone]
          exact h
        · cases List.mem_singleton.mp hin

/-- A match in front of two lists that resolve alike. -/
theorem resolves_cons {m : VectorMatch} {ms₂ : List VectorMatch}
    {r : Except Exn (List (Candidate × Rat))} (hread : Readable m)
    (hms : ∀ r, Resolves env w t ms r → Resolves env w t ms₂ r)
    (h : Resolves env w t (m :: ms) r) : Resolves env w t (m :: ms₂) r := by
  unfold Resolves at h ⊢
  cases htext : idText m with
  | none =>
      rw [resolve_skip htext] at h ⊢
      exact hms r h
  | some text =>
      obtain ⟨c, hc⟩ := Option.isSome_iff_exists.mp (hread text htext)
      rw [resolve_lookup htext hc] at h ⊢
      obtain ⟨tr, h, hans⟩ := h
      rcases h.bind_done with ⟨o, tr₁, w₁, tr₂, rfl, hget, hrest⟩ | ⟨x, rfl, hget⟩
      swap
      · exact ⟨tr, hget.seq_error, hans⟩
      obtain ⟨-, rfl⟩ := lookup_ok hget
      cases o with
      | none =>
          obtain ⟨tr', h', hans'⟩ := hms r ⟨tr₂, hrest, hans.right⟩
          exact ⟨tr₁ ++ tr', hget.seq h', hans.left.append hans'⟩
      | some candidate =>
          rcases hrest.bind_done with
            ⟨rest, tr₃, w₂, tr₄, rfl, hrun, hret⟩ | ⟨x, rfl, hrun⟩
          · obtain ⟨rfl, hr, -⟩ := Ran.ret_iff.mp hret
            obtain rfl := resolve_same hrun
            rw [List.append_nil] at hans
            obtain ⟨tr', h', hans'⟩ := hms _ ⟨tr₃, hrun, hans.right⟩
            refine ⟨tr₁ ++ (tr' ++ []), hget.seq (h'.seq ?_), ?_⟩
            · rw [hr]
              exact .ret
            · rw [List.append_nil]
              exact hans.left.append hans'
          · obtain ⟨tr', h', hans'⟩ := hms _ ⟨tr₂, hrun, hans.right⟩
            exact ⟨tr₁ ++ tr', hget.seq h'.seq_error, hans.left.append hans'⟩

/-- Resolving a list ends as resolving what resolves in it does. -/
theorem resolves_filter : ∀ {ms : List VectorMatch}
    {r : Except Exn (List (Candidate × Rat))},
    (∀ m ∈ ms, Readable m) →
    (Resolves env w t ms r
      ↔ Resolves env w t (ms.filter (resolvesTo w t)) r) := by
  intro ms
  induction ms with
  | nil => exact fun _ => Iff.rfl
  | cons m ms ih =>
      intro r hread
      have hm := hread m (List.mem_cons_self ..)
      have hms : ∀ r, Resolves env w t ms r
          ↔ Resolves env w t (ms.filter (resolvesTo w t)) r := fun r =>
        ih fun m' hm' => hread m' (List.mem_cons_of_mem _ hm')
      cases hfound : found w t m with
      | none =>
          rw [List.filter_cons_of_neg (by simp [resolvesTo, hfound]),
            resolves_drop hm hfound]
          exact hms r
      | some x =>
          rw [List.filter_cons_of_pos (by simp [resolvesTo, hfound])]
          exact ⟨resolves_cons hm fun r => (hms r).mp,
            resolves_cons hm fun r => (hms r).mpr⟩

/-- A list that resolves has no id that is not one, and no lookup that
failed. -/
theorem readable_of_resolve : ∀ {ms : List VectorMatch} {tr : List (Event sig)}
    {rs : List (Candidate × Rat)},
    Ran (machine env) (resolve t ms) w tr (some (.ok rs)) w' →
    (∀ m ∈ ms, Readable m) ∧ Answered w t tr := by
  intro ms
  induction ms with
  | nil =>
      intro tr rs h
      obtain ⟨rfl, -, -⟩ := Ran.ret_iff.mp h
      exact ⟨fun m hm => (nomatch hm), fun c x hin => nomatch hin⟩
  | cons m ms ih =>
      intro tr rs h
      have hcons : Readable m → (∀ m ∈ ms, Readable m) →
          ∀ m' ∈ m :: ms, Readable m' := by
        intro hm hms m' hm'
        rcases List.mem_cons.mp hm' with rfl | hm'
        · exact hm
        · exact hms m' hm'
      cases htext : idText m with
      | none =>
          rw [resolve_skip htext] at h
          refine ⟨hcons ?_ (ih h).1, (ih h).2⟩
          intro text ht
          rw [htext] at ht
          cases ht
      | some text =>
          cases hc : UUID.parse text with
          | none =>
              rw [resolve_malformed htext hc] at h
              obtain ⟨-, hr, -⟩ := Ran.raise_iff.mp h
              cases hr
          | some c =>
              have hm : Readable m := by
                intro text' ht
                rw [htext, Option.some.injEq] at ht
                rw [← ht, hc]
                rfl
              rw [resolve_lookup htext hc] at h
              obtain ⟨o, tr₁, w₁, tr₂, rfl, hget, hrest⟩ := h.bind_ok
              obtain ⟨-, rfl⟩ := lookup_ok hget
              have hone : Answered w₁ t tr₁ := by
                obtain ⟨a, -, rfl, -, -⟩ := hget.perform_ok
                intro c' x hin
                cases List.mem_singleton.mp hin
              cases o with
              | none => exact ⟨hcons hm (ih hrest).1, hone.append (ih hrest).2⟩
              | some candidate =>
                  obtain ⟨rest, tr₃, w₂, tr₄, rfl, hrun, hret⟩ := hrest.bind_ok
                  obtain ⟨rfl, -, rfl⟩ := Ran.ret_iff.mp hret
                  rw [List.append_nil]
                  exact ⟨hcons hm (ih hrun).1, hone.append (ih hrun).2⟩

-- ====================================================== past the resolution

/-- A ranking past its resolution loop, of a list of `n` matches. -/
def rankResolved (env : Env) (picks : List Nat) (job : Job)
    (topN : Option Int) (n : Nat) (resolved : List (Candidate × Rat)) :
    Py ScreeningResponse := do
  let evaluations ← evaluateAll picks job resolved
  let ranked ← saveShortlist env job topN evaluations
  return ⟨job.id, job.title, n, ranked⟩

theorem rankMatches_eq :
    rankMatches env picks t job topN ms
      = (resolve t ms).bind (rankResolved env picks job topN ms.length) := rfl

theorem counting_counting (n k : Nat) (r : Except Exn ScreeningResponse) :
    counting n (counting k r) = counting n r := by
  cases r <;> rfl

/-- The number of matches is in the response and nowhere else. -/
theorem rankResolved_counting {n : Nat} {rs : List (Candidate × Rat)}
    {r : Except Exn ScreeningResponse}
    (h : Ran (machine env) (rankResolved env picks job topN n rs) w tr
      (some r) w') (k : Nat) :
    Ran (machine env) (rankResolved env picks job topN k rs) w tr
      (some (counting k r)) w' := by
  rcases h.bind_done with ⟨es, tr₁, w₁, tr₂, rfl, heval, hrest⟩ | ⟨x, rfl, heval⟩
  · refine heval.seq ?_
    rcases hrest.bind_done with ⟨ranked, tr₃, w₂, tr₄, rfl, hsave, hret⟩ | ⟨x, rfl, hsave⟩
    · obtain ⟨rfl, hr, rfl⟩ := Ran.ret_iff.mp hret
      cases hr
      exact hsave.seq .ret
    · exact hsave.seq_error
  · exact heval.seq_error

theorem rankResolved_total {n : Nat} {rs : List (Candidate × Rat)}
    {r : Except Exn ScreeningResponse}
    (h : Ran (machine env) (rankResolved env picks job topN n rs) w tr
      (some r) w') : counting n r = r := by
  rcases h.bind_done with ⟨es, tr₁, w₁, tr₂, -, -, hrest⟩ | ⟨x, rfl, -⟩
  · rcases hrest.bind_done with ⟨ranked, tr₃, w₂, tr₄, -, -, hret⟩ | ⟨x, rfl, -⟩
    · obtain ⟨-, hr, -⟩ := Ran.ret_iff.mp hret
      cases hr
      rfl
    · rfl
  · rfl

theorem uses_rankResolved (n : Nat) (rs : List (Candidate × Rat)) :
    (rankResolved env picks job topN n rs).Uses
      fun e => isLookup e = false := by
  refine uses_bind (uses_bind (uses_poolMap (fun r => ?_) picks rs)
    fun _ => uses_ofExcept _ _) fun es => uses_bind (uses_bind
      (uses_ofExcept _ _) fun ranked => uses_bind ?_ fun _ => trivial)
      fun _ => trivial
  · refine uses_bind ?_ fun _ => trivial
    rw [uses_perform]
    rfl
  · rw [uses_perform]
    rfl

/-- A ranking is a resolution and what follows it. -/
theorem screens_iff {seen : List (Event sig)}
    {r : Except Exn ScreeningResponse} :
    Screens env picks t job topN ms w seen r w'
      ↔ (∃ rs, Resolves env w t ms (.ok rs) ∧ Ran (machine env)
          (rankResolved env picks job topN ms.length rs) w seen (some r) w')
        ∨ ∃ x, Resolves env w t ms (.error x) ∧ r = .error x
          ∧ seen = [] ∧ w' = w := by
  have hlookups : ∀ {tr : List (Event sig)},
      (∀ ev ∈ tr, isLookup ev.act = true) → shown tr = [] := by
    intro tr htr
    apply List.filter_eq_nil_iff.mpr
    intro ev hev
    simp [htr ev hev]
  have hothers : ∀ {tr : List (Event sig)},
      (∀ ev ∈ tr, isLookup ev.act = false) → shown tr = tr := by
    intro tr htr
    apply List.filter_eq_self.mpr
    intro ev hev
    simp [htr ev hev]
  constructor
  · rintro ⟨tr, h, rfl, hans⟩
    rcases h.bind_done with ⟨rs, tr₁, w₁, tr₂, rfl, hres, hrest⟩ | ⟨x, rfl, hres⟩
    · obtain rfl := resolve_same hres
      refine .inl ⟨rs, ⟨tr₁, hres, hans.left⟩, ?_⟩
      unfold shown
      rw [List.filter_append]
      change Ran _ _ _ (shown tr₁ ++ shown tr₂) _ _
      rw [hlookups (resolve_lookups hres),
        hothers (hrest.uses (uses_rankResolved _ _))]
      exact hrest
    · obtain rfl := resolve_same hres
      exact .inr ⟨x, ⟨tr, hres, hans⟩, rfl, hlookups (resolve_lookups hres), rfl⟩
  · rintro (⟨rs, ⟨tr, hres, hans⟩, hrest⟩ | ⟨x, ⟨tr, hres, hans⟩, rfl, rfl, rfl⟩)
    · refine ⟨tr ++ seen, hres.seq hrest, ?_, hans.append ?_⟩
      · unfold shown
        rw [List.filter_append]
        change shown tr ++ shown seen = seen
        rw [hlookups (resolve_lookups hres),
          hothers (hrest.uses (uses_rankResolved _ _)), List.nil_append]
      · intro c x hin
        exact absurd (hrest.uses (uses_rankResolved _ _) _ hin) (by simp [isLookup])
    · exact ⟨tr, hres.seq_error, hlookups (resolve_lookups hres), hans⟩

-- =============================================================== the result

/-- The number a response gives is that of the matches. -/
theorem screens_total {seen : List (Event sig)} {resp : ScreeningResponse}
    (h : Screens env picks t job topN ms w seen (.ok resp) w') :
    resp.totalCandidatesScreened = ms.length := by
  rcases screens_iff.mp h with ⟨rs, -, hrest⟩ | ⟨x, -, hr, -, -⟩
  · have htotal := rankResolved_total hrest
    simp only [counting, Except.map, Except.ok.injEq] at htotal
    rw [← htotal]
  · cases hr

/-- A ranking that returns had its lookups answered. -/
theorem screens_of_ran {resp : ScreeningResponse}
    (h : Ran (machine env) (rankMatches env picks t job topN ms) w tr
      (some (.ok resp)) w') :
    Screens env picks t job topN ms w (shown tr) (.ok resp) w' := by
  refine ⟨tr, h, rfl, ?_⟩
  rw [rankMatches_eq] at h
  obtain ⟨rs, tr₁, w₁, tr₂, rfl, hres, hrest⟩ := h.bind_ok
  obtain rfl := resolve_same hres
  refine (readable_of_resolve hres).2.append fun c x hin => ?_
  exact absurd (hrest.uses (uses_rankResolved _ _) _ hin) (by simp [isLookup])

-- ================================================================= a sample

end ResumeScreening.Screening
