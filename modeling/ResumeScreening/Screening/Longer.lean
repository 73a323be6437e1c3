/-
Two rankings that differ in how many entries they are asked for.

Everything up to the sort is shared, so both show a beginning of one
sorted list and the question is which is longer. Between two positive
numbers, or two negative ones, the larger shows no less. Zero is falsy
and asks for the default, and a negative number leaves out that many
from the end: there a larger number can show less (`longer_iff`).
-/
import ResumeScreening.Screening.Shortlist

namespace ResumeScreening.Screening

open Effect Prog Pipeline

-- ============================================================ the statement

/-- Which pairs of requests, the second no smaller, extend the list, for
a default and a number of candidates to show: all but those in which the
default, or what a negative request leaves, is more than is asked for
next. -/
structure Extends (default : Int) (len : Nat) (a b : Int) : Prop where
  defaulted : a = 0 → 0 < b → default ≤ b ∨ len ≤ b
  undefaulted : a < 0 → b = 0 → len + a ≤ default
  crossing : a < 0 → 0 < b → len + a ≤ b

-- ================================================================== slices

/-- How many entries a slice from the front keeps. -/
def kept (len : Nat) (n : Int) : Nat :=
  if 0 ≤ n then min n.toNat len else len - (-n).toNat

theorem takeTo_eq_take {α : Type} (xs : List α) (n : Int) :
    Py.takeTo xs n = xs.take (kept xs.length n) := by
  unfold Py.takeTo kept
  by_cases hn : 0 ≤ n
  · rw [if_pos hn, if_pos hn, List.take_eq_take_iff]
    omega
  · rw [if_neg hn, if_neg hn]

theorem kept_le (len : Nat) (n : Int) : kept len n ≤ len := by
  unfold kept
  by_cases hn : 0 ≤ n
  · rw [if_pos hn]
    omega
  · rw [if_neg hn]
    omega

/-- The kept entries of two requests compare as `Extends` says. -/
theorem kept_orInt_le_iff {default a b : Int} {len : Nat} (hd : 0 < default)
    (hab : a ≤ b) :
    kept len (Py.orInt (some a) default) ≤ kept len (Py.orInt (some b) default)
      ↔ Extends default len a b := by
  unfold kept Py.orInt
  constructor
  · intro h
    constructor
    · intro ha hb
      simp only [ha, if_true, show b ≠ 0 by omega, if_false] at h
      rw [if_pos (by omega), if_pos (by omega)] at h
      omega
    · intro ha hb
      simp only [hb, if_true, show a ≠ 0 by omega, if_false] at h
      rw [if_neg (by omega), if_pos (by omega)] at h
      omega
    · intro ha hb
      simp only [show a ≠ 0 by omega, show b ≠ 0 by omega, if_false] at h
      rw [if_neg (by omega), if_pos (by omega)] at h
      omega
  · intro h
    by_cases hneg : a < 0
    · simp only [show a ≠ 0 by omega, if_false]
      rw [if_neg (by omega)]
      by_cases hb : b = 0
      · have hleft := h.undefaulted hneg hb
        rw [if_pos hb, if_pos (by omega)]
        omega
      · rw [if_neg hb]
        by_cases hpos : 0 < b
        · have hleft := h.crossing hneg hpos
          rw [if_pos (by omega)]
          omega
        · rw [if_neg (by omega)]
          omega
    · by_cases hb : b = 0
      · rw [show a = b by omega]
      · by_cases ha : a = 0
        · have hmore := h.defaulted ha (by omega)
          simp only [ha, hb, if_true, if_false]
          rw [if_pos (by omega), if_pos (by omega)]
          omega
        · simp only [ha, hb, if_false]
          rw [if_pos (by omega), if_pos (by omega)]
          omega

-- ================================================================ prefixes

theorem zipIdx_take_extends {α : Type} (xs : List α) {m n : Nat} (h : m ≤ n) :
    (xs.take m).zipIdx 1 <+: (xs.take n).zipIdx 1 := by
  obtain ⟨rest, hrest⟩ := List.take_prefix_take_left (l := xs) h
  rw [← hrest, List.zipIdx_append]
  exact List.prefix_append _ _

/-- What a `mapM` makes of a beginning is a beginning of what it makes of
the whole. -/
theorem mapM_extends {ε α β : Type} {f : α → Except ε β} {xs ys : List α}
    {us vs : List β} (h : xs <+: ys) (hus : xs.mapM f = .ok us)
    (hvs : ys.mapM f = .ok vs) : us <+: vs := by
  obtain ⟨zs, rfl⟩ := h
  rw [List.mapM_append, hus] at hvs
  cases hzs : zs.mapM f with
  | error x =>
      rw [hzs] at hvs
      cases hvs
  | ok ws =>
      rw [hzs] at hvs
      cases hvs
      exact List.prefix_append us ws

variable {env : Env} {job : Job} {es : List Evaluation}

theorem length_shortlist (es : List Evaluation) (n : Int) :
    (shortlist es n).length = kept es.length n := by
  unfold shortlist byScore
  rw [List.length_zipIdx, takeTo_eq_take, List.length_take,
    List.length_mergeSort, Nat.min_eq_left (kept_le _ _)]

theorem shortlist_extends {m n : Int} (h : kept es.length m ≤ kept es.length n) :
    shortlist es m <+: shortlist es n := by
  unfold shortlist
  rw [takeTo_eq_take, takeTo_eq_take]
  unfold byScore
  rw [List.length_mergeSort]
  exact zipIdx_take_extends _ h

/-- Of two shortlists of the same evaluations, the entries of one start
the other's exactly where it keeps no more. -/
theorem shown_prefix_iff {m n : Int} {ra rb : List RankedCandidate}
    (ha : (shortlist es m).mapM rankedCandidate = .ok ra)
    (hb : (shortlist es n).mapM rankedCandidate = .ok rb) :
    ra <+: rb ↔ kept es.length m ≤ kept es.length n := by
  constructor
  · intro hpre
    have hla := (forall₂_mapM (fun _ _ => rankedCandidate_shows) ha).length_eq
    have hlb := (forall₂_mapM (fun _ _ => rankedCandidate_shows) hb).length_eq
    rw [← length_shortlist, ← length_shortlist, hla, hlb]
    exact hpre.length_le
  · exact fun h => mapM_extends (shortlist_extends h) ha hb

-- ==================================================================== runs

variable {O : Oracle (machine env)} {n : Nat} {w : World} {t : UUID}
  {picks : List Nat} {ms : List VectorMatch} {topN : Option Int}

/-- What does not depend on how many entries are asked for. -/
def evaluateMatches (picks : List Nat) (t : UUID) (job : Job)
    (ms : List VectorMatch) : Py (List Evaluation) :=
  (resolve t ms).bind (evaluateAll picks job)

theorem rankMatches_shared :
    rankMatches env picks t job topN ms
      = (evaluateMatches picks t job ms).bind fun es =>
        (saveShortlist env job topN es).bind fun ranked =>
          ret ⟨job.id, job.title, ms.length, ranked⟩ := by
  unfold evaluateMatches
  rw [bind_assoc]
  rfl

/-- As many are evaluated as the matches resolve to. -/
theorem length_evaluated {tr : List (Event sig)} {w' : World}
    (h : Ran (machine env) (evaluateMatches picks t job ms) w tr
      (some (.ok es)) w') :
    es.length = (ms.filterMap (found w t)).length := by
  obtain ⟨rs, tr₁, w₁, tr₂, -, hres, heval⟩ := h.bind_ok
  rw [← resolve_ok hres, ← (evaluateAll_ok heval).1, List.length_map]

/-- What a saved shortlist shows. -/
theorem saveShortlist_shown {ranked : List RankedCandidate}
    (h : ((saveShortlist env job topN es).run O n w).1 = some (.ok ranked)) :
    (shortlist es (Py.orInt topN env.rankingTopN)).mapM rankedCandidate
      = .ok ranked := by
  obtain ⟨shown, n₁, hshown, hrest⟩ := run_bind_ok h
  obtain ⟨u, n₂, -, hret⟩ := run_bind_ok hrest
  cases hret
  cases hm : (shortlist es (Py.orInt topN env.rankingTopN)).mapM
      rankedCandidate with
  | error x =>
      rw [hm] at hshown
      cases hshown
  | ok shown' =>
      rw [hm] at hshown
      cases hshown
      rfl

/-- The evaluations behind an answer, and what it shows of them. They are
the same whatever number of entries is asked for. -/
theorem answer_shown {resp : ScreeningResponse}
    (heval : ((evaluateMatches picks t job ms).run O n w).1 = some (.ok es))
    (h : ((rankMatches env picks t job topN ms).run O n w).1
      = some (.ok resp)) :
    (shortlist es (Py.orInt topN env.rankingTopN)).mapM rankedCandidate
      = .ok resp.rankedCandidates := by
  rw [rankMatches_shared] at h
  obtain ⟨es', n₁, heval', hrest⟩ := run_bind_ok h
  rw [heval] at heval'
  cases heval'
  obtain ⟨ranked, n₂, hsave, hret⟩ := run_bind_ok hrest
  cases hret
  exact saveShortlist_shown hsave

/-- Of two answers with everything else equal, the one asked for no more
entries starts the other exactly where the requests extend the list. -/
theorem longer_iff {a b : Int} {ra rb : ScreeningResponse} (hab : a ≤ b)
    (hadm : (rankMatches env picks t job (some a) ms).Admitted O n w)
    (ha : ((rankMatches env picks t job (some a) ms).run O n w).1
      = some (.ok ra))
    (hb : ((rankMatches env picks t job (some b) ms).run O n w).1
      = some (.ok rb)) :
    ra.rankedCandidates <+: rb.rankedCandidates
      ↔ Extends env.rankingTopN (ms.filterMap (found w t)).length a b := by
  have hfirst := ha
  rw [rankMatches_shared] at hfirst hadm
  obtain ⟨es, -, heval, -⟩ := run_bind_ok hfirst
  obtain ⟨n', hfrom⟩ := run_bind_from heval
  obtain ⟨tr, w', hran⟩ := Ran.exists_of_run ((hfrom _).2.mp hadm).1 heval
  rw [shown_prefix_iff (answer_shown heval ha) (answer_shown heval hb),
    length_evaluated hran]
  exact kept_orInt_le_iff env.rankingTopN_pos hab

-- ================================================================= a sample

/-- Two candidates of the sample tenant. -/
def twoShelved : World :=
  (reached (.spawn (.createCandidate sampleTenant { fullName := "Ada" })
    :: steps 0 7
    ++ .spawn (.createCandidate sampleTenant { fullName := "Bob" })
    :: steps 1 7 { id := UUID.ofNat 1 }) (by decide +kernel)).world

def twoFound : List VectorMatch :=
  [⟨some (UUID.ofNat 0).str, 1⟩, ⟨some (UUID.ofNat 1).str, 1⟩]

/-- Their evaluations, under the sample oracle's answer. -/
def twoEvaluated : List Evaluation :=
  [(UUID.ofNat 0, "Ada"), (UUID.ofNat 1, "Bob")].map fun (id, name) => {
    candidate := { createdCandidate sampleTenant { fullName := name } id .epoch
      with pineconeId := some (candidateVectorId id.str) }
    vectorScore := 1
    explanation := ⟨50, [], [], "fair"⟩ }

def shownAs (id : UUID) (name : String) (rank : Nat) : RankedCandidate :=
  ⟨id, name, 1, 50, rank, "fair", [], []⟩

/-- The answer with these entries. -/
def twoAnswer (ranked : List RankedCandidate) : ScreeningResponse :=
  ⟨sampleJob.id, sampleJob.title, 2, ranked⟩

/-- Their shortlist, the sort left out. -/
def twoShort (topN : Option Int) : List (Evaluation × Nat) :=
  (Py.takeTo twoEvaluated (Py.orInt topN sampleEnv.rankingTopN)).zipIdx 1

theorem byScore_twoEvaluated : byScore twoEvaluated = twoEvaluated :=
  List.mergeSort_of_pairwise (by decide)

theorem saveShortlist_two (topN : Option Int) :
    saveShortlist sampleEnv sampleJob topN twoEvaluated
      = (Prog.ofExcept ((twoShort topN).mapM rankedCandidate)).bind
        fun ranked => (call (.commit
          ((twoShort topN).map (matchRecord sampleJob)))).bind
            fun _ => ret ranked := by
  unfold saveShortlist shortlist
  rw [byScore_twoEvaluated]
  rfl

/-- The world once the two are evaluated. -/
def twoWorld : World :=
  ((evaluateMatches [] sampleTenant sampleJob twoFound).run sampleOracle 0
    twoShelved).2

/-- A ranking of the two is their evaluation and what is saved of it. -/
theorem two_answered {topN : Option Int} {ranked : List RankedCandidate}
    (hadm : (saveShortlist sampleEnv sampleJob topN twoEvaluated).Admitted
      sampleOracle 0 twoWorld)
    (hsave : ((saveShortlist sampleEnv sampleJob topN twoEvaluated).run
      sampleOracle 0 twoWorld).1 = some (.ok ranked)) :
    (rankMatches sampleEnv [] sampleTenant sampleJob topN twoFound).Admitted
      sampleOracle 0 twoShelved
    ∧ ((rankMatches sampleEnv [] sampleTenant sampleJob topN twoFound).run
      sampleOracle 0 twoShelved).1 = some (.ok (twoAnswer ranked)) := by
  have heval : ((evaluateMatches [] sampleTenant sampleJob twoFound).run
      sampleOracle 0 twoShelved).1 = some (.ok twoEvaluated) := by
    decide +kernel
  have hevaladm : (evaluateMatches [] sampleTenant sampleJob twoFound).Admitted
      sampleOracle 0 twoShelved := by decide +kernel
  obtain ⟨n₁, hfrom⟩ := run_bind_from heval
  obtain ⟨n₂, hthen⟩ := run_bind_from hsave
  have hcount := run_uncounted (S := sig) (M := machine sampleEnv)
    (O := sampleOracle) (α := ScreeningResponse) fun _ _ _ => rfl
  rw [rankMatches_shared]
  constructor
  · refine (hfrom _).2.mpr ⟨hevaladm, (hcount _ n₁ 0 _).2.mpr ?_⟩
    exact (hthen _).2.mpr ⟨hadm, trivial⟩
  · rw [(hfrom _).1, (hcount _ n₁ 0 _).1]
    exact congrArg Prod.fst (hthen _).1

/-- Asked for none, which asks for the default, and asked for one. -/
theorem asked_none_and_one :
    ((rankMatches sampleEnv [] sampleTenant sampleJob (some 0)
        twoFound).Admitted sampleOracle 0 twoShelved
      ∧ ((rankMatches sampleEnv [] sampleTenant sampleJob (some 0)
          twoFound).run sampleOracle 0 twoShelved).1
        = some (.ok (twoAnswer [shownAs (UUID.ofNat 0) "Ada" 1,
          shownAs (UUID.ofNat 1) "Bob" 2])))
    ∧ ((rankMatches sampleEnv [] sampleTenant sampleJob (some 1)
        twoFound).Admitted sampleOracle 0 twoShelved
      ∧ ((rankMatches sampleEnv [] sampleTenant sampleJob (some 1)
          twoFound).run sampleOracle 0 twoShelved).1
        = some (.ok (twoAnswer [shownAs (UUID.ofNat 0) "Ada" 1]))) := by
  refine ⟨two_answered ?_ ?_, two_answered ?_ ?_⟩ <;>
    (rw [saveShortlist_two]; decide +kernel)

theorem longer_none_and_one :
    [shownAs (UUID.ofNat 0) "Ada" 1, shownAs (UUID.ofNat 1) "Bob" 2]
        <+: [shownAs (UUID.ofNat 0) "Ada" 1]
      ↔ Extends 5 (twoFound.filterMap (found twoShelved sampleTenant)).length
        0 1 :=
  longer_iff (by decide) asked_none_and_one.1.1 asked_none_and_one.1.2
    asked_none_and_one.2.2

/-- Asked for none, a ranking shows both candidates; asked for one, one. -/
theorem longer_shorter : ∃ ra rb,
    ((rankMatches sampleEnv [] sampleTenant sampleJob (some 0) twoFound).run
      sampleOracle 0 twoShelved).1 = some (.ok ra)
    ∧ ((rankMatches sampleEnv [] sampleTenant sampleJob (some 1) twoFound).run
      sampleOracle 0 twoShelved).1 = some (.ok rb)
    ∧ ¬ ra.rankedCandidates <+: rb.rankedCandidates :=
  ⟨_, _, asked_none_and_one.1.2, asked_none_and_one.2.2, by decide⟩

end ResumeScreening.Screening
