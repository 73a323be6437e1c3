/-
What a ranking returns and saves.

A finished run goes through four phases: the matches are resolved, the
resolved candidates evaluated by the pool, the evaluations sorted and
cut, and the rows committed. Each phase has one lemma about the runs it
has (`resolve_ok`, `evaluateAll_ok`, `saveShortlist_ran`), and
`ranking_correct` reads them off a run from end to end.
-/
import ResumeScreening.Lib.Stable
import ResumeScreening.Screening.Resolve
import Mathlib.Algebra.Order.Ring.Unbundled.Rat

namespace ResumeScreening.Screening

open Effect Prog Pipeline Sorting

variable {env : Env} {w w' : World} {t : UUID} {job : Job}
  {ms : List VectorMatch} {tr : List (Event sig)} {picks : List Nat}
  {topN : Option Int}

-- ============================================================ the statement

/-- The score a candidate is ranked by. -/
def llmScore (e : Evaluation) : Rat := e.explanation.score

/-- What the matches resolve to, in match order, each candidate with an
answer the language model gave when it was asked about that candidate. -/
structure Judged (w : World) (t : UUID) (job : Job) (ms : List VectorMatch)
    (tr : List (Event sig)) (es : List Evaluation) : Prop where
  resolved : es.map (fun e => (e.candidate, e.vectorScore))
    = ms.filterMap (found w t)
  asked : ∀ e ∈ es,
    (⟨.explainMatch (matchPrompt job e.candidate), .ok e.explanation⟩
      : Event sig) ∈ tr

/-- The entry shows this evaluation at this rank. -/
structure Shows (x : Evaluation × Nat) (c : RankedCandidate) : Prop where
  candidate : c.candidateId = x.1.candidate.id
  name : some c.fullName = x.1.candidate.fullName
  score : c.llmScore = x.1.explanation.score
  summary : c.explanation = x.1.explanation.summary
  strengths : c.strengths = x.1.explanation.strengths
  gaps : c.gaps = x.1.explanation.gaps
  rank : c.rank = x.2

/-- The row repeats the entry. -/
structure Saves (job : Job) (c : RankedCandidate) (row : MatchResult) :
    Prop where
  candidate : row.candidateId = c.candidateId
  job : row.jobId = job.id
  score : row.llmScore = c.llmScore
  rank : row.rank = c.rank
  explanation : row.explanation = c.explanation

/-- A ranking and the rows saved with it. -/
structure Ranking (w : World) (t : UUID) (job : Job) (ms : List VectorMatch)
    (tr : List (Event sig)) (ranked : List RankedCandidate) (w' : World)
    (es kept left : List Evaluation) (rows : List MatchResult) : Prop where
  judged : Judged w t job ms tr es
  sorted : Stable llmScore es (kept ++ left)
  shown : List.Forall₂ Shows (kept.zipIdx 1) ranked
  ranks : ranked.map RankedCandidate.rank = List.range' 1 ranked.length
  best : ∀ k ∈ kept, ∀ l ∈ left, llmScore l ≤ llmScore k
  saved : List.Forall₂ (Saves job) ranked rows
  committed : w'.db
    = { w.db with matchResults := w.db.matchResults ++ rows }

-- ==================================================================== lists

/-- A slice from the front is a prefix. -/
theorem takeTo_append {α : Type} (xs : List α) (n : Int) :
    ∃ left, Py.takeTo xs n ++ left = xs := by
  unfold Py.takeTo
  by_cases hn : 0 ≤ n
  · rw [if_pos hn]
    exact ⟨_, List.take_append_drop _ _⟩
  · rw [if_neg hn]
    exact ⟨_, List.take_append_drop _ _⟩

theorem mapM_id_ok {ε α : Type} :
    ∀ {os : List (Except ε α)} {as : List α},
      os.mapM id = .ok as → os = as.map .ok := by
  intro os
  induction os with
  | nil =>
      intro as h
      cases h
      rfl
  | cons o os ih =>
      intro as h
      rw [List.mapM_cons] at h
      cases o with
      | error x => cases h
      | ok a =>
          cases hos : os.mapM id with
          | error x =>
              simp only [id, hos] at h
              cases h
          | ok as' =>
              simp only [id, hos] at h
              cases h
              rw [List.map_cons, ih hos]

theorem mapM_id_map_ok {ε α : Type} (as : List α) :
    (as.map Except.ok).mapM id = (.ok as : Except ε (List α)) := by
  induction as with
  | nil => rfl
  | cons a as ih =>
      rw [List.map_cons, List.mapM_cons]
      simp only [id] at ih ⊢
      rw [ih]
      rfl

/-- Place by place, what a successful `mapM` made of a list. -/
theorem forall₂_mapM {ε α β : Type} {f : α → Except ε β}
    {R : α → β → Prop} (hf : ∀ a b, f a = .ok b → R a b) :
    ∀ {xs : List α} {ys : List β}, xs.mapM f = .ok ys →
      List.Forall₂ R xs ys := by
  intro xs
  induction xs with
  | nil =>
      intro ys h
      cases h
      exact .nil
  | cons x xs ih =>
      intro ys h
      rw [List.mapM_cons] at h
      cases hx : f x with
      | error e =>
          rw [hx] at h
          cases h
      | ok y =>
          rw [hx] at h
          cases hxs : xs.mapM f with
          | error e =>
              rw [hxs] at h
              cases h
          | ok ys' =>
              rw [hxs] at h
              cases h
              exact .cons (hf x y hx) (ih hxs)

-- ============================================================== resolution

theorem resolve_ok : ∀ {ms : List VectorMatch} {tr : List (Event sig)}
    {rs : List (Candidate × Rat)},
    Ran (machine env) (resolve t ms) w tr (some (.ok rs)) w' →
    rs = ms.filterMap (found w t) := by
  intro ms
  induction ms with
  | nil =>
      intro tr rs h
      obtain ⟨-, hr, -⟩ := Ran.ret_iff.mp h
      cases hr
      rfl
  | cons m ms ih =>
      intro tr rs h
      cases htext : idText m with
      | none =>
          rw [resolve_skip htext] at h
          rw [List.filterMap_cons_none (found_none_of_idText htext)]
          exact ih h
      | some text =>
          cases hc : UUID.parse text with
          | none =>
              rw [resolve_malformed htext hc] at h
              obtain ⟨-, hr, -⟩ := Ran.raise_iff.mp h
              cases hr
          | some c =>
              rw [resolve_lookup htext hc] at h
              obtain ⟨o, tr₁, w₁, tr₂, -, hget, hrest⟩ := h.bind_ok
              obtain ⟨ho, rfl⟩ := lookup_ok hget
              have hfound := found_of_parse (w := w₁) (t := t) htext hc
              rw [← ho] at hfound
              cases o with
              | none =>
                  rw [List.filterMap_cons_none hfound]
                  exact ih hrest
              | some candidate =>
                  rw [List.filterMap_cons_some hfound]
                  obtain ⟨rest, tr₃, w₂, tr₄, -, hms, hret⟩ := hrest.bind_ok
                  obtain ⟨-, hr, rfl⟩ := Ran.ret_iff.mp hret
                  cases hr
                  rw [ih hms]

-- ============================================================== evaluation

/-- A question to the language model. -/
def isExplain : Act → Bool
  | .explainMatch _ => true
  | _ => false

theorem explain_same : ∀ (e : Act) (a : e.Ans) (w : World),
    isExplain e = true → ((machine env).perform e a w).2 = w := by
  intro e a w he
  cases e with
  | explainMatch prompt =>
      cases (a : Except LibraryError MatchExplanation) <;> rfl
  | _ => cases he

theorem uses_evaluate (r : Candidate × Rat) :
    (evaluate job r).Uses fun e => isExplain e = true := by
  refine uses_bind ?_ fun _ => trivial
  rw [uses_perform]
  rfl

theorem uses_evaluateAll (rs : List (Candidate × Rat)) :
    (evaluateAll picks job rs).Uses fun e => isExplain e = true :=
  uses_bind (uses_poolMap uses_evaluate picks rs)
    fun _ => uses_ofExcept _ _

/-- One evaluation is one call, about that candidate. -/
theorem evaluate_ran {r : Candidate × Rat} {o : Except Exn Evaluation}
    (h : Ran (machine env) (evaluate job r) w tr (some o) w') :
    (∃ m, o = .ok ⟨r.1, r.2, m⟩
        ∧ tr = [⟨.explainMatch (matchPrompt job r.1), .ok m⟩])
      ∨ ∃ x, o = .error x
        ∧ tr = [⟨.explainMatch (matchPrompt job r.1), .error x⟩] := by
  rcases h.bind_done with ⟨m, tr₁, w₁, tr₂, rfl, hcall, hret⟩ | ⟨x, ho, hcall⟩
  · obtain ⟨a, -, rfl, -, -⟩ := hcall.perform_ok
    obtain ⟨rfl, ho, -⟩ := Ran.ret_iff.mp hret
    exact .inl ⟨m, Option.some.inj ho, rfl⟩
  · rcases hcall.perform with ⟨-, hr, -⟩ | ⟨a, -, htr, hr, -⟩
    · cases hr
    · rw [← Option.some.inj hr] at htr
      exact .inr ⟨x, ho, htr⟩

/-- The pool's answers stand with the candidates they were given for. -/
theorem evaluateAll_ok {rs : List (Candidate × Rat)} {es : List Evaluation}
    (h : Ran (machine env) (evaluateAll picks job rs) w tr
      (some (.ok es)) w') :
    es.map (fun e => (e.candidate, e.vectorScore)) = rs
      ∧ (∀ e ∈ es, (⟨.explainMatch (matchPrompt job e.candidate),
          .ok e.explanation⟩ : Event sig) ∈ tr)
      ∧ ∀ prompt x, (⟨.explainMatch prompt, .error x⟩ : Event sig) ∉ tr := by
  obtain ⟨os, tr₁, w₁, tr₂, rfl, hpool, hend⟩ := h.bind_ok
  obtain ⟨rfl, hr, -⟩ := Ran.ofExcept_iff.mp hend
  obtain ⟨os', hos, hall⟩ := hpool.poolMap
  cases hos
  obtain rfl := mapM_id_ok (Option.some.inj hr).symm
  rw [List.append_nil]
  have hplaces : List.Forall₂ (fun r e => (e.candidate, e.vectorScore) = r
      ∧ (⟨.explainMatch (matchPrompt job e.candidate),
        .ok e.explanation⟩ : Event sig) ∈ tr₁) rs es := by
    refine (List.forall₂_map_right_iff.mp hall.outcomes).imp ?_
    rintro r e ⟨w₀, tr₀, w₂, hsub, hrun⟩
    rcases evaluate_ran hrun with ⟨m, he, htr⟩ | ⟨x, he, -⟩
    · cases he
      refine ⟨rfl, hsub ?_⟩
      rw [htr]
      exact List.mem_singleton_self _
    · cases he
  refine ⟨?_, ?_, ?_⟩
  · rw [← List.forall₂_eq_eq_eq, List.forall₂_map_left_iff]
    exact (hplaces.imp fun _ _ h => h.1).flip
  · intro e he
    obtain ⟨i, hi, rfl⟩ := List.getElem_of_mem he
    have hlen := hplaces.length_eq
    exact ((List.forall₂_iff_get.mp hplaces).2 i (by omega) hi).2
  · intro prompt x hx
    obtain ⟨o, ho, r, w₀, tr₀, w₂, hin, hrun⟩ := hall.events _ hx
    obtain ⟨e, -, rfl⟩ := List.mem_map.mp ho
    rcases evaluate_ran hrun with ⟨m, -, htr⟩ | ⟨y, he, -⟩
    · rw [htr, List.mem_singleton] at hin
      cases hin
    · cases he

-- ============================================================= the shortlist

theorem rankedCandidate_shows {x : Evaluation × Nat} {c : RankedCandidate}
    (h : rankedCandidate x = .ok c) : Shows x c := by
  obtain ⟨e, rank⟩ := x
  unfold rankedCandidate at h
  cases hname : e.candidate.fullName with
  | none => simp [hname] at h
  | some name =>
      simp only [hname, Except.ok.injEq] at h
      subst h
      exact ⟨rfl, hname.symm, rfl, rfl, rfl, rfl, rfl⟩

/-- The row `matchRecord` inserts. -/
def matchRow (job : Job) (x : Evaluation × Nat) : MatchResult where
  candidateId := x.1.candidate.id
  jobId := job.id
  vectorScore := x.1.vectorScore
  llmScore := x.1.explanation.score
  rank := x.2
  explanation := x.1.explanation.summary

/-- The rows of a shortlist. -/
def matchRows (job : Job) (short : List (Evaluation × Nat)) :
    List MatchResult :=
  short.map (matchRow job)

theorem matchRecord_eq (x : Evaluation × Nat) :
    matchRecord job x = .insertMatchResult (matchRow job x) := rfl

theorem Shows.saves {x : Evaluation × Nat} {c : RankedCandidate}
    (h : Shows x c) : Saves job c (matchRow job x) :=
  ⟨h.candidate.symm, rfl, h.score.symm, h.rank.symm, h.summary.symm⟩

/-- The rows of a shortlist go in at the end, all of them. -/
theorem writeAll_matchRecord : ∀ {xs : List (Evaluation × Nat)} {db db' : Db},
    db.writeAll (xs.map (matchRecord job)) = some db' →
    db' = { db with matchResults := db.matchResults ++ matchRows job xs } := by
  intro xs
  unfold matchRows
  induction xs with
  | nil =>
      intro db db' h
      cases h
      simp
  | cons x xs ih =>
      intro db db' h
      rw [List.map_cons, matchRecord_eq] at h
      unfold Db.writeAll at h
      cases hrow : db.write (.insertMatchResult (matchRow job x)) with
      | none =>
          rw [hrow] at h
          cases h
      | some db₁ =>
          rw [hrow] at h
          rw [ih h]
          unfold Db.write at hrow
          by_cases hs : storable (matchRow job x).explanation = true
          · simp only [hs, if_true, Option.some.injEq] at hrow
            subst hrow
            simp
          · simp [hs] at hrow

theorem ranks_of_shown : ∀ {kept : List Evaluation} {n : Nat}
    {ranked : List RankedCandidate},
    List.Forall₂ Shows (kept.zipIdx n) ranked →
    ranked.map RankedCandidate.rank = List.range' n ranked.length := by
  intro kept
  induction kept with
  | nil =>
      intro n ranked h
      cases h
      rfl
  | cons e kept ih =>
      intro n ranked h
      rw [List.zipIdx_cons] at h
      cases h with
      | cons hx hrest =>
          rw [List.map_cons, List.length_cons, List.range'_succ, hx.rank,
            ih hrest]

-- ================================================================ the commit

/-- The run tries to commit. -/
def TriesCommit (tr : List (Event sig)) : Prop :=
  ∃ pending reply, (⟨.commit pending, reply⟩ : Event sig) ∈ tr

theorem uses_saveShortlist (es : List Evaluation) :
    (saveShortlist env job topN es).Uses fun e => isExplain e = false := by
  refine uses_bind (uses_ofExcept _ _) fun ranked => uses_bind ?_ fun _ => trivial
  rw [uses_perform]
  rfl

/-- How the last phase goes: it raises over an entry and nothing is
committed, or every entry is built and their rows are. -/
theorem saveShortlist_ran {es : List Evaluation}
    {r : Except Exn (List RankedCandidate)}
    (h : Ran (machine env) (saveShortlist env job topN es) w tr (some r) w') :
    (tr = [] ∧ w' = w ∧ ∃ x, r = .error x)
      ∨ TriesCommit tr ∧ ∃ short ranked,
        short = shortlist es (Py.orInt topN env.rankingTopN)
        ∧ short.mapM rankedCandidate = .ok ranked
        ∧ ∀ ranked', r = .ok ranked' → ranked' = ranked ∧ w'.db = { w.db with
          matchResults := w.db.matchResults ++ matchRows job short } := by
  unfold saveShortlist at h
  generalize hshort : shortlist es (Py.orInt topN env.rankingTopN) = short at h ⊢
  cases hm : short.mapM rankedCandidate with
  | error x =>
      simp only [hm, bind_eq, Prog.ofExcept, raise_bind] at h
      obtain ⟨rfl, hr, rfl⟩ := Ran.raise_iff.mp h
      exact .inl ⟨rfl, rfl, x, Option.some.inj hr⟩
  | ok ranked =>
      simp only [hm, bind_eq, Prog.ofExcept, ret_bind] at h
      rcases h.bind_done with
        ⟨u, tr₁, w₁, tr₂, rfl, hcommit, hret⟩ | ⟨x, hr, hcommit⟩
      · obtain ⟨a, -, rfl, hok, rfl⟩ := hcommit.perform_ok
        obtain ⟨rfl, hr, rfl⟩ := Ran.ret_iff.mp hret
        cases hr
        refine .inr ⟨⟨_, _, List.mem_singleton_self _⟩, short, ranked, rfl, hm, ?_⟩
        intro ranked' hr'
        cases hr'
        obtain ⟨db, hdb, hw⟩ := commit_ok hok
        refine ⟨rfl, ?_⟩
        rw [show ((machine env).perform _ a w).2 = _ from hw]
        exact writeAll_matchRecord hdb
      · rcases hcommit.perform with ⟨-, hr', -⟩ | ⟨a, -, rfl, -, -⟩
        · cases hr'
        · refine .inr ⟨⟨_, _, List.mem_singleton_self _⟩, short, ranked, rfl, hm, ?_⟩
          intro ranked' hok
          rw [hr] at hok
          cases hok

-- =============================================================== the ranking

theorem resolving_commits_not {r : Option (Except Exn (List (Candidate × Rat)))}
    (h : Ran (machine env) (resolve t ms) w tr r w') : ¬ TriesCommit tr := by
  rintro ⟨pending, reply, hin⟩
  exact absurd (resolve_lookups h _ hin) (by simp [isLookup])

theorem evaluating_commits_not {rs : List (Candidate × Rat)}
    {r : Option (Except Exn (List Evaluation))}
    (h : Ran (machine env) (evaluateAll picks job rs) w tr r w') :
    ¬ TriesCommit tr := by
  rintro ⟨pending, reply, hin⟩
  exact absurd (h.uses (uses_evaluateAll rs) _ hin) (by simp [isExplain])

/-- What a finished run of a ranking comes to: a returned ranking is
right and saved; a run that tries to commit had every evaluation answer
and every entry built; a run that does not leaves everything alone. -/
structure Correct (env : Env) (w : World) (t : UUID) (job : Job)
    (topN : Option Int) (ms : List VectorMatch) (tr : List (Event sig))
    (r : Except Exn ScreeningResponse) (w' : World) : Prop where
  returned : ∀ resp, r = .ok resp → ∃ es kept left rows,
    Ranking w t job ms tr resp.rankedCandidates w' es kept left rows
  committing : TriesCommit tr →
    (∀ prompt x, (⟨.explainMatch prompt, .error x⟩ : Event sig) ∉ tr)
      ∧ ∃ es ranked, Judged w t job ms tr es
        ∧ (shortlist es (Py.orInt topN env.rankingTopN)).mapM rankedCandidate
          = .ok ranked
  raising : ¬ TriesCommit tr → (∃ x, r = .error x) ∧ w' = w

theorem Correct.stopped {x : Exn} (hno : ¬ TriesCommit tr) :
    Correct env w t job topN ms tr (.error x) w where
  returned _ h := nomatch h
  committing h := absurd h hno
  raising _ := ⟨⟨x, rfl⟩, rfl⟩

/-- The rows of every entry built are a ranking's. -/
theorem ranking_of_saved {es : List Evaluation}
    {short : List (Evaluation × Nat)} {ranked : List RankedCandidate}
    {n : Int} (hjudged : Judged w t job ms tr es)
    (hshort : short = shortlist es n)
    (hm : short.mapM rankedCandidate = .ok ranked)
    (hdb : w'.db = { w.db with
      matchResults := w.db.matchResults ++ matchRows job short }) :
    ∃ es kept left rows, Ranking w t job ms tr ranked w' es kept left rows := by
  obtain ⟨left, hleft⟩ := takeTo_append (byScore es) n
  have hsorted : Stable llmScore es (Py.takeTo (byScore es) n ++ left) := by
    rw [hleft]
    exact stable_mergeSort llmScore es
  have hshown : List.Forall₂ Shows
      ((Py.takeTo (byScore es) n).zipIdx 1) ranked := by
    rw [hshort] at hm
    exact forall₂_mapM (fun _ _ => rankedCandidate_shows) hm
  refine ⟨es, Py.takeTo (byScore es) n, left, matchRows job short, ?_⟩
  constructor
  · exact hjudged
  · exact hsorted
  · exact hshown
  · exact ranks_of_shown hshown
  · exact (List.pairwise_append.mp hsorted.sorted).2.2
  · rw [hshort]
    apply List.forall₂_map_right_iff.mpr
    exact (hshown.imp fun _ _ h => h.saves).flip
  · exact hdb

/-- The last phase, behind a trace in which every evaluation answered and
nothing was committed. -/
theorem Correct.of_evaluated {es : List Evaluation} {tr₀ : List (Event sig)}
    {r : Except Exn (List RankedCandidate)}
    (hjudged : ∀ tr, Judged w t job ms (tr₀ ++ tr) es)
    (hno : ¬ TriesCommit tr₀)
    (hanswered : ∀ prompt x,
      (⟨.explainMatch prompt, .error x⟩ : Event sig) ∉ tr₀)
    (hsave : Ran (machine env) (saveShortlist env job topN es) w tr
      (some r) w') :
    Correct env w t job topN ms (tr₀ ++ tr)
      (r.map fun ranked => ⟨job.id, job.title, ms.length, ranked⟩) w' := by
  have hquiet : ∀ prompt x,
      (⟨.explainMatch prompt, .error x⟩ : Event sig) ∉ tr₀ ++ tr := by
    intro prompt x hin
    rcases List.mem_append.mp hin with hin | hin
    · exact hanswered prompt x hin
    · exact absurd (hsave.uses (uses_saveShortlist es) _ hin) (by simp [isExplain])
  rcases saveShortlist_ran hsave with
    ⟨rfl, rfl, x, rfl⟩ | ⟨⟨pending, reply, hin⟩, short, ranked, hshort, hm, hok⟩
  · rw [List.append_nil]
    exact .stopped hno
  · constructor
    · intro resp hresp
      cases r with
      | error x => cases hresp
      | ok ranked' =>
          cases hresp
          obtain ⟨rfl, hdb⟩ := hok _ rfl
          exact ranking_of_saved (hjudged tr) hshort hm hdb
    · rw [hshort] at hm
      exact fun _ => ⟨hquiet, es, ranked, hjudged tr, hm⟩
    · exact fun hnot => absurd ⟨pending, reply, by simp [hin]⟩ hnot

/-- A ranking that evaluates its candidates one at a time and returns is
one by a pool whose tasks complete in order. -/
theorem pooled_of_sequential {topK : Option Int} {resp : ScreeningResponse}
    (h : Ran (machine env) (rankCandidatesForJob env t job topK topN) w tr
      (some (.ok resp)) w') :
    ∃ tr', Ran (machine env) (rankCandidatesPooled env [] t job topK topN) w
      tr' (some (.ok resp)) w' := by
  obtain ⟨ms, tr₁, w₁, tr₂, -, hquery, h⟩ := h.bind_ok
  obtain ⟨rs, tr₃, w₂, tr₄, -, hres, h⟩ := h.bind_ok
  obtain ⟨es, tr₅, w₃, tr₆, -, heval, h⟩ := h.bind_ok
  obtain ⟨ranked, tr₇, w₄, tr₈, -, hrank, h⟩ := h.bind_ok
  obtain ⟨u, tr₉, w₅, tr₁₀, -, hcommit, h⟩ := h.bind_ok
  have hall : Ran (machine env) (evaluateAll [] job rs) w₂ (tr₅ ++ [])
      (some (.ok es)) w₃ := by
    refine heval.mapEach_ok.seq ?_
    rw [mapM_id_map_ok]
    exact .ret
  have hsave : Ran (machine env) (saveShortlist env job topN es) w₃
      (tr₇ ++ (tr₉ ++ [])) (some (.ok ranked)) w₅ :=
    hrank.seq (hcommit.seq .ret)
  exact ⟨_, hquery.seq (hres.seq (hall.seq (hsave.seq h)))⟩

-- ================================================================= a sample

/-- A candidate created for the sample tenant. -/
def shelf : World :=
  (reached (.spawn (.createCandidate sampleTenant { fullName := "Ada" })
    :: steps 0 7) (by decide +kernel)).world

def sampleJob : Job :=
  createdJob sampleTenant ⟨"Engineer", none, "Builds APIs.", [], []⟩
    (UUID.ofNat 2) .epoch

/-- The candidate, as a query finds it. -/
def sampleFound : List VectorMatch := [⟨some (UUID.ofNat 0).str, 1⟩]

/-- The evaluation of the candidate, under the sample oracle's answer. -/
def sampleEvaluation : Evaluation where
  candidate := { createdCandidate sampleTenant { fullName := "Ada" }
    (UUID.ofNat 0) .epoch with
    pineconeId := some (candidateVectorId (UUID.ofNat 0).str) }
  vectorScore := 1
  explanation := ⟨50, [], [], "fair"⟩

/-- A ranking of one candidate by a pool of one task. -/
theorem sample_ranked : ∃ tr resp w',
    Ran (machine sampleEnv) (rankMatches sampleEnv [0] sampleTenant sampleJob
      none sampleFound) shelf tr (some (.ok resp)) w'
    ∧ resp.rankedCandidates.length = 1 := by
  obtain ⟨tr₁, w₁, hres⟩ : ∃ tr w', Ran (machine sampleEnv)
      (resolve sampleTenant sampleFound) shelf tr
      (some (.ok [(sampleEvaluation.candidate, 1)])) w' := by
    refine Ran.exists_of_run (O := sampleOracle) (n := 0) ?_ ?_ <;>
      decide +kernel
  obtain rfl := resolve_same hres
  obtain ⟨tr₂, w₂, heval⟩ : ∃ tr w', Ran (machine sampleEnv)
      (evaluateAll [0] sampleJob [(sampleEvaluation.candidate, 1)]) shelf tr
      (some (.ok [sampleEvaluation])) w' := by
    refine Ran.exists_of_run (O := sampleOracle) (n := 0) ?_ ?_ <;>
      decide +kernel
  obtain rfl := heval.same_world (uses_evaluateAll _) explain_same
  have hshort : shortlist [sampleEvaluation] 5 = [(sampleEvaluation, 1)] := by
    unfold shortlist byScore
    rw [List.mergeSort_singleton]
    rfl
  obtain ⟨tr₃, w₃, hsave⟩ : ∃ tr w', Ran (machine sampleEnv)
      (saveShortlist sampleEnv sampleJob none [sampleEvaluation]) shelf tr
      (some (.ok [⟨UUID.ofNat 0, "Ada", 1, 50, 1, "fair", [], []⟩])) w' := by
    unfold saveShortlist
    simp only [show Py.orInt none sampleEnv.rankingTopN = 5 from rfl, hshort]
    refine Ran.exists_of_run (O := sampleOracle) (n := 0) ?_ ?_ <;>
      decide +kernel
  exact ⟨_, _, _, hres.seq (heval.seq (hsave.seq .ret)), rfl⟩

end ResumeScreening.Screening
