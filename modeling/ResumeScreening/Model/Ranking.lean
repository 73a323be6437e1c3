/-
Ranking a tenant's candidates against a job: app/services/ranking.py,
the query of app/services/embeddings.py and app/routers/screening.py.

The thread pool is not represented: an explanation changes nothing in
the world, and `pool.map` hands the answers, or the first failure, back
in the order of the candidates. Scores are rationals.
-/
import ResumeScreening.Model.Jobs

namespace ResumeScreening

-- ================================================================= query

/-- One entry of `query_similar_candidates`' answer. -/
structure VectorMatch where
  candidateId : Option String
  vectorScore : Rat
deriving DecidableEq

/-- `match.get("score", 0.0)`. -/
def QueryMatch.entry (m : QueryMatch) : VectorMatch :=
  ⟨m.candidateId, m.score.getD 0⟩

def querySimilarCandidates (jobText namespc : String) (topK : Int) :
    Py (List VectorMatch) := do
  let queryVector ← call (.embedQuery jobText)
  let results ← call (.query namespc queryVector topK)
  return List.map QueryMatch.entry results

-- =============================================================== ranking

/-- The candidates a list of matches resolves to. An entry without an id
is skipped, and so is one whose row is not this tenant's. -/
def resolve (tenantId : UUID) :
    List VectorMatch → Py (List (Candidate × Rat))
  | [] => pure []
  | m :: ms => do
      match Py.optTruthy m.candidateId with
      | none => resolve tenantId ms
      | some text =>
          let candidateId ← uuid text
          match ← CandidateRepository.getById tenantId candidateId with
          | none => resolve tenantId ms
          | some candidate =>
              let rest ← resolve tenantId ms
              return (candidate, m.vectorScore) :: rest

/-- A resolved candidate with its two judgements. -/
structure Evaluation where
  candidate : Candidate
  vectorScore : Rat
  explanation : MatchExplanation
deriving DecidableEq

def evaluate (job : Job) (r : Candidate × Rat) : Py Evaluation := do
  let explanation ← call (.explainMatch (matchPrompt job r.1))
  return ⟨r.1, r.2, explanation⟩

/-- `sort(key=score, reverse=True)`: stable, so ties keep their order. -/
def byScore (evaluations : List Evaluation) : List Evaluation :=
  evaluations.mergeSort fun a b =>
    decide (b.explanation.score ≤ a.explanation.score)

/-- `round(x, 4)`: ties go to the even neighbour. -/
def round4 (x : Rat) : Rat :=
  let n := (x * 10000).floor
  let rest := x * 10000 - n
  let up := decide (1 / 2 < rest) || (decide (rest = 1 / 2) && n % 2 == 1)
  (if up then (n + 1 : Rat) else (n : Rat)) / 10000

/-- `RankedCandidate(...)`: `full_name` is a required string. -/
def rankedCandidate : Evaluation × Nat → Except Exn RankedCandidate
  | (e, rank) =>
      match e.candidate.fullName with
      | none => .error (.valueError
          "1 validation error for RankedCandidate: full_name")
      | some fullName => .ok {
          candidateId := e.candidate.id
          fullName := fullName
          vectorScore := round4 e.vectorScore
          llmScore := e.explanation.score
          rank := rank
          explanation := e.explanation.summary
          strengths := e.explanation.strengths
          gaps := e.explanation.gaps }

def matchRecord (job : Job) : Evaluation × Nat → Write
  | (e, rank) => .insertMatchResult {
      candidateId := e.candidate.id
      jobId := job.id
      vectorScore := e.vectorScore
      llmScore := e.explanation.score
      rank := rank
      explanation := e.explanation.summary }

/-- The shortlist with its ranks. -/
def shortlist (evaluations : List Evaluation) (topN : Int) :
    List (Evaluation × Nat) :=
  (Py.takeTo (byScore evaluations) topN).zipIdx 1

/-- A shortlist ranks candidates that were evaluated. -/
theorem mem_shortlist {es : List Evaluation} {topN : Int}
    {x : Evaluation × Nat} (h : x ∈ shortlist es topN) : x.1 ∈ es := by
  have hmem : x.1 ∈ Py.takeTo (byScore es) topN :=
    List.fst_mem_of_mem_zipIdx h
  have hsorted : x.1 ∈ byScore es := by
    unfold Py.takeTo at hmem
    split at hmem
    · exact List.mem_of_mem_take hmem
    · exact List.mem_of_mem_take hmem
  exact List.mem_mergeSort.mp hsorted

def rankCandidatesForJob (env : Env) (tenantId : UUID) (job : Job)
    (topK topN : Option Int) : Py ScreeningResponse := do
  let vectorMatches ← querySimilarCandidates (buildJobEmbedText job)
    tenantId.str (Py.orInt topK env.vectorTopK)
  let resolved ← resolve tenantId vectorMatches
  let evaluations ← Effect.Prog.mapEach (evaluate job) resolved
  let short := shortlist evaluations (Py.orInt topN env.rankingTopN)
  let ranked ← Effect.Prog.ofExcept (short.mapM rankedCandidate)
  call (.commit (short.map (matchRecord job)))
  return { jobId := job.id
           jobTitle := job.title
           totalCandidatesScreened := vectorMatches.length
           rankedCandidates := ranked }

/-- `POST /screening/rank`. -/
def rankCandidatesRoute (env : Env) (tenantId jobId : UUID)
    (topK topN : Option Int) : Py ScreeningResponse := do
  let job ← getJobRoute tenantId jobId
  rankCandidatesForJob env tenantId job topK topN

end ResumeScreening
