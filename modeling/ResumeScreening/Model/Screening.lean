/-
Ranking with its thread pool: `rank_candidates_for_job` once more, cut
at the query so that a list of matches is an input, and with the
evaluations run by a pool.

`Model/Ranking.lean` takes the evaluations one at a time. Here `picks`
is the order in which the pool's tasks complete, which the code does not
control: `list(pool.map(...))` hands the answers out in the order of the
candidates all the same, and raises the first failure among them.
-/
import ResumeScreening.Lib.Pool
import ResumeScreening.Model.Ranking

namespace ResumeScreening

/-- `list(pool.map(_evaluate, ...))`, zipped with what was resolved. -/
def evaluateAll (picks : List Nat) (job : Job)
    (resolved : List (Candidate × Rat)) : Py (List Evaluation) := do
  let outcomes ← Effect.Prog.poolMap (evaluate job) picks resolved
  Effect.Prog.ofExcept (outcomes.mapM id)

/-- From the sort to the commit. -/
def saveShortlist (env : Env) (job : Job) (topN : Option Int)
    (evaluations : List Evaluation) : Py (List RankedCandidate) := do
  let short := shortlist evaluations (Py.orInt topN env.rankingTopN)
  let ranked ← Effect.Prog.ofExcept (short.mapM rankedCandidate)
  call (.commit (short.map (matchRecord job)))
  return ranked

/-- `rank_candidates_for_job` past its query. -/
def rankMatches (env : Env) (picks : List Nat) (tenantId : UUID) (job : Job)
    (topN : Option Int) (vectorMatches : List VectorMatch) :
    Py ScreeningResponse := do
  let resolved ← resolve tenantId vectorMatches
  let evaluations ← evaluateAll picks job resolved
  let ranked ← saveShortlist env job topN evaluations
  return { jobId := job.id
           jobTitle := job.title
           totalCandidatesScreened := vectorMatches.length
           rankedCandidates := ranked }

def rankCandidatesPooled (env : Env) (picks : List Nat) (tenantId : UUID)
    (job : Job) (topK topN : Option Int) : Py ScreeningResponse := do
  let vectorMatches ← querySimilarCandidates (buildJobEmbedText job)
    tenantId.str (Py.orInt topK env.vectorTopK)
  rankMatches env picks tenantId job topN vectorMatches

end ResumeScreening
