/-
The job paths: app/repositories/job_repository.py,
app/services/job_service.py and the error mapping of
app/routers/jobs.py.
-/
import ResumeScreening.Model.Candidates

namespace ResumeScreening

open Py (DateTime)

namespace JobRepository

def add (row : UUID → DateTime → Job) : Py Job := do
  let id ← call .uuid4
  let createdAt ← call .transactionNow
  call (.flush [.insertJob (row id createdAt)])
  return row id createdAt

def getById (tenantId jobId : UUID) : Py (Option Job) :=
  call (.selectJob tenantId jobId)

def listAll (tenantId : UUID) : Py (List Job) := call (.selectJobs tenantId)

end JobRepository

/-- The id of a job's vector. -/
def jobVectorId (jobId : String) : String := "job-" ++ jobId

/-- What `VectorStore.upsert_job` stores. -/
def jobVector (jobId : String) (vector : List Rat)
    (metadata : List (String × String)) : VectorRecord where
  id := jobVectorId jobId
  values := vector
  metadata := metadata ++ [("type", "job"), ("job_id", jobId)]

def upsertJob (jobId text : String) (metadata : List (String × String))
    (namespc : String) : Py String := do
  let vector ← call (.embedQuery text)
  call (.upsert namespc (jobVector jobId vector metadata))
  return jobVectorId jobId

def jobIndexError : Exn :=
  .vectorIndexing
    "Job could not be indexed. Check Ollama and Pinecone configuration."

/-- The row `create_job` inserts. -/
def createdJob (tenantId : UUID) (payload : JobCreate) (id : UUID)
    (createdAt : DateTime) : Job where
  id := id
  tenantId := tenantId
  title := payload.title
  company := payload.company
  description := payload.description
  requiredSkills := payload.requiredSkills
  preferredSkills := payload.preferredSkills
  createdAt := createdAt

/-- `create_job`: unlike a candidate's, the flush is inside the `try`. -/
def createJob (tenantId : UUID) (payload : JobCreate) : Py Job :=
  Effect.Prog.handle (do
    let job ← JobRepository.add (createdJob tenantId payload)
    let pineconeId ← upsertJob job.id.str (buildJobEmbedText job)
      [("title", job.title), ("company", Py.optOr job.company "")]
      tenantId.str
    call (.commit [.insertJob { job with pineconeId := some pineconeId }])
    call (.refreshJob job.id))
  fun _ => raise jobIndexError

def listJobs (tenantId : UUID) : Py (List Job) := JobRepository.listAll tenantId

def getJob (tenantId jobId : UUID) : Py Job := do
  match ← JobRepository.getById tenantId jobId with
  | some job => return job
  | none => raise (.resourceNotFound "Job not found")

/-- `POST /jobs/`: an indexing failure is a 502. -/
def createJobRoute (tenantId : UUID) (payload : JobCreate) : Py Job :=
  Effect.Prog.handle (createJob tenantId payload) fun
    | .vectorIndexing msg => raise (.http 502 msg)
    | x => raise x

/-- `GET /jobs/{id}`, and the lookup in front of a ranking: a missing job
is a 404. -/
def getJobRoute (tenantId jobId : UUID) : Py Job :=
  Effect.Prog.handle (getJob tenantId jobId) fun
    | .resourceNotFound msg => raise (.http 404 msg)
    | x => raise x

end ResumeScreening
