/-
The candidate paths: app/repositories/candidate_repository.py,
app/services/candidate_service.py with the services it calls
(embeddings.py, ingestion.py, resume_parser.py), and the error mapping
of app/routers/candidates.py.

Two ways in. `createCandidate` stores a parsed candidate and indexes it
in one request. `enqueueResumeUpload` commits a placeholder row and
publishes a message; `processPendingCandidate`, run by the worker,
fills the row in.

A session's objects are values here, and the statements it has pending
are the list it commits. After a commit SQLAlchemy expires the object,
so the columns assigned later are all written, whatever they were; a
column assigned before any expiry is written only if it changes
(`setStatus`).
-/
import ResumeScreening.Model.Prompts

namespace ResumeScreening

open Py (DateTime)

/-- Perform one action. -/
abbrev call (e : Act) : Py e.Ret := Effect.Prog.perform (S := sig) e

/-- Raise an exception. -/
abbrev raise {α : Type} (x : Exn) : Py α := Effect.Prog.raise x

/-- `UUID(text)`. -/
def uuid (text : String) : Py UUID :=
  match UUID.parse text with
  | some u => pure u
  | none => raise (.valueError "badly formed hexadecimal UUID string")

-- ============================================================ repositories

namespace CandidateRepository

/-- `add`: flushing the INSERT draws the row's id and reads the server
default of `created_at`. -/
def add (row : UUID → DateTime → Candidate) : Py Candidate := do
  let id ← call .uuid4
  let createdAt ← call .transactionNow
  call (.flush [.insertCandidate (row id createdAt)])
  return row id createdAt

def getById (tenantId candidateId : UUID) : Py (Option Candidate) :=
  call (.selectCandidate tenantId candidateId)

def listAll (tenantId : UUID) : Py (List Candidate) :=
  call (.selectCandidates tenantId)

end CandidateRepository

-- ============================================================== embeddings

/-- The id of a candidate's vector. -/
def candidateVectorId (candidateId : String) : String :=
  "candidate-" ++ candidateId

/-- What `VectorStore.upsert_candidate` stores. -/
def candidateVector (candidateId : String) (vector : List Rat)
    (metadata : List (String × String)) : VectorRecord where
  id := candidateVectorId candidateId
  values := vector
  metadata := metadata ++ [("type", "candidate"),
    ("candidate_id", candidateId)]

def upsertCandidate (candidateId text : String)
    (metadata : List (String × String)) (namespc : String) : Py String := do
  let vector ← call (.embedQuery text)
  call (.upsert namespc (candidateVector candidateId vector metadata))
  return candidateVectorId candidateId

-- ================================================================ indexing

def candidateIndexError : Exn :=
  .vectorIndexing
    "Candidate could not be indexed. Check Ollama and Pinecone configuration."

/-- `_index_candidate`. `pending` is what the session still has to
write for the candidate; a failure rolls the session back, which drops
it. -/
def indexCandidate (tenantId : UUID) (candidate : Candidate)
    (pending : Candidate → List Write) : Py Candidate :=
  Effect.Prog.handle (do
    let pineconeId ← upsertCandidate candidate.id.str
      (buildCandidateEmbedText candidate)
      [("full_name", Py.optOr candidate.fullName "")] tenantId.str
    call (.commit (pending { candidate with pineconeId := some pineconeId }))
    call (.refreshCandidate candidate.id))
  fun _ => raise candidateIndexError

-- ============================================================ create, list

/-- The row `create_candidate` inserts; its status is the column's
default, `processed`. -/
def createdCandidate (tenantId : UUID) (payload : CandidateCreate)
    (id : UUID) (createdAt : DateTime) : Candidate where
  id := id
  tenantId := tenantId
  fullName := some payload.fullName
  email := payload.email
  phone := payload.phone
  summary := payload.summary
  skills := payload.skills
  experience := payload.experience.map ExperienceEntry.modelDump
  education := payload.education.map EducationEntry.modelDump
  rawText := payload.rawText
  createdAt := createdAt

def createCandidate (tenantId : UUID) (payload : CandidateCreate) :
    Py Candidate := do
  let candidate ← CandidateRepository.add (createdCandidate tenantId payload)
  indexCandidate tenantId candidate fun c => [.insertCandidate c]

def listCandidates (tenantId : UUID) : Py (List Candidate) :=
  CandidateRepository.listAll tenantId

def getCandidate (tenantId candidateId : UUID) : Py Candidate := do
  match ← CandidateRepository.getById tenantId candidateId with
  | some candidate => return candidate
  | none => raise (.resourceNotFound "Candidate not found")

-- ================================================================== upload

/-- The S3 key of an upload. -/
def uploadKey (candidateId : UUID) : String :=
  "uploads/" ++ candidateId.str ++ ".pdf"

/-- The `resume-uploaded` message. -/
def uploadBody (env : Env) (tenantId candidateId : UUID) : Body :=
  .object [("candidate_id", .text candidateId.str),
    ("tenant_id", .text tenantId.str),
    ("s3_bucket", .text env.s3BucketName),
    ("s3_key", .text (uploadKey candidateId))]

def uploadResumeAndEnqueue (env : Env) (candidateId tenantId : UUID)
    (fileBytes : List UInt8) : Py Unit := do
  call (.putObject env.s3BucketName (uploadKey candidateId) fileBytes)
  call (.sendMessage (uploadBody env tenantId candidateId))

/-- The placeholder row of an upload. -/
def placeholder (tenantId id : UUID) (createdAt : DateTime) : Candidate where
  id := id
  tenantId := tenantId
  status := .pending
  createdAt := createdAt

def enqueueResumeUpload (env : Env) (tenantId : UUID)
    (fileBytes : List UInt8) : Py Candidate := do
  let candidate ← CandidateRepository.add (placeholder tenantId)
  call (.commit [.insertCandidate candidate])
  let refreshed ← call (.refreshCandidate candidate.id)
  uploadResumeAndEnqueue env candidate.id tenantId fileBytes
  return refreshed

-- ================================================================= parsing

/-- `extract_text_from_pdf`. -/
def extractTextFromPdf (env : Env) (fileBytes : List UInt8) :
    Except Exn String :=
  match env.pdfPages fileBytes with
  | .ok pages => .ok (Py.strip (Py.join "\n" pages))
  | .error x => .error x.exn

def parseResumeText (text : String) : Py ParsedResume :=
  call (.parseResume text)

def noTextError : Exn :=
  .valueError
    "Could not extract text from PDF. The file may be scanned or empty."

def parseResumePdf (env : Env) (fileBytes : List UInt8) :
    Py (ParsedResume × String) := do
  let rawText ← Effect.Prog.ofExcept (extractTextFromPdf env fileBytes)
  if rawText = "" then raise noTextError
  let parsed ← parseResumeText rawText
  return (parsed, rawText)

-- ============================================================== processing

/-- `candidate.status = status` before any expiry: no statement where the
loaded row already has it. -/
def setStatus (candidate : Candidate) (status : Status) : List Write :=
  if candidate.status = status then []
  else [.updateCandidate candidate.id { status := some status }]

/-- The candidate's attributes once `process_pending_candidate` has
assigned the answer to them. -/
def filled (candidate : Candidate) (parsed : ParsedResume)
    (rawText : String) : Candidate :=
  { candidate with
    fullName := some parsed.fullName
    email := Py.optTruthy parsed.email
    phone := parsed.phone
    summary := parsed.summary
    skills := parsed.skills
    experience := parsed.experience.map ExperienceEntry.modelDump
    education := parsed.education.map EducationEntry.modelDump
    rawText := some rawText
    status := .processed }

/-- The columns `process_pending_candidate` and `_index_candidate`
assign, as the final UPDATE sets them. -/
def filledPatch (candidate : Candidate) : CandidatePatch where
  fullName := some candidate.fullName
  email := some candidate.email
  phone := some candidate.phone
  summary := some candidate.summary
  skills := some candidate.skills
  experience := some candidate.experience
  education := some candidate.education
  rawText := some candidate.rawText
  pineconeId := some candidate.pineconeId
  status := some candidate.status

def parserUnavailable : Exn :=
  .resumeParserUnavailable ("Resume parser is unavailable. Confirm Ollama "
    ++ "is running and OLLAMA_LLM_MODEL is installed.")

/-- The two `except` branches around `parse_resume_pdf`: a `ValueError`
is permanent, anything else is left to the queue's retry. -/
def parseFailed (candidateId : UUID) : Exn → Py (ParsedResume × String)
  | .valueError msg => do
      call (.commit [.updateCandidate candidateId
        { status := some .failed }])
      raise (.resumeContent msg)
  | _ => raise parserUnavailable

def processPendingCandidate (env : Env) (tenantId candidateId : UUID)
    (fileBytes : List UInt8) : Py Unit := do
  match ← CandidateRepository.getById tenantId candidateId with
  | none => raise (.resourceNotFound "Candidate not found")
  | some candidate =>
      call (.commit (setStatus candidate .processing))
      let (parsed, rawText) ← Effect.Prog.handle
        (parseResumePdf env fileBytes) (parseFailed candidate.id)
      let _ ← indexCandidate tenantId (filled candidate parsed rawText)
        fun c => [.updateCandidate c.id (filledPatch c)]
      return ()

-- ================================================================== router

/-- `POST /candidates/`: an indexing failure is a 502. -/
def createCandidateRoute (tenantId : UUID) (payload : CandidateCreate) :
    Py Candidate :=
  Effect.Prog.handle (createCandidate tenantId payload) fun
    | .vectorIndexing msg => raise (.http 502 msg)
    | x => raise x

/-- `GET /candidates/{id}`: a missing candidate is a 404. -/
def getCandidateRoute (tenantId candidateId : UUID) : Py Candidate :=
  Effect.Prog.handle (getCandidate tenantId candidateId) fun
    | .resourceNotFound msg => raise (.http 404 msg)
    | x => raise x

end ResumeScreening
