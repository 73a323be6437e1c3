/-
The data of the service: the exceptions its code tells apart, the
request payloads and language-model answers (app/models/schemas.py),
and the rows of the database (app/models/db.py).

Only the fields some modelled function reads or writes are here; the
relationship attributes and the `updated_at` columns are not.
-/
import ResumeScreening.Py.Uuid
import ResumeScreening.Py.Builtins

namespace ResumeScreening

open Py (Dict DateTime)

-- ============================================================ exceptions

/-- The exceptions the service's handlers tell apart. `valueError`
stands for `ValueError` and its subclasses, among them pydantic's
`ValidationError` and `json.JSONDecodeError`; `external` for every other
exception a library or a remote service raises. -/
inductive Exn
  | valueError (msg : String)
  | keyError (key : String)
  | resourceNotFound (msg : String)
  | resumeContent (msg : String)
  | resumeParserUnavailable (msg : String)
  | vectorIndexing (msg : String)
  | http (status : Nat) (detail : String)
  | external (msg : String)
deriving DecidableEq

-- =============================================================== payloads

structure ExperienceEntry where
  title : String
  company : String
  startDate : Option String := none
  endDate : Option String := none
  description : Option String := none
deriving DecidableEq

structure EducationEntry where
  degree : String
  institution : String
  graduationYear : Option String := none
deriving DecidableEq

/-- `ExperienceEntry.model_dump()`: every key present, `None` where the
field is unset. -/
def ExperienceEntry.modelDump (e : ExperienceEntry) : Dict :=
  [("title", some e.title), ("company", some e.company),
    ("start_date", e.startDate), ("end_date", e.endDate),
    ("description", e.description)]

/-- `EducationEntry.model_dump()`. -/
def EducationEntry.modelDump (e : EducationEntry) : Dict :=
  [("degree", some e.degree), ("institution", some e.institution),
    ("graduation_year", e.graduationYear)]

/-- `ParsedResume`: the language model's structured answer. -/
structure ParsedResume where
  fullName : String
  email : Option String := none
  phone : Option String := none
  summary : Option String := none
  skills : List String := []
  experience : List ExperienceEntry := []
  education : List EducationEntry := []
deriving DecidableEq

structure CandidateCreate where
  fullName : String
  email : Option String := none
  phone : Option String := none
  summary : Option String := none
  skills : List String := []
  experience : List ExperienceEntry := []
  education : List EducationEntry := []
  rawText : Option String := none
deriving DecidableEq

structure JobCreate where
  title : String
  company : Option String := none
  description : String
  requiredSkills : List String := []
  preferredSkills : List String := []
deriving DecidableEq

structure PlanCreate where
  name : String
  price : Int
  currency : String := "INR"
  monthlyResumeQuota : Option Int := none
  durationMonths : Int := 1
  razorpayPlanId : String
deriving DecidableEq

/-- `MatchExplanation`: the language model's judgement of one candidate.
Scores are rationals: the code compares and copies them. -/
structure MatchExplanation where
  score : Rat
  strengths : List String
  gaps : List String
  summary : String
deriving DecidableEq

structure RankedCandidate where
  candidateId : UUID
  fullName : String
  vectorScore : Rat
  llmScore : Rat
  rank : Nat
  explanation : String
  strengths : List String
  gaps : List String
deriving DecidableEq

structure ScreeningResponse where
  jobId : UUID
  jobTitle : String
  totalCandidatesScreened : Nat
  rankedCandidates : List RankedCandidate
deriving DecidableEq

/-- An uploaded file: its declared type and its bytes. -/
structure UploadFile where
  contentType : String
  bytes : List UInt8
deriving DecidableEq

-- =================================================================== rows

/-- The values of `Candidate.status`. -/
inductive Status
  | pending
  | processing
  | processed
  | failed
deriving DecidableEq

/-- The statuses nothing is meant to follow. -/
def Status.final : Status → Bool
  | .processed => true
  | .failed => true
  | _ => false

structure Candidate where
  id : UUID
  tenantId : UUID
  fullName : Option String := none
  email : Option String := none
  phone : Option String := none
  summary : Option String := none
  skills : List String := []
  experience : List Dict := []
  education : List Dict := []
  rawText : Option String := none
  pineconeId : Option String := none
  status : Status := .processed
  createdAt : DateTime
deriving DecidableEq

structure Job where
  id : UUID
  tenantId : UUID
  title : String
  company : Option String
  description : String
  requiredSkills : List String
  preferredSkills : List String
  pineconeId : Option String := none
  createdAt : DateTime
deriving DecidableEq

structure Plan where
  id : UUID
  name : String
  price : Int
  currency : String
  monthlyResumeQuota : Option Int
  durationMonths : Int
  razorpayPlanId : String
deriving DecidableEq

structure Subscription where
  id : UUID
  tenantId : UUID
  planId : UUID
  status : String
  razorpaySubscriptionId : String
  currentPeriodEnd : Option DateTime := none
deriving DecidableEq

structure MatchResult where
  candidateId : UUID
  jobId : UUID
  vectorScore : Rat
  llmScore : Rat
  rank : Nat
  explanation : String
deriving DecidableEq

end ResumeScreening
