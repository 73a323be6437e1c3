/-
The ingestion worker, app/worker.py.

`run` polls forever: its body is one pass, a receive call and the
handling of each message it returned, and a `Service` starts it over
each time it returns. An exception that escapes the pass ends the
process.
-/
import ResumeScreening.Model.Candidates

namespace ResumeScreening

/-- `_mark_status`, up to its `updated_at`. -/
def markStatus (candidateId status : String) : Py Unit :=
  call (.updateItem candidateId status)

/-- `json.loads(message["Body"])`, as far as `_process_message` reads
it: an object's fields, or `none` for a value that is not an object. -/
def jsonLoads : Body → Except Exn (Option (List (String × JsonValue)))
  | .malformed => .error (.valueError "JSONDecodeError")
  | .object fields => .ok (some fields)
  | .value => .ok none

/-- `body[key]`. -/
def item (body : Option (List (String × JsonValue))) (key : String) :
    Except Exn JsonValue :=
  match body with
  | none => .error (.external "TypeError")
  | some fields =>
      match fields.lookup key with
      | some v => .ok v
      | none => .error (.keyError key)

/-- A value where a client library insists on a string. -/
def asText : JsonValue → Except Exn String
  | .text s => .ok s
  | .other => .error (.external "TypeError")

/-- `UUID(value)` at a JSON value. -/
def jsonUuid (value : JsonValue) : Py UUID := do
  let text ← Effect.Prog.ofExcept (asText value)
  uuid text

def processMessage (env : Env)
    (body : Option (List (String × JsonValue))) : Py Unit := do
  let candidateId ← Effect.Prog.ofExcept (item body "candidate_id")
  let tenantId ← Effect.Prog.ofExcept (item body "tenant_id")
  let bucket ← Effect.Prog.ofExcept (item body "s3_bucket")
  let key ← Effect.Prog.ofExcept (item body "s3_key")
  let bucketName ← Effect.Prog.ofExcept (asText bucket)
  let keyName ← Effect.Prog.ofExcept (asText key)
  let fileBytes ← call (.getObject bucketName keyName)
  let tenant ← jsonUuid tenantId
  let candidate ← jsonUuid candidateId
  processPendingCandidate env tenant candidate fileBytes
  let candidateText ← Effect.Prog.ofExcept (asText candidateId)
  markStatus candidateText "ai-processed"

/-- The `except` branches of `run`. A bad resume is discarded; every
other failure leaves the message to the queue's redelivery. -/
def handleFailure (receiptHandle : Nat) : Exn → Py Unit
  | .resumeContent _ => do
      call (.deleteMessage receiptHandle)
      call (.countOutcome .contentError)
  | .resumeParserUnavailable _ => call (.countOutcome .transientError)
  | .vectorIndexing _ => call (.countOutcome .transientError)
  | _ => call (.countOutcome .unexpectedError)

/-- One message of a batch. -/
def handleMessage (env : Env) (message : Message) : Py Unit :=
  Effect.Prog.handle (do
    let body ← Effect.Prog.ofExcept (jsonLoads message.body)
    processMessage env body
    call (.deleteMessage message.receiptHandle)
    call (.countOutcome .success))
  (handleFailure message.receiptHandle)

/-- One pass of `run`. -/
def run (env : Env) : Py Unit := do
  let messages ← call .receiveMessage
  Effect.Prog.forEach (handleMessage env) messages

end ResumeScreening
