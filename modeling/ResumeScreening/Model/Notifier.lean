/-
The downstream notifier, infra/terraform/lambda/notifier/handler.py, and
the stream of the status table it is fed from (dynamodb.tf: new and old
images).

An item of the table is what `_mark_status` sets: a status and the
instant of the write. The instant is text from outside.
-/
import ResumeScreening.Lib.Changes
import ResumeScreening.Model.World

namespace ResumeScreening

-- =================================================================== records

/-- An attribute value: a dict from a type tag to a value. -/
abbrev AttributeValue : Type := List (String × JsonValue)

abbrev Image : Type := List (String × AttributeValue)

/-- `record["dynamodb"]`. -/
structure StreamData where
  newImage : Option Image := none
  oldImage : Option Image := none
deriving DecidableEq

structure StreamRecord where
  eventName : Option String := none
  dynamodb : Option StreamData := none
deriving DecidableEq

structure StreamEvent where
  records : Option (List StreamRecord) := none
deriving DecidableEq

-- =================================================================== handler

/-- `((_, value),) = typed_value.items()`. -/
def unwrap : AttributeValue → Except Exn JsonValue
  | [(_, value)] => .ok value
  | [] => .error (.valueError "not enough values to unpack (expected 1, got 0)")
  | _ => .error (.valueError "too many values to unpack (expected 1)")

/-- `_deserialize`. -/
def deserialize (image : Image) : Except Exn (List (String × JsonValue)) :=
  image.mapM fun (key, typedValue) => do
    let value ← unwrap typedValue
    return (key, value)

/-- What one record logs, if it is counted: the candidate it names. -/
def finishedBy (record : StreamRecord) :
    Except Exn (Option (Option JsonValue)) :=
  if record.eventName = some "INSERT" ∨ record.eventName = some "MODIFY" then
    match record.dynamodb.bind StreamData.newImage with
    | none => .ok none
    | some [] => .ok none
    | some newImage => do
        let item ← deserialize newImage
        if item.lookup "status" = some (.text "ai-processed") then
          return some (item.lookup "candidate_id")
        else return none
  else .ok none

/-- What a call returns, with the candidates it logs as finished. -/
structure Notified where
  processed : Nat
  finished : List (Option JsonValue)
deriving DecidableEq

/-- The loop of `handler`. -/
def handleRecords : List StreamRecord → Notified → Except Exn Notified
  | [], acc => .ok acc
  | record :: records, acc => do
      match ← finishedBy record with
      | none => handleRecords records acc
      | some candidateId =>
          handleRecords records
            ⟨acc.processed + 1, acc.finished ++ [candidateId]⟩

def handler (event : StreamEvent) : Except Exn Notified :=
  handleRecords (event.records.getD []) ⟨0, []⟩

-- ==================================================================== stream

/-- The attributes `_mark_status` sets. -/
structure StatusItem where
  status : String
  updatedAt : String
deriving DecidableEq

def StatusItem.image (candidateId : String) (item : StatusItem) : Image :=
  [("candidate_id", [("S", .text candidateId)]),
    ("status", [("S", .text item.status)]),
    ("updated_at", [("S", .text item.updatedAt)])]

/-- The record the stream carries of a change. -/
def streamRecord (c : Feed.Change String StatusItem) : StreamRecord where
  eventName := some (if c.old.isSome then "MODIFY" else "INSERT")
  dynamodb := some {
    newImage := some (c.new.image c.key)
    oldImage := c.old.map (StatusItem.image c.key) }

end ResumeScreening
