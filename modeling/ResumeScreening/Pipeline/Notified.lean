/-
Downstream is notified once.

A run of the deployment writes statuses, the table's stream carries each
change, and the notifier counts every record whose new status is
`ai-processed`. It does not look at the old one, so what it counts is
writes: a second report of a candidate, at another instant, is a change
and is counted again. Where no report changes an item that is
`ai-processed` already, each candidate is counted at most once
(`notified_once`).
-/
import ResumeScreening.Model.Notifier
import ResumeScreening.Pipeline.Settled
import ResumeScreening.Tenancy.Sound

namespace ResumeScreening.Pipeline

open Effect Feed

variable {env : Env}

-- ================================================================ the statement

/-- The status a step writes, where the write reaches the table. -/
def marks (s : Sys (service env)) :
    Label (service env) → Option (String × String)
  | .act i ans =>
      match s.next? i with
      | some (.updateItem c status) =>
          if Fate.applied (ans (.updateItem c status)) then some (c, status)
          else none
      | _ => none
  | _ => none

/-- The runs from empty stores, with the status table's items and the
changes its stream carries. The instant of a write is the outside's. -/
inductive Watched (env : Env) (ok : Option StatusItem → StatusItem → Prop) :
    Sys (service env) → (String → Option StatusItem) →
    List (Change String StatusItem) → Prop
  | start : Watched env ok (Sys.start (service env) World.empty)
      (fun _ => none) []
  | step {s s' table cs} (l : Label (service env)) :
      Watched env ok s table cs → s.step l = some s' → marks s l = none →
      Watched env ok s' table cs
  | mark {s s' table cs c status} (l : Label (service env))
      (updatedAt : String) : Watched env ok s table cs →
      s.step l = some s' → marks s l = some (c, status) →
      ok (table c) ⟨status, updatedAt⟩ →
      Watched env ok s' (put table c ⟨status, updatedAt⟩)
        (cs ++ changed table c ⟨status, updatedAt⟩)

def finished (item : StatusItem) : Bool := item.status == "ai-processed"

/-- The candidates a series of calls logs as finished. -/
def logged (answers : List Notified) : List (Option JsonValue) :=
  answers.flatMap Notified.finished

/-- Whatever batches the stream's records come in, every call returns, and
each candidate is counted at most once, on its way into `ai-processed`. -/
def NotifiesOnce (cs : List (Change String StatusItem)) : Prop :=
  (∀ batches : List (List StreamRecord),
    batches.flatten.Perm (cs.map streamRecord) →
    ∃ answers, batches.mapM (fun batch => handler ⟨some batch⟩) = .ok answers
      ∧ ∀ c : String, (logged answers).count (some (.text c)) ≤ 1)
  ∧ ∀ c ∈ cs, ∀ id, finishedBy (streamRecord c) = .ok (some id) →
      ∀ item, c.old = some item → finished item = false

-- ==================================================================== the handler

/-- What a record adds to the log of a call that returns. -/
def logs (record : StreamRecord) : Option (Option JsonValue) :=
  match finishedBy record with
  | .ok id => id
  | .error _ => none

/-- The notifier counts a change by its new status alone. -/
theorem finishedBy_stream (c : Change String StatusItem) :
    finishedBy (streamRecord c)
      = .ok (if finished c.new then some (some (.text c.key)) else none) := by
  have hname : (streamRecord c).eventName = some "INSERT"
      ∨ (streamRecord c).eventName = some "MODIFY" := by
    unfold streamRecord
    cases c.old with
    | none => exact .inl rfl
    | some item => exact .inr rfl
  have hstatus : (c.new.status = "ai-processed") ↔ finished c.new = true := by
    unfold finished
    rw [beq_iff_eq]
  unfold finishedBy
  rw [if_pos hname]
  show (if some (JsonValue.text c.new.status) = some (.text "ai-processed")
    then Except.ok (some (some (JsonValue.text c.key))) else .ok none) = _
  by_cases hdone : c.new.status = "ai-processed"
  · rw [if_pos (by rw [hdone]), if_pos (hstatus.mp hdone)]
  · rw [if_neg (by simpa using hdone), if_neg fun h => hdone (hstatus.mpr h)]

/-- A batch of records that can be read is counted record by record. -/
theorem handleRecords_ok {records : List StreamRecord}
    (h : ∀ r ∈ records, finishedBy r = .ok (logs r)) (acc : Notified) :
    handleRecords records acc
      = .ok ⟨acc.processed + (records.filterMap logs).length,
        acc.finished ++ records.filterMap logs⟩ := by
  induction records generalizing acc with
  | nil =>
      unfold handleRecords
      rw [List.filterMap_nil, List.append_nil]
      rfl
  | cons r rs ih =>
      have hrest := ih fun r' hr' => h r' (List.mem_cons_of_mem r hr')
      unfold handleRecords
      rw [h r (List.mem_cons_self ..)]
      cases hr : logs r with
      | none =>
          rw [List.filterMap_cons_none hr]
          exact hrest acc
      | some id =>
          rw [List.filterMap_cons_some hr]
          refine (hrest _).trans ?_
          rw [List.append_assoc, List.length_cons]
          congr 2
          show acc.processed + 1 + _ = acc.processed + _
          omega

/-- A series of such batches logs what its records do. -/
theorem batches_ok {batches : List (List StreamRecord)}
    (h : ∀ r ∈ batches.flatten, finishedBy r = .ok (logs r)) :
    ∃ answers, batches.mapM (fun batch => handler ⟨some batch⟩) = .ok answers
      ∧ logged answers = batches.flatten.filterMap logs := by
  induction batches with
  | nil => exact ⟨[], rfl, rfl⟩
  | cons batch batches ih =>
      simp only [List.flatten_cons, List.mem_append] at h
      obtain ⟨answers, hall, hlog⟩ := ih fun r hr => h r (.inr hr)
      have hone : handler ⟨some batch⟩ = .ok ⟨(batch.filterMap logs).length,
          batch.filterMap logs⟩ := by
        refine (handleRecords_ok (fun r hr => h r (.inl hr)) _).trans ?_
        rw [Nat.zero_add, List.nil_append]
      refine ⟨⟨(batch.filterMap logs).length, batch.filterMap logs⟩ :: answers,
        ?_, ?_⟩
      · rw [List.mapM_cons, hone, hall]
        rfl
      · rw [List.flatten_cons, List.filterMap_append, ← hlog]
        rfl

theorem logs_stream (c : Change String StatusItem) :
    finishedBy (streamRecord c) = .ok (logs (streamRecord c)) := by
  unfold logs
  rw [finishedBy_stream]

/-- How often the records of changes log a candidate. -/
theorem count_logs (cs : List (Change String StatusItem)) (id : String) :
    ((cs.map streamRecord).filterMap logs).count (some (.text id))
      = cs.countP (into finished id) := by
  induction cs with
  | nil => rfl
  | cons c cs ih =>
      have hlogs : logs (streamRecord c)
          = if finished c.new then some (some (.text c.key)) else none := by
        unfold logs
        rw [finishedBy_stream]
      rw [List.map_cons, List.countP_cons, ← ih]
      by_cases hdone : finished c.new = true
      · rw [if_pos hdone] at hlogs
        rw [List.filterMap_cons_some hlogs, List.count_cons]
        simp [into, hdone]
      · rw [if_neg hdone] at hlogs
        rw [List.filterMap_cons_none hlogs]
        simp [into, hdone]

/-- What the notifier makes of a feed. -/
theorem notifiesOnce_of_fed {table : String → Option StatusItem}
    {cs : List (Change String StatusItem)} (h : Fed (Keeps finished) table cs) :
    NotifiesOnce cs := by
  constructor
  · intro batches hperm
    have hread : ∀ r ∈ batches.flatten, finishedBy r = .ok (logs r) := by
      intro r hr
      obtain ⟨c, -, rfl⟩ := List.mem_map.mp (hperm.mem_iff.mp hr)
      exact logs_stream c
    obtain ⟨answers, hall, hlog⟩ := batches_ok hread
    refine ⟨answers, hall, fun id => ?_⟩
    rw [hlog, (hperm.filterMap logs).count_eq, count_logs]
    exact h.once id
  · intro c hc id hid item hitem
    rw [finishedBy_stream] at hid
    refine h.enters c hc ?_ item hitem
    by_cases hdone : finished c.new = true
    · exact hdone
    · rw [if_neg hdone] at hid
      cases hid

-- ======================================================================== runs

/-- The stream of a run is a feed. -/
theorem Watched.fed {ok : Option StatusItem → StatusItem → Prop}
    {s : Sys (service env)} {table : String → Option StatusItem}
    {cs : List (Change String StatusItem)} (h : Watched env ok s table cs) :
    Fed ok table cs := by
  induction h with
  | start => exact .start
  | step l _ _ _ ih => exact ih
  | mark l updatedAt _ _ _ hok ih => exact .put _ _ ih hok

/-- The watched runs are the runs: every one has a stream, whatever
instants its writes carry. -/
theorem reachable_iff_watched {s : Sys (service env)} :
    Reachable env s ↔ ∃ table cs, Watched env (fun _ _ => True) s table cs := by
  constructor
  · intro h
    induction h with
    | refl => exact ⟨_, _, .start⟩
    | step l _ _ hstep ih =>
        obtain ⟨table, cs, hwatch⟩ := ih
        cases hmarks : marks _ l with
        | none => exact ⟨_, _, .step l hwatch hstep hmarks⟩
        | some mark => exact ⟨_, _, .mark l "" hwatch hstep hmarks trivial⟩
  · rintro ⟨table, cs, h⟩
    induction h with
    | start => exact .refl
    | step l _ hstep _ ih => exact .step l ih trivial hstep
    | mark l _ _ hstep _ _ ih => exact .step l ih trivial hstep

theorem dynamo_step {s s' : Sys (service env)} {l : Label (service env)}
    (h : s.step l = some s') : s'.world.dynamo = match marks s l with
      | none => s.world.dynamo
      | some (c, status) => fun c' =>
          if c' = c then some status else s.world.dynamo c' := by
  cases Sys.stepped h with
  | spawn op => rfl
  | @act i ans op e k ht hadm =>
      have hnext : s.next? i = some e := by
        unfold Sys.next?
        rw [ht]
        rfl
      by_cases he : ∃ c status, e = .updateItem c status
      · obtain ⟨c, status, rfl⟩ := he
        simp only [marks, hnext]
        show (s.world.write _ _).2.dynamo = _
        rw [write_snd]
        split
        · rfl
        · rfl
      · have hne : ∀ c status, e ≠ .updateItem c status :=
          fun c status heq => he ⟨c, status, heq⟩
        have hmarks : marks s (.act i ans) = none := by
          simp only [marks, hnext]
          cases e with
          | updateItem c status => exact absurd rfl (hne c status)
          | _ => rfl
        rw [hmarks]
        exact (Tenancy.touched env hadm).dynamo hne
  | crash ht => rfl
  | restart ht hloop => rfl
  | env hk => exact (Tenancy.surroundings_same hk).dynamo

/-- The items are those the status table of the world holds. -/
theorem Watched.statuses {ok : Option StatusItem → StatusItem → Prop}
    {s : Sys (service env)} {table : String → Option StatusItem}
    {cs : List (Change String StatusItem)} (h : Watched env ok s table cs) :
    ∀ c, s.world.dynamo c = (table c).map StatusItem.status := by
  induction h with
  | start => exact fun _ => rfl
  | step l _ hstep hmark ih =>
      intro c
      rw [dynamo_step hstep, hmark]
      exact ih c
  | @mark s s' table cs c₀ status l updatedAt _ hstep hmark _ ih =>
      intro c
      rw [dynamo_step hstep, hmark]
      show (if c = c₀ then _ else _) = _
      by_cases hc : c = c₀
      · rw [if_pos hc, hc, put_same]
        rfl
      · rw [if_neg hc, put_ne hc]
        exact ih c

/-- In every run in which no report changes an item that is
`ai-processed`, the notifier counts each candidate at most once. -/
theorem notified_once {s : Sys (service env)}
    {table : String → Option StatusItem} {cs : List (Change String StatusItem)}
    (h : Watched env (Keeps finished) s table cs) : NotifiesOnce cs :=
  notifiesOnce_of_fed h.fed

-- ===================================================================== samples

/-- Run labels, each with the instant a report made by it would carry. -/
def watch (ok : Option StatusItem → StatusItem → Prop)
    [∀ old new, Decidable (ok old new)] (s : Sys (service env))
    (table : String → Option StatusItem)
    (cs : List (Change String StatusItem)) :
    List (Label (service env) × String) → Option (List (Change String StatusItem))
  | [] => some cs
  | (l, updatedAt) :: ls =>
      match s.step l, marks s l with
      | none, _ => none
      | some s', none => watch ok s' table cs ls
      | some s', some (c, status) =>
          if ok (table c) ⟨status, updatedAt⟩ then
            watch ok s' (put table c ⟨status, updatedAt⟩)
              (cs ++ changed table c ⟨status, updatedAt⟩) ls
          else none

theorem Watched.of_watch {ok : Option StatusItem → StatusItem → Prop}
    [∀ old new, Decidable (ok old new)]
    {ls : List (Label (service env) × String)} : ∀ {s : Sys (service env)}
    {table : String → Option StatusItem} {cs cs' : List (Change String StatusItem)},
    Watched env ok s table cs → watch ok s table cs ls = some cs' →
    ∃ s' table', Watched env ok s' table' cs' := by
  induction ls with
  | nil =>
      intro s table cs cs' h hw
      cases hw
      exact ⟨s, table, h⟩
  | cons x ls ih =>
      obtain ⟨l, updatedAt⟩ := x
      intro s table cs cs' h hw
      unfold watch at hw
      split at hw
      next => cases hw
      next s' hstep hmark => exact ih (h.step l hstep hmark) hw
      next s' c status hstep hmark =>
        split at hw
        next hok => exact ih (h.mark l updatedAt hstep hmark hok) hw
        next => cases hw

instance (old : Option StatusItem) (new : StatusItem) :
    Decidable (Keeps finished old new) :=
  match old with
  | none => isTrue fun _ h => nomatch h
  | some v => decidable_of_iff (finished v = true → new = v)
      ⟨fun h _ heq hP => by cases heq; exact h hP, fun h hP => h v rfl hP⟩

/-- The candidate of the sample's upload. -/
def sampleId : String := sampleRow.id.str

/-- The upload and its handling, all reports at ten o'clock. -/
def handledOnce : List (Label (service sampleEnv) × String) :=
  (sampleUpload ++ .spawn .worker :: steps 1 12).map fun l => (l, "10:00")

/-- The worker dies between the report and the delete; another one handles
the message again, two minutes later. -/
def handledTwice : List (Label (service sampleEnv) × String) :=
  (reportedOnly.map fun l => (l, "10:00"))
    ++ (.spawn .worker :: steps 2 12).map fun l => (l, "10:02")

/-- A candidate that is handled once is counted once. -/
theorem notified_once_sample : ∃ (s : Sys (service sampleEnv))
    (table : String → Option StatusItem) (cs : List (Change String StatusItem)),
    Watched sampleEnv (Keeps finished) s table cs
      ∧ cs = [⟨sampleId, none, ⟨"ai-processed", "10:00"⟩⟩]
      ∧ NotifiesOnce cs := by
  have hwatch : watch (Keeps finished) (Sys.start (service sampleEnv) World.empty)
      (fun _ => none) [] handledOnce
        = some [⟨sampleId, none, ⟨"ai-processed", "10:00"⟩⟩] := by
    decide +kernel
  obtain ⟨s, table, h⟩ := Watched.of_watch .start hwatch
  exact ⟨s, table, _, h, rfl, notified_once h⟩

/-- A candidate whose message is delivered again after its report is
counted twice. -/
theorem notified_twice : ∃ (s : Sys (service sampleEnv))
    (table : String → Option StatusItem) (cs : List (Change String StatusItem)),
    Watched sampleEnv (fun _ _ => True) s table cs
      ∧ handler ⟨some (cs.map streamRecord)⟩
        = .ok ⟨2, [some (.text sampleId), some (.text sampleId)]⟩
      ∧ ¬ NotifiesOnce cs := by
  have hwatch : watch (fun _ _ => True)
      (Sys.start (service sampleEnv) World.empty) (fun _ => none) []
      handledTwice = some [⟨sampleId, none, ⟨"ai-processed", "10:00"⟩⟩,
        ⟨sampleId, some ⟨"ai-processed", "10:00"⟩,
          ⟨"ai-processed", "10:02"⟩⟩] := by
    decide +kernel
  obtain ⟨s, table, h⟩ := Watched.of_watch .start hwatch
  refine ⟨s, table, _, h, by decide +kernel, fun honce => ?_⟩
  have hold := honce.2 _ (List.mem_cons_of_mem _ (List.mem_cons_self ..))
    (some (.text sampleId)) (by decide +kernel) _ rfl
  exact absurd hold (by decide)

end ResumeScreening.Pipeline
