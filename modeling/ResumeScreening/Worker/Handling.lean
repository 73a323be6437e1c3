/-
One upload's message, handled while everything but the language model
works.

`well` is that outside: each call succeeds, and the model answers what it
likes. What handling then does is decided by the file, the answer and the
room there is for the row: the resume is given up as bad
(`handled_bad`), left for a retry (`handled_later`), or stored
(`handled_whole`), and each end is a status of the row and a place of the
message.
-/
import ResumeScreening.Lib.Steady
import ResumeScreening.Worker.Queue

namespace ResumeScreening.Worker

open Effect Prog Pipeline
open Py (DateTime)

variable {env : Env} {w w' w₁ : World} {r r' : Candidate} {bytes : List UInt8}
  {m : Message}

-- ================================================================ the outside

/-- An outside where each call succeeds; the language model answers or
raises, and a row drawn gets this identifier and time. -/
def well (llm : Except LibraryError ParsedResume) (id : UUID)
    (now : DateTime) : (e : Act) → e.Ans
  | .transactionNow => .ok now
  | e => ({ id := id, parsed := llm } : Choices).answer e

/-- An upload and its message: the row is committed, the file stored, the
message waits. -/
structure Uploaded (env : Env) (r : Candidate) (bytes : List UInt8)
    (m : Message) (w : World) : Prop where
  row : r ∈ w.db.candidates.rows
  file : w.s3 env.s3BucketName (uploadKey r.id) = some bytes
  body : m.body = uploadBody env r.tenantId r.id
  waiting : Waiting m.receiptHandle w

/-- The candidate's row has this status. -/
def StatusIs (c : UUID) (s : Status) (w : World) : Prop :=
  ∃ x ∈ w.db.candidates.rows, x.id = c ∧ x.status = s

-- ================================================================ one row

/-- The row is replaced by another of the same candidate, and the queue is
left alone. -/
structure Replaces (r r' : Candidate) (w w' : World) : Prop where
  same : r'.id = r.id
  rows : ∀ x, x ∈ w'.db.candidates.rows
    ↔ (x ∈ w.db.candidates.rows ∧ x.id ≠ r.id) ∨ x = r'
  queue : w'.queue = w.queue

theorem Replaces.mem (h : Replaces r r' w w') : r' ∈ w'.db.candidates.rows :=
  (h.rows r').mpr (.inr rfl)

theorem Replaces.trans {r'' : Candidate} {w'' : World}
    (h : Replaces r r' w w') (h' : Replaces r' r'' w' w'') :
    Replaces r r'' w w'' where
  same := h'.same.trans h.same
  rows x := by
    rw [h'.rows, h.rows, h.same]
    constructor
    · rintro (⟨⟨hx, -⟩ | rfl, hne⟩ | rfl)
      · exact .inl ⟨hx, hne⟩
      · exact absurd h.same hne
      · exact .inr rfl
    · rintro (⟨hx, hne⟩ | rfl)
      · exact .inl ⟨.inl ⟨hx, hne⟩, hne⟩
      · exact .inr rfl
  queue := h'.queue.trans h.queue

/-- What does not touch the rows and the queue may follow. -/
theorem Replaces.keep (h : Replaces r r' w w₁) (hdb : w'.db = w₁.db)
    (hq : w'.queue = w₁.queue) : Replaces r r' w w' where
  same := h.same
  rows x := by rw [hdb, h.rows]
  queue := hq.trans h.queue

theorem Replaces.status (h : Replaces r r' w w') (s : Status) :
    StatusIs r.id s w' ↔ r'.status = s := by
  constructor
  · rintro ⟨x, hx, hid, rfl⟩
    rcases (h.rows x).mp hx with ⟨-, hne⟩ | rfl
    · exact absurd hid hne
    · rfl
  · exact fun hs => ⟨r', h.mem, h.same, hs⟩

/-- The constraints leave room for a candidate's row. -/
def Room (w : World) (c : Candidate) : Prop :=
  candidateSchema.valid c = true ∧ ∀ x ∈ w.db.candidates.rows, x.id ≠ c.id →
    sameUnique x.pineconeId c.pineconeId = false

theorem Replaces.room (h : Replaces r r' w w') {c : Candidate}
    (hc : c.id = r.id) : Room w' c ↔ Room w c := by
  unfold Room
  refine and_congr_right fun _ => ?_
  rw [hc]
  constructor
  · exact fun hall x hx hne => hall x ((h.rows x).mpr (.inl ⟨hx, hne⟩)) hne
  · intro hall x hx hne
    rcases (h.rows x).mp hx with ⟨hx, -⟩ | rfl
    · exact hall x hx hne
    · exact absurd h.same hne

theorem candidate_key (id : UUID) :
    candidateSchema.Key fun c => c.id == id := by
  intro a b ha hb
  simp only [beq_iff_eq] at ha hb
  simp [candidateSchema, ha, hb]

/-- A commit of one statement goes as the statement does. -/
theorem commit_written {x : Write} {db : Db} (h : w.db.write x = some db) :
    w.commit [x] .ok = (.ok (), { w with db := db }) := by
  unfold World.commit
  rw [writeAll_one, h]
  rfl

theorem commit_refused {x : Write} (h : w.db.write x = none) :
    ∃ y, w.commit [x] .ok = (.error y, w) := by
  unfold World.commit
  rw [writeAll_one, h]
  exact ⟨_, rfl⟩

section Update

variable {set : CandidatePatch} (hr : r ∈ w.db.candidates.rows)

include hr

/-- An UPDATE of one row goes through exactly if there is room for it. -/
theorem update_iff_room :
    (∃ t, w.db.candidates.update? (fun c => c.id == r.id) set.apply = some t)
      ↔ Room w (set.apply r) := by
  have hkey := candidate_key r.id
  have hclash : ∀ x ∈ w.db.candidates.rows, x ≠ r →
      candidateSchema.clash x (set.apply r)
        = sameUnique x.pineconeId (set.apply r).pineconeId := by
    intro x hx hne
    have hid : x.id ≠ r.id := fun heq => hne (candidate_unique hx hr heq)
    show ((x.id == r.id) || _) = _
    rw [beq_false_of_ne hid, Bool.false_or]
  constructor
  · rintro ⟨t, ht⟩
    have hmem := fun s => Relational.Table.mem_update?_key hkey hr
      (beq_self_eq_true _) ht (s := s)
    have hnew := (hmem _).mpr (.inr rfl)
    refine ⟨t.valid _ hnew, fun x hx hne => ?_⟩
    have hxr : x ≠ r := fun heq => hne (by rw [heq]; rfl)
    rw [← hclash x hx hxr]
    cases hcl : candidateSchema.clash x (set.apply r) with
    | false => rfl
    | true =>
        have heq := t.eq_of_clash ((hmem x).mpr (.inl ⟨hx, hxr⟩)) hnew hcl
        exact absurd (congrArg Candidate.id heq) hne
  · intro hroom
    refine (Relational.Table.update?_key_some_iff hkey hr
      (beq_self_eq_true _) fun x hx hne => ?_).mpr hroom.1
    rw [hclash x hx hne]
    exact hroom.2 x hx fun heq => hne (candidate_unique hx hr heq)

theorem commit_room (h : Room w (set.apply r)) :
    ∃ w', w.commit [.updateCandidate r.id set] .ok = (.ok (), w')
      ∧ Replaces r (set.apply r) w w' := by
  obtain ⟨t, ht⟩ := (update_iff_room hr).mpr h
  have hwrite : w.db.write (.updateCandidate r.id set)
      = some { w.db with candidates := t } := by
    show (w.db.candidates.update? _ _).map _ = _
    rw [ht]
    rfl
  refine ⟨_, commit_written hwrite, rfl, fun x => ?_, rfl⟩
  rw [Relational.Table.mem_update?_key (candidate_key r.id) hr
    (beq_self_eq_true _) ht]
  refine or_congr_left (and_congr_right fun hx => not_congr ?_)
  exact ⟨fun heq => by rw [heq], candidate_unique hx hr⟩

theorem commit_noRoom (h : ¬ Room w (set.apply r)) :
    ∃ x, w.commit [.updateCandidate r.id set] .ok = (.error x, w) := by
  refine commit_refused ?_
  show (w.db.candidates.update? _ _).map _ = _
  cases ht : w.db.candidates.update? (fun c => c.id == r.id) set.apply with
  | none => rfl
  | some t => exact absurd ((update_iff_room hr).mp ⟨t, ht⟩) h

/-- There is always room for another status. -/
theorem room_status (s : Status) :
    Room w (CandidatePatch.apply { status := some s } r) := by
  refine ⟨w.db.candidates.valid r hr, fun x hx hne => ?_⟩
  cases hcl : sameUnique x.pineconeId r.pineconeId with
  | false => exact hcl
  | true =>
      have heq := w.db.candidates.eq_of_clash hx hr
        (by simp [candidateSchema, hcl])
      exact absurd (congrArg Candidate.id heq) hne

theorem commit_status (s : Status) :
    ∃ w', w.commit (setStatus r s) .ok = (.ok (), w')
      ∧ Replaces r { r with status := s } w w' := by
  unfold setStatus
  split
  next heq =>
    refine ⟨w, rfl, rfl, fun x => ?_, rfl⟩
    rw [← heq]
    constructor
    · intro hx
      by_cases hid : x.id = r.id
      · exact .inr (candidate_unique hx hr hid)
      · exact .inl ⟨hx, hid⟩
    · rintro (⟨hx, -⟩ | rfl)
      · exact hx
      · exact hr
  next => exact commit_room hr (room_status hr s)

end Update

-- ================================================================= the parsing

/-- What parsing the file comes to. -/
def parsedFrom (env : Env) (bytes : List UInt8)
    (llm : Except LibraryError ParsedResume) :
    Except Exn (ParsedResume × String) :=
  match extractTextFromPdf env bytes with
  | .error x => .error x
  | .ok text =>
      if text = "" then .error noTextError
      else match llm with
        | .ok parsed => .ok (parsed, text)
        | .error x => .error x.exn

theorem parsedFrom_ok {text : String} (hreads : Reads env bytes text)
    (p : ParsedResume) : parsedFrom env bytes (.ok p) = .ok (p, text) := by
  unfold parsedFrom
  rw [hreads.1]
  exact if_neg hreads.2

theorem parsedFrom_error {text : String} (hreads : Reads env bytes text)
    (x : LibraryError) : parsedFrom env bytes (.error x) = .error x.exn := by
  unfold parsedFrom
  rw [hreads.1]
  exact if_neg hreads.2

variable {llm : Except LibraryError ParsedResume} {id : UUID} {now : DateTime}

/-- Handled in a world where all else is well. -/
abbrev evalWell {α : Type} (env : Env) (llm : Except LibraryError ParsedResume)
    (id : UUID) (now : DateTime) (p : Py α) (w : World) : Except Exn α × World :=
  p.eval (M := machine env) (well llm id now) w

variable (env bytes llm id now) in
theorem parse_eval (w : World) :
    evalWell env llm id now (parseResumePdf env bytes) w
      = (parsedFrom env bytes llm, w) := by
  unfold parseResumePdf parsedFrom parseResumeText
  cases extractTextFromPdf env bytes with
  | error x => rfl
  | ok text =>
      simp only [bind_eq, Prog.ofExcept, ret_bind]
      split
      next => rfl
      next =>
        cases llm with
        | ok parsed => rfl
        | error x => rfl

/-- The row as it is stored once the resume is parsed and indexed. -/
def storedRow (r : Candidate) (p : ParsedResume) (text : String) : Candidate :=
  { filled r p text with pineconeId := some (candidateVectorId r.id.str) }

/-- The world with a candidate's vector in the index. -/
def indexed (env : Env) (t : UUID) (c : Candidate) (w : World) : World :=
  { w with
    pinecone := setAt w.pinecone t.str (candidateVectorId c.id.str)
      (candidateVector c.id.str (env.embed (buildCandidateEmbedText c))
        [("full_name", Py.optOr c.fullName "")]) }

variable (env llm id now) in
/-- A stored row is read back. -/
theorem candidate_back {c : Candidate} (hc : c ∈ w.db.candidates.rows) :
    perform env (.refreshCandidate c.id)
      (well llm id now (.refreshCandidate c.id)) w = (.ok c, w) := by
  show w.readOr (.ok ()) (w.db.candidates.find? fun x => x.id == c.id) = _
  rw [(w.db.candidates.find?_key (candidate_key c.id)).mpr ⟨hc, by simp⟩]
  rfl

section Index

variable {t : UUID} {c : Candidate} {pending : Candidate → List Write}

/-- Indexing comes down to its commit, behind the vector. -/
theorem index_eval : evalWell env llm id now (indexCandidate t c pending) w
    = evalWell env llm id now (Prog.handle
        ((call (.commit (pending { c with
          pineconeId := some (candidateVectorId c.id.str) }))).bind
          fun _ => call (.refreshCandidate c.id))
        fun _ => raise candidateIndexError) (indexed env t c w) := rfl

theorem index_stored {c' : Candidate}
    (hcommit : (indexed env t c w).commit (pending { c with
      pineconeId := some (candidateVectorId c.id.str) }) .ok = (.ok (), w'))
    (hback : c' ∈ w'.db.candidates.rows) (hid : c'.id = c.id) :
    evalWell env llm id now (indexCandidate t c pending) w
      = (.ok c', w') := by
  have hread := candidate_back env llm id now hback
  rw [hid] at hread
  exact index_eval.trans (eval_handle_ok
    ((eval_call hcommit).trans ((eval_perform _ _).trans hread)))

theorem index_refused {x : Exn}
    (hcommit : (indexed env t c w).commit (pending { c with
      pineconeId := some (candidateVectorId c.id.str) }) .ok = (.error x, w')) :
    evalWell env llm id now (indexCandidate t c pending) w
      = (.error candidateIndexError, w') :=
  index_eval.trans (eval_handle_error (eval_call_error hcommit))

end Index

section Pending

variable (id now)
variable (hr : r ∈ w.db.candidates.rows)

include hr

theorem find_row :
    w.db.candidates.find? (fun x => x.id == r.id && x.tenantId == r.tenantId)
      = some r := by
  refine (w.db.candidates.find?_key ?_).mpr ⟨hr, by simp⟩
  intro a b ha hb
  simp only [Bool.and_eq_true, beq_iff_eq] at ha hb
  simp [candidateSchema, ha, hb]

/-- Up to the parsing: the row is found and marked. -/
theorem pending_marked :
    ∃ w₁, Replaces r { r with status := .processing } w w₁
      ∧ evalWell env llm id now
          (processPendingCandidate env r.tenantId r.id bytes) w
        = evalWell env llm id now
          ((Prog.handle (parseResumePdf env bytes) (parseFailed r.id)).bind
            fun (parsed, rawText) =>
              (indexCandidate r.tenantId (filled r parsed rawText)
                fun c => [.updateCandidate c.id (filledPatch c)]).bind
                  fun _ => ret ()) w₁ := by
  obtain ⟨w₁, hcommit, hrep⟩ := commit_status hr .processing
  refine ⟨w₁, hrep, ?_⟩
  have hfound : perform env (.selectCandidate r.tenantId r.id)
      (well llm id now (.selectCandidate r.tenantId r.id)) w
      = (.ok (some r), w) := by
    show w.read (.ok ()) _ = _
    rw [find_row hr]
    rfl
  exact (eval_call hfound).trans (eval_call hcommit)

/-- Where parsing raises, what its handler raises is raised. -/
theorem pending_raised {x : Exn} (hp : parsedFrom env bytes llm = .error x) :
    ∃ w₁, Replaces r { r with status := .processing } w w₁
      ∧ ∀ {y w'}, evalWell env llm id now (parseFailed r.id x) w₁
          = (.error y, w') →
        evalWell env llm id now
          (processPendingCandidate env r.tenantId r.id bytes) w
          = (.error y, w') := by
  obtain ⟨w₁, hrep, heval⟩ := pending_marked id now hr
  refine ⟨w₁, hrep, fun hfailed => ?_⟩
  have hparse := parse_eval env bytes llm id now w₁
  rw [hp] at hparse
  rw [heval]
  exact eval_bind_error ((eval_handle_error hparse).trans hfailed)

/-- The file or the answer is a `ValueError`: the row is failed. -/
theorem pending_bad {msg : String}
    (hp : parsedFrom env bytes llm = .error (.valueError msg)) :
    ∃ w', evalWell env llm id now
        (processPendingCandidate env r.tenantId r.id bytes) w
        = (.error (.resumeContent msg), w')
      ∧ Replaces r { r with status := .failed } w w' := by
  obtain ⟨w₁, hrep, hraised⟩ := pending_raised id now hr hp
  obtain ⟨w₂, hcommit, hrep₂⟩ := commit_room hrep.mem
    (room_status hrep.mem .failed)
  exact ⟨w₂, hraised (eval_call hcommit), hrep.trans hrep₂⟩

/-- Any other exception of the two: the row stays marked. -/
theorem pending_later {x : Exn} (hx : ∀ msg, x ≠ .valueError msg)
    (hp : parsedFrom env bytes llm = .error x) :
    ∃ w', evalWell env llm id now
        (processPendingCandidate env r.tenantId r.id bytes) w
        = (.error parserUnavailable, w')
      ∧ Replaces r { r with status := .processing } w w' := by
  obtain ⟨w₁, hrep, hraised⟩ := pending_raised id now hr hp
  refine ⟨w₁, hraised ?_, hrep⟩
  cases x with
  | valueError msg => exact absurd rfl (hx msg)
  | _ => rfl

/-- The resume is parsed: it is stored if there is room for its row, and
left for a retry if not. -/
theorem pending_parsed {p : ParsedResume} {text : String}
    (hp : parsedFrom env bytes llm = .ok (p, text)) :
    ∃ w',
      (Room w (storedRow r p text) ∧ Replaces r (storedRow r p text) w w'
        ∧ evalWell env llm id now
          (processPendingCandidate env r.tenantId r.id bytes) w = (.ok (), w'))
      ∨ (¬ Room w (storedRow r p text)
        ∧ Replaces r { r with status := .processing } w w'
        ∧ evalWell env llm id now
          (processPendingCandidate env r.tenantId r.id bytes) w
          = (.error candidateIndexError, w')) := by
  obtain ⟨w₁, hrep, heval⟩ := pending_marked id now hr
  have hparse := parse_eval env bytes llm id now w₁
  rw [hp] at hparse
  have hindex := heval.trans (eval_bind_ok (eval_handle_ok hparse))
  -- with the vector in the index, the row to store is the marked one's update
  let w₂ := indexed env r.tenantId (filled r p text) w₁
  have hrep₂ : Replaces r { r with status := .processing } w w₂ :=
    hrep.keep rfl rfl
  have hset : (filledPatch (storedRow r p text)).apply
      { r with status := .processing } = storedRow r p text := rfl
  have hroom : Room w₂ (storedRow r p text) ↔ Room w (storedRow r p text) :=
    hrep₂.room rfl
  by_cases hyes : Room w (storedRow r p text)
  · obtain ⟨w₃, hcommit, hrep₃⟩ := commit_room hrep₂.mem
      (by rw [hset]; exact hroom.mpr hyes)
    rw [hset] at hrep₃
    refine ⟨w₃, .inl ⟨hyes, hrep₂.trans hrep₃, ?_⟩⟩
    exact hindex.trans (eval_bind_ok (index_stored hcommit hrep₃.mem rfl))
  · obtain ⟨x, hcommit⟩ := commit_noRoom hrep₂.mem
      (by rw [hset]; exact fun h => hyes (hroom.mp h))
    refine ⟨w₂, .inr ⟨hyes, hrep₂, ?_⟩⟩
    exact hindex.trans (eval_bind_error (index_refused hcommit))

end Pending

-- ================================================================ the message

theorem jsonUuid_str (u : UUID) : jsonUuid (.text u.str) = ret u := by
  unfold jsonUuid uuid asText
  simp only [bind_eq, Prog.ofExcept, ret_bind, UUID.parse_str, pure_eq]

/-- The fields of an upload's message. -/
def uploadFields (env : Env) (t c : UUID) : List (String × JsonValue) :=
  [("candidate_id", .text c.str), ("tenant_id", .text t.str),
    ("s3_bucket", .text env.s3BucketName), ("s3_key", .text (uploadKey c))]

/-- They are all there. -/
theorem item_upload (env : Env) (t c : UUID) :
    item (some (uploadFields env t c)) "candidate_id" = .ok (.text c.str)
    ∧ item (some (uploadFields env t c)) "tenant_id" = .ok (.text t.str)
    ∧ item (some (uploadFields env t c)) "s3_bucket"
      = .ok (.text env.s3BucketName)
    ∧ item (some (uploadFields env t c)) "s3_key"
      = .ok (.text (uploadKey c)) :=
  ⟨rfl, rfl, rfl, rfl⟩

/-- What an upload's message makes of `_process_message`. -/
theorem processMessage_upload (t c : UUID) :
    processMessage env (some (uploadFields env t c))
      = (call (.getObject env.s3BucketName (uploadKey c))).bind fun bytes =>
        (processPendingCandidate env t c bytes).bind fun _ =>
          markStatus c.str "ai-processed" := by
  obtain ⟨hc, ht, hb, hk⟩ := item_upload env t c
  unfold processMessage
  simp only [bind_eq, hc, ht, hb, hk, Prog.ofExcept, ret_bind, jsonUuid_str,
    asText]

theorem handleMessage_upload {t c : UUID} (hbody : m.body = uploadBody env t c) :
    handleMessage env m = Prog.handle
      ((processMessage env (some (uploadFields env t c))).bind fun _ =>
        (call (.deleteMessage m.receiptHandle)).bind fun _ =>
          call (.countOutcome .success))
      (handleFailure m.receiptHandle) := by
  unfold handleMessage
  rw [hbody]
  rfl

section Upload

variable (h : Uploaded env r bytes m w)

include h

/-- The file is there, so handling goes on to the row. -/
theorem upload_eval : evalWell env llm id now
      (processMessage env (some (uploadFields env r.tenantId r.id))) w
    = evalWell env llm id now
      ((processPendingCandidate env r.tenantId r.id bytes).bind fun _ =>
        markStatus r.id.str "ai-processed") w := by
  have hfile : perform env (.getObject env.s3BucketName (uploadKey r.id))
      (well llm id now (.getObject env.s3BucketName (uploadKey r.id))) w
      = (.ok bytes, w) := by
    show w.readOr (.ok ()) (w.s3 _ _) = _
    rw [h.file]
    rfl
  rw [processMessage_upload]
  exact eval_call hfile

/-- A failed handling goes to the branch for its exception. -/
theorem handle_error {x : Exn}
    (hproc : evalWell env llm id now
      (processPendingCandidate env r.tenantId r.id bytes) w = (.error x, w₁)) :
    evalWell env llm id now (handleMessage env m) w
      = evalWell env llm id now (handleFailure m.receiptHandle x) w₁ := by
  rw [handleMessage_upload h.body]
  exact eval_handle_error (eval_bind_error
    ((upload_eval h).trans (eval_bind_error hproc)))

/-- A finished one is reported, deleted and counted. -/
theorem handle_ok
    (hproc : evalWell env llm id now
      (processPendingCandidate env r.tenantId r.id bytes) w = (.ok (), w₁)) :
    ∃ w₂ : World, w₂.db = w₁.db ∧ w₂.queue = w₁.queue
      ∧ evalWell env llm id now (handleMessage env m) w
        = (.ok (), { deleted m.receiptHandle w₂ with
          outcomes := .success :: w₂.outcomes }) := by
  refine ⟨{ w₁ with dynamo := fun c' =>
    if c' = r.id.str then some "ai-processed" else w₁.dynamo c' },
    rfl, rfl, ?_⟩
  rw [handleMessage_upload h.body]
  refine eval_handle_ok ?_
  have hmessage := (upload_eval h).trans (eval_bind_ok hproc)
  exact (eval_bind_ok (hmessage.trans (eval_perform _ _))).trans rfl

end Upload

-- =================================================================== its ends

/-- The world in which handling a message ends. -/
def handled (env : Env) (llm : Except LibraryError ParsedResume) (id : UUID)
    (now : DateTime) (m : Message) (w : World) : World :=
  ((handleMessage env m).run (M := machine env)
    (fun _ e => some (well llm id now e)) 0 w).2

theorem handled_eq : handled env llm id now m w
    = (evalWell env llm id now (handleMessage env m) w).2 :=
  congrArg Prod.snd
    (run_steady (M := machine env) (A := well llm id now) (handleMessage env m)
      0 w)

/-- The row ends with this status, the message off the queue or on it. -/
structure EndsAs (r : Candidate) (m : Message) (s : Status) (gone : Bool)
    (w' : World) : Prop where
  status : ∀ s', StatusIs r.id s' w' ↔ s = s'
  message : ¬ Waiting m.receiptHandle w' ↔ gone = true

theorem endsAs_gone {s : Status} (h : Replaces r r' w w')
    (hs : r'.status = s) {o : Outcome} :
    EndsAs r m s true { deleted m.receiptHandle w' with
      outcomes := o :: w'.outcomes } where
  status s' := by
    rw [← hs]
    exact h.status s'
  message := iff_of_true (not_waiting_deleted _ w') rfl

theorem endsAs_waiting {s : Status} (hu : Uploaded env r bytes m w)
    (h : Replaces r r' w w') (hs : r'.status = s) {o : Outcome} :
    EndsAs r m s false { w' with outcomes := o :: w'.outcomes } where
  status s' := by
    rw [← hs]
    exact h.status s'
  message := iff_of_false
    (not_not_intro ((waiting_same h.queue _).mpr hu.waiting)) nofun

section Ends

variable (id now)
variable (h : Uploaded env r bytes m w)

include h

/-- A `ValueError` from the file or the model gives the resume up. -/
theorem handled_bad {msg : String}
    (hp : parsedFrom env bytes llm = .error (.valueError msg)) :
    EndsAs r m .failed true (handled env llm id now m w) := by
  obtain ⟨w₁, hproc, hrep⟩ := pending_bad id now h.row hp
  rw [handled_eq, handle_error h hproc]
  exact endsAs_gone hrep rfl

/-- Any other exception of theirs leaves it for a retry. -/
theorem handled_later {x : Exn} (hx : ∀ msg, x ≠ .valueError msg)
    (hp : parsedFrom env bytes llm = .error x) :
    EndsAs r m .processing false (handled env llm id now m w) := by
  obtain ⟨w₁, hproc, hrep⟩ := pending_later id now h.row hx hp
  rw [handled_eq, handle_error h hproc]
  exact endsAs_waiting h hrep rfl

/-- A parsed resume is stored if there is room for its row, and left for a
retry if not. -/
theorem handled_whole {p : ParsedResume} {text : String}
    (hp : parsedFrom env bytes llm = .ok (p, text)) :
    (Room w (storedRow r p text)
        ∧ EndsAs r m .processed true (handled env llm id now m w))
      ∨ (¬ Room w (storedRow r p text)
        ∧ EndsAs r m .processing false (handled env llm id now m w)) := by
  obtain ⟨w₁, ⟨hroom, hrep, hproc⟩ | ⟨hroom, hrep, hproc⟩⟩ :=
    pending_parsed id now h.row hp
  · obtain ⟨w₂, hdb, hq, heval⟩ := handle_ok h hproc
    rw [handled_eq, heval]
    exact .inl ⟨hroom, endsAs_gone (hrep.keep hdb hq) rfl⟩
  · rw [handled_eq, handle_error h hproc]
    exact .inr ⟨hroom, endsAs_waiting h hrep rfl⟩

end Ends

-- ================================================================== a sample

/-- The state the sample upload reaches. -/
def uploaded : Sys (service sampleEnv) :=
  reached sampleUpload sampleUpload_runs

/-- Its message. -/
def uploadedMessage : Message :=
  ⟨0, uploadBody sampleEnv sampleTenant sampleRow.id⟩

variable (env) in
/-- Its row, file and message are in place, for any settings of the same
bucket. -/
theorem sample_uploaded (hb : env.s3BucketName = sampleEnv.s3BucketName) :
    Uploaded env sampleRow samplePdf.bytes uploadedMessage uploaded.world where
  row := by decide +kernel
  file := by
    rw [hb]
    decide +kernel
  body := by
    unfold uploadBody
    rw [hb]
    rfl
  waiting := by
    unfold Waiting
    decide +kernel

end ResumeScreening.Worker
