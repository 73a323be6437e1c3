/-
The invariant every result about the pipeline starts from.

# Who may touch what

A request owns the identifier it drew until it has put a file under it;
nobody else can name that identifier, because a worker learns of a
candidate only from a message, and a message is published only after
the file is in place. `Threads.owned` states it by the one observable
the two sides share: no file is stored under an owned identifier, and a
file is stored under every identifier a message names (`TaskOk`).

Hence a file, once stored, never changes (`Grows.files`), and a row is
changed by its own request or by workers handling its own upload, never
by both at a time.

# What it says of a row

`RowOk`: a vector id is the row's own; a processed row has a name, its
vector id, and — where a file is stored under its identifier — the
fields of one answer to that file's text.
-/
import ResumeScreening.Pipeline.Effects
import ResumeScreening.Pipeline.Conform

namespace ResumeScreening.Pipeline

open Effect

variable {env : Env} {w w' : World} {log log' : Log sig}

-- =============================================================== the parts

/-- The file stored under an upload's key. -/
def fileOf (env : Env) (w : World) (id : UUID) : Option (List UInt8) :=
  w.s3 env.s3BucketName (uploadKey id)

/-- The row of a candidate and its tenant. -/
def HasRow (w : World) (t c : UUID) : Prop :=
  ∃ r ∈ w.db.candidates.rows, r.id = c ∧ r.tenantId = t

/-- A message of an upload whose row is committed and whose file is
stored. -/
def MessageOk (env : Env) (w : World) (m : Message) : Prop :=
  ∃ t c b, m.body = uploadBody env t c ∧ HasRow w t c
    ∧ fileOf env w c = some b

/-- What a message in hand has established. -/
structure TaskOk (env : Env) (w : World) (k : Task) : Prop where
  body : k.message.body = uploadBody env k.tenantId k.candidateId
  text : k.text = k.candidateId.str
  row : HasRow w k.tenantId k.candidateId
  file : fileOf env w k.candidateId = some k.bytes
  rest : ∀ m ∈ k.rest, MessageOk env w m

/-- The language model gave this answer to this text. -/
def Answered (log : Log sig) (text : String) (p : ParsedResume) : Prop :=
  ∃ i, (i, ⟨.parseResume text, .ok p⟩) ∈ log

/-- A row whose parsed fields are those of one answer to a file's
text. -/
def FilledFrom (env : Env) (log : Log sig) (b : List UInt8) (r : Candidate) :
    Prop :=
  ∃ text p, Reads env b text ∧ Answered log text p ∧ filled r p text = r

structure RowOk (env : Env) (w : World) (log : Log sig) (r : Candidate) :
    Prop where
  drawn : r.id ∈ w.usedIds
  vector : r.pineconeId = none
    ∨ r.pineconeId = some (candidateVectorId r.id.str)
  whole : r.status = .processed → r.fullName.isSome = true
    ∧ r.pineconeId = some (candidateVectorId r.id.str)
  own : r.status = .processed → ∀ b, fileOf env w r.id = some b →
    FilledFrom env log b r

/-- What a thread's phase says of the world. -/
def SlotOk (env : Env) (w : World) (log : Log sig) : Op → Phase → Prop
  | op, .drafted row =>
      (∃ t file now, op = .uploadResume t file
        ∧ row = placeholder t row.id now)
      ∨ ∃ t payload now, op = .createCandidate t payload
        ∧ row = createdCandidate t payload row.id now
  | op, .stored row => ∃ t payload now, op = .createCandidate t payload
      ∧ row = createdCandidate t payload row.id now
  | op, .placed row => ∃ t file now, op = .uploadResume t file
      ∧ row = placeholder t row.id now ∧ row ∈ w.db.candidates.rows
  | op, .kept row | op, .sent row => ∃ t file, op = .uploadResume t file
      ∧ row.tenantId = t ∧ HasRow w t row.id
      ∧ fileOf env w row.id = some file.bytes
  | op, .draftedJob row | op, .storedJob row => ∃ t payload now,
      op = .createJob t payload ∧ row = createdJob t payload row.id now
  | _, .batch ms => ∀ m ∈ ms, MessageOk env w m
  | _, .fetched m ms bytes => (∀ m' ∈ m :: ms, MessageOk env w m')
      ∧ ∀ t c, m.body = uploadBody env t c → fileOf env w c = some bytes
  | _, .loaded k row | _, .marked k row | _, .rejected k row _ =>
      TaskOk env w k ∧ row.id = k.candidateId ∧ row.tenantId = k.tenantId
  | _, .parsed k row text p | _, .indexing k row text p =>
      TaskOk env w k ∧ row.id = k.candidateId ∧ row.tenantId = k.tenantId
        ∧ Reads env k.bytes text ∧ Answered log text p
  | _, .discarded k | _, .finished k | _, .reported k => TaskOk env w k
  | _, _ => True

/-- The stores. -/
structure Stores (env : Env) (w : World) (log : Log sig) : Prop where
  rows : ∀ r ∈ w.db.candidates.rows, RowOk env w log r
  jobs : ∀ j ∈ w.db.jobs.rows, j.id ∈ w.usedIds
    ∧ j.pineconeId = some (jobVectorId j.id.str)
  files : ∀ id b, fileOf env w id = some b → id ∈ w.usedIds
  queue : ∀ q ∈ w.queue, MessageOk env w q.message

/-- What an owned identifier promises: it is drawn, no file is stored
under it, and no row has it before the owner commits one. -/
structure Owned (env : Env) (w : World) (ph : Phase) (id : UUID) : Prop where
  drawn : id ∈ w.usedIds
  file : fileOf env w id = none
  candidate : ph.unborn = true → ∀ r ∈ w.db.candidates.rows, r.id ≠ id
  job : ph.unborn = true → ∀ j ∈ w.db.jobs.rows, j.id ≠ id

/-- The threads. -/
structure Threads (env : Env) (w : World) (log : Log sig)
    (ros : Roster (service env) Phase) : Prop where
  slots : ∀ {i : Nat} {op : Op} {ph : Phase}, ros[i]? = some (op, some ph) →
    SlotOk env w log op ph
  owned : ∀ {i : Nat} {op : Op} {ph : Phase} {id : UUID},
    ros[i]? = some (op, some ph) →
    ph.owns = some id → Owned env w ph id
  apart : ∀ {i j : Nat} {op op' : Op} {ph ph' : Phase} {id : UUID},
    ros[i]? = some (op, some ph) →
    ros[j]? = some (op', some ph') → ph.owns = some id →
    ph'.owns = some id → i = j

/-- The invariant. -/
structure Core (env : Env) (w : World) (log : Log sig)
    (ros : Roster (service env) Phase) : Prop where
  stores : Stores env w log
  threads : Threads env w log ros

-- ==================================================================== growth

/-- What every step keeps: drawn identifiers stay drawn, a stored file
stays what it is, and a row keeps its identifier and its tenant. -/
structure Grows (w w' : World) : Prop where
  used : ∀ id, id ∈ w.usedIds → id ∈ w'.usedIds
  files : ∀ b k v, w.s3 b k = some v → w'.s3 b k = some v
  rows : ∀ t c, HasRow w t c → HasRow w' t c

theorem Grows.file (h : Grows w w') {id : UUID} {b : List UInt8}
    (hb : fileOf env w id = some b) : fileOf env w' id = some b :=
  h.files _ _ _ hb

theorem MessageOk.grow {m : Message} (h : MessageOk env w m)
    (hg : Grows w w') : MessageOk env w' m := by
  obtain ⟨t, c, b, hbody, hrow, hfile⟩ := h
  exact ⟨t, c, b, hbody, hg.rows _ _ hrow, hg.file hfile⟩

theorem TaskOk.grow {k : Task} (h : TaskOk env w k) (hg : Grows w w') :
    TaskOk env w' k where
  body := h.body
  text := h.text
  row := hg.rows _ _ h.row
  file := hg.file h.file
  rest m hm := (h.rest m hm).grow hg

/-- The message of a task is one of an upload. -/
theorem TaskOk.message {k : Task} (h : TaskOk env w k) :
    MessageOk env w k.message :=
  ⟨_, _, _, h.body, h.row, h.file⟩

theorem TaskOk.over {k : Task} (h : TaskOk env w k) :
    ∀ m ∈ k.message :: k.rest, MessageOk env w m := by
  intro m hm
  rcases List.mem_cons.mp hm with rfl | hm
  · exact h.message
  · exact h.rest m hm

theorem Answered.mono {text : String} {p : ParsedResume}
    (h : Answered log text p) (hlog : ∀ x, x ∈ log → x ∈ log') :
    Answered log' text p := by
  obtain ⟨i, hi⟩ := h
  exact ⟨i, hlog _ hi⟩

theorem FilledFrom.mono {b : List UInt8} {r : Candidate}
    (h : FilledFrom env log b r) (hlog : ∀ x, x ∈ log → x ∈ log') :
    FilledFrom env log' b r := by
  obtain ⟨text, p, hreads, hans, hrow⟩ := h
  exact ⟨text, p, hreads, hans.mono hlog, hrow⟩

/-- A phase's facts survive growth; a placed row must still be there. -/
theorem SlotOk.grow {op : Op} {ph : Phase} (h : SlotOk env w log op ph)
    (hg : Grows w w') (hlog : ∀ x, x ∈ log → x ∈ log')
    (hplaced : ∀ row, ph = .placed row → row ∈ w.db.candidates.rows →
      row ∈ w'.db.candidates.rows) : SlotOk env w' log' op ph := by
  cases ph with
  | placed row =>
      obtain ⟨t, file, now, hop, hrow, hmem⟩ := h
      exact ⟨t, file, now, hop, hrow, hplaced row rfl hmem⟩
  | kept row =>
      obtain ⟨t, file, hop, ht, hrow, hfile⟩ := h
      exact ⟨t, file, hop, ht, hg.rows _ _ hrow, hg.file hfile⟩
  | sent row =>
      obtain ⟨t, file, hop, ht, hrow, hfile⟩ := h
      exact ⟨t, file, hop, ht, hg.rows _ _ hrow, hg.file hfile⟩
  | batch ms => exact fun m hm => (h m hm).grow hg
  | fetched m ms bytes =>
      exact ⟨fun m' hm' => (h.1 m' hm').grow hg,
        fun t c hbody => hg.file (h.2 t c hbody)⟩
  | loaded k row => exact ⟨h.1.grow hg, h.2⟩
  | marked k row => exact ⟨h.1.grow hg, h.2⟩
  | rejected k row text => exact ⟨h.1.grow hg, h.2⟩
  | parsed k row text p =>
      obtain ⟨hk, hid, ht, hreads, hans⟩ := h
      exact ⟨hk.grow hg, hid, ht, hreads, hans.mono hlog⟩
  | indexing k row text p =>
      obtain ⟨hk, hid, ht, hreads, hans⟩ := h
      exact ⟨hk.grow hg, hid, ht, hreads, hans.mono hlog⟩
  | discarded k => exact TaskOk.grow h hg
  | finished k => exact TaskOk.grow h hg
  | reported k => exact TaskOk.grow h hg
  | _ => exact h

-- ============================================================= the threads

/-- Nothing about an identifier changed. -/
structure Untouched (env : Env) (w w' : World) (id : UUID) : Prop where
  file : fileOf env w' id = fileOf env w id
  rows : ∀ r, r.id = id →
    (r ∈ w'.db.candidates.rows ↔ r ∈ w.db.candidates.rows)
  jobs : ∀ j ∈ w'.db.jobs.rows, j.id = id → j ∈ w.db.jobs.rows

theorem Owned.keep {ph : Phase} {id : UUID} (h : Owned env w ph id)
    (hg : Grows w w') (hu : Untouched env w w' id) : Owned env w' ph id where
  drawn := hg.used _ h.drawn
  file := hu.file.trans h.file
  candidate hub r hr hid := h.candidate hub r ((hu.rows r hid).mp hr) hid
  job hub j hj hid := h.job hub j (hu.jobs j hj hid) hid

section Threads

variable {ros : Roster (service env) Phase} {i : Nat} {op : Op}
  {ph ph' : Phase}

/-- One thread moves to a phase whose facts hold, with an identifier it
already owned or has just drawn; nobody else's identifier is touched. -/
theorem Threads.advance (h : Threads env w log ros)
    (hi : ros[i]? = some (op, some ph)) (hg : Grows w w')
    (hlog : ∀ x, x ∈ log → x ∈ log')
    (hother : ∀ {j : Nat} {op' : Op} {ph₁ : Phase} {id : UUID}, j ≠ i →
      ros[j]? = some (op', some ph₁) → ph₁.owns = some id →
      Untouched env w w' id)
    (hslot : SlotOk env w' log' op ph')
    (howned : ∀ id, ph'.owns = some id → Owned env w' ph' id)
    (hfrom : ∀ id, ph'.owns = some id → ph.owns = some id ∨ id ∉ w.usedIds) :
    Threads env w' log' (ros.set i (op, some ph')) := by
  have hclash : ∀ {j op₁ ph₁ id}, j ≠ i → ros[j]? = some (op₁, some ph₁) →
      ph₁.owns = some id → ph'.owns = some id → False := by
    intro j op₁ ph₁ id hji hj hown hown'
    rcases hfrom id hown' with hold | hfresh
    · exact hji (h.apart hj hi hown hold)
    · exact hfresh (h.owned hj hown).drawn
  constructor
  · intro j op₁ ph₁ hj
    rcases roster_set hj with ⟨-, heq⟩ | ⟨hji, hj⟩
    · cases heq
      exact hslot
    · refine (h.slots hj).grow hg hlog fun row hrow hmem => ?_
      subst hrow
      exact ((hother hji hj rfl).rows row rfl).mpr hmem
  · intro j op₁ ph₁ id hj hown
    rcases roster_set hj with ⟨-, heq⟩ | ⟨hji, hj⟩
    · cases heq
      exact howned id hown
    · exact (h.owned hj hown).keep hg (hother hji hj hown)
  · intro j j' op₁ op₂ ph₁ ph₂ id hj hj' hown hown'
    rcases roster_set hj with ⟨rfl, heq⟩ | ⟨hji, hold⟩
    · cases heq
      rcases roster_set hj' with ⟨rfl, -⟩ | ⟨hji', hold'⟩
      · rfl
      · exact (hclash hji' hold' hown' hown).elim
    · rcases roster_set hj' with ⟨rfl, heq⟩ | ⟨hji', hold'⟩
      · cases heq
        exact (hclash hji hold hown hown').elim
      · exact h.apart hold hold' hown hown'

end Threads

-- ============================================================ alike worlds

/-- The same rows, files and drawn identifiers, and no new message. -/
structure Alike (w w' : World) : Prop where
  candidates : w'.db.candidates = w.db.candidates
  jobs : w'.db.jobs = w.db.jobs
  s3 : w'.s3 = w.s3
  usedIds : w'.usedIds = w.usedIds
  queue : ∀ q' ∈ w'.queue, ∃ q ∈ w.queue, q'.message = q.message

theorem Alike.refl (w : World) : Alike w w :=
  ⟨rfl, rfl, rfl, rfl, fun q hq => ⟨q, hq, rfl⟩⟩

theorem Same.alike (h : Same w w') : Alike w w' :=
  ⟨h.candidates, h.jobs, h.s3, h.usedIds,
    fun q hq => ⟨q, h.queue ▸ hq, rfl⟩⟩

theorem Alike.hasRow (h : Alike w w') {t c : UUID} (hr : HasRow w t c) :
    HasRow w' t c := by
  unfold HasRow
  rw [h.candidates]
  exact hr

theorem Alike.fileOf (h : Alike w w') (id : UUID) :
    fileOf env w' id = Pipeline.fileOf env w id := by
  unfold Pipeline.fileOf
  rw [h.s3]

theorem Alike.grows (h : Alike w w') : Grows w w' where
  used id hid := h.usedIds ▸ hid
  files b k v hv := by
    rw [h.s3]
    exact hv
  rows t c hr := h.hasRow hr

theorem Alike.untouched (h : Alike w w') (id : UUID) :
    Untouched env w w' id where
  file := h.fileOf id
  rows r _ := by rw [h.candidates]
  jobs j hj _ := h.jobs ▸ hj

theorem RowOk.mono {r : Candidate} (h : RowOk env w log r)
    (hused : ∀ id, id ∈ w.usedIds → id ∈ w'.usedIds)
    (hfile : r.status = .processed → fileOf env w' r.id = fileOf env w r.id)
    (hlog : ∀ x, x ∈ log → x ∈ log') : RowOk env w' log' r where
  drawn := hused _ h.drawn
  vector := h.vector
  whole := h.whole
  own hs b hb := (h.own hs b (hfile hs ▸ hb)).mono hlog

theorem Stores.alike (h : Stores env w log) (ha : Alike w w')
    (hlog : ∀ x, x ∈ log → x ∈ log') : Stores env w' log' where
  rows r hr := by
    rw [ha.candidates] at hr
    exact (h.rows r hr).mono ha.grows.used (fun _ => ha.fileOf r.id) hlog
  jobs j hj := by
    rw [ha.jobs] at hj
    exact ⟨ha.grows.used _ (h.jobs j hj).1, (h.jobs j hj).2⟩
  files id b hb := ha.grows.used _ (h.files id b (ha.fileOf id ▸ hb))
  queue q' hq' := by
    obtain ⟨q, hq, hmsg⟩ := ha.queue q' hq'
    rw [hmsg]
    exact (h.queue q hq).grow ha.grows

/-- The surroundings redeliver and dead-letter, and write nothing. -/
theorem move_alike {k : Surroundings} (h : k.move w = some w') :
    Alike w w' := by
  obtain ⟨f, hf, rfl⟩ := move_queue h
  refine ⟨rfl, rfl, rfl, rfl, fun q' hq' => ?_⟩
  obtain ⟨q, hq, rfl⟩ := List.mem_map.mp hq'
  exact ⟨q, hq, hf q⟩

section Steps

variable {ros : Roster (service env) Phase} {i : Nat} {op : Op}
  {ph ph' : Phase} {ev : Nat × Event sig}

/-- A move that changes no row, no file and no identifier, and owns no
more than before. -/
theorem Core.alike (h : Core env w log ros)
    (hi : ros[i]? = some (op, some ph)) (ha : Alike w w')
    (hslot : SlotOk env w (ev :: log) op ph')
    (hown : ∀ id, ph'.owns = some id →
      ph.owns = some id ∧ (ph'.unborn = true → ph.unborn = true)) :
    Core env w' (ev :: log) (ros.set i (op, some ph')) := by
  have hlog : ∀ x, x ∈ log → x ∈ ev :: log :=
    fun x hx => List.mem_cons_of_mem _ hx
  refine ⟨h.stores.alike ha hlog, ?_⟩
  refine h.threads.advance hi ha.grows hlog (fun _ _ _ => ha.untouched _) ?_
    ?_ fun id hid => .inl (hown id hid).1
  · refine hslot.grow ha.grows (fun _ hx => hx) fun row _ hmem => ?_
    rw [ha.candidates]
    exact hmem
  · intro id hid
    have hold := h.threads.owned hi (hown id hid).1
    have hkeep := hold.keep ha.grows (ha.untouched id)
    exact ⟨hkeep.drawn, hkeep.file,
      fun hub => hkeep.candidate ((hown id hid).2 hub),
      fun hub => hkeep.job ((hown id hid).2 hub)⟩

/-- A stored file, or an identifier the thread owns itself, is owned by
no other thread. -/
theorem Core.not_other (h : Core env w log ros)
    (hi : ros[i]? = some (op, some ph)) {c : UUID}
    (hc : ph.owns = some c ∨ ∃ b, fileOf env w c = some b) {j : Nat}
    {op' : Op} {ph₁ : Phase} {id : UUID} (hji : j ≠ i)
    (hj : ros[j]? = some (op', some ph₁)) (hown : ph₁.owns = some id) :
    id ≠ c := by
  rintro rfl
  rcases hc with hc | ⟨b, hb⟩
  · exact hji (h.threads.apart hj hi hown hc)
  · rw [(h.threads.owned hj hown).file] at hb
    cases hb

/-- The candidate rows of `w` after one write to candidate `c`. -/
structure RowsStep (w : World) (t : Relational.Table candidateSchema)
    (c : UUID) : Prop where
  keep : ∀ r, r.id ≠ c → (r ∈ t.rows ↔ r ∈ w.db.candidates.rows)
  rows : ∀ r ∈ w.db.candidates.rows,
    ∃ r' ∈ t.rows, r'.id = r.id ∧ r'.tenantId = r.tenantId

/-- The world with other candidate rows. -/
def withRows (w : World) (t : Relational.Table candidateSchema) : World :=
  { w with db := { w.db with candidates := t } }

theorem RowsStep.grows {t : Relational.Table candidateSchema} {c : UUID}
    (h : RowsStep w t c) : Grows w (withRows w t) where
  used _ hid := hid
  files _ _ _ hv := hv
  rows tt cc hr := by
    obtain ⟨r, hmem, hid, ht⟩ := hr
    obtain ⟨r', hmem', hid', ht'⟩ := h.rows r hmem
    exact ⟨r', hmem', hid'.trans hid, ht'.trans ht⟩

theorem RowsStep.untouched {t : Relational.Table candidateSchema}
    {c id : UUID} (h : RowsStep w t c) (hid : id ≠ c) :
    Untouched env w (withRows w t) id where
  file := rfl
  rows r hr := h.keep r (hr ▸ hid)
  jobs _ hj _ := hj

/-- A write to a candidate row the thread may write. -/
theorem Core.rows (h : Core env w log ros)
    (hi : ros[i]? = some (op, some ph))
    {t : Relational.Table candidateSchema} {c : UUID}
    (hstep : RowsStep w t c)
    (hc : ph.owns = some c ∨ ∃ b, fileOf env w c = some b)
    (hok : ∀ r ∈ t.rows, r.id = c → RowOk env w (ev :: log) r)
    (hslot : SlotOk env (withRows w t) (ev :: log) op ph')
    (hown : ∀ id, ph'.owns = some id →
      ph.owns = some id ∧ ph'.unborn = false) :
    Core env (withRows w t) (ev :: log) (ros.set i (op, some ph')) := by
  have hlog : ∀ x, x ∈ log → x ∈ ev :: log :=
    fun x hx => List.mem_cons_of_mem _ hx
  constructor
  · constructor
    · intro r hr
      by_cases hid : r.id = c
      · exact (hok r hr hid).mono (fun _ hx => hx) (fun _ => rfl) fun _ hx => hx
      · exact (h.stores.rows r ((hstep.keep r hid).mp hr)).mono
          (fun _ hx => hx) (fun _ => rfl) hlog
    · exact h.stores.jobs
    · exact h.stores.files
    · exact fun q hq => (h.stores.queue q hq).grow hstep.grows
  · refine h.threads.advance hi hstep.grows hlog
      (fun hji hj hown' => hstep.untouched (h.not_other hi hc hji hj hown'))
      hslot ?_ fun id hid => .inl (hown id hid).1
    intro id hid
    obtain ⟨hold, hborn⟩ := hown id hid
    have howned := h.threads.owned hi hold
    refine ⟨howned.drawn, howned.file, fun hub => ?_, fun hub => ?_⟩
    · rw [hborn] at hub
      cases hub
    · rw [hborn] at hub
      cases hub

/-- A new identifier. -/
theorem Core.draw (h : Core env w log ros)
    (hi : ros[i]? = some (op, some ph)) {u : UUID} (hu : u ∉ w.usedIds) :
    Core env { w with usedIds := u :: w.usedIds } (ev :: log)
      (ros.set i (op, some (.named u))) := by
  have hlog : ∀ x, x ∈ log → x ∈ ev :: log :=
    fun x hx => List.mem_cons_of_mem _ hx
  have hg : Grows w { w with usedIds := u :: w.usedIds } :=
    ⟨fun _ hid => List.mem_cons_of_mem _ hid, fun _ _ _ hv => hv,
      fun _ _ hr => hr⟩
  constructor
  · exact ⟨fun r hr => (h.stores.rows r hr).mono hg.used (fun _ => rfl) hlog,
      fun j hj => ⟨hg.used _ (h.stores.jobs j hj).1, (h.stores.jobs j hj).2⟩,
      fun id b hb => hg.used _ (h.stores.files id b hb),
      fun q hq => (h.stores.queue q hq).grow hg⟩
  · refine h.threads.advance hi hg hlog
      (fun _ _ _ => ⟨rfl, fun _ _ => Iff.rfl, fun _ hj _ => hj⟩) trivial
      ?_ ?_
    · rintro id ⟨⟩
      refine ⟨List.mem_cons_self .., ?_, fun _ r hr hid => ?_,
        fun _ j hj hid => ?_⟩
      · cases hf : fileOf env { w with usedIds := u :: w.usedIds } u with
        | none => rfl
        | some b => exact absurd (h.stores.files u b hf) hu
      · exact hu (hid ▸ (h.stores.rows r hr).drawn)
      · exact hu (hid ▸ (h.stores.jobs j hj).1)
    · rintro id ⟨⟩
      exact .inr hu

/-- A new job row. -/
theorem Core.job (h : Core env w log ros)
    (hi : ros[i]? = some (op, some ph)) {row : Job}
    {t : Relational.Table jobSchema} (hc : ph.owns = some row.id)
    (hvec : row.pineconeId = some (jobVectorId row.id.str))
    (ht : w.db.jobs.insert? row = some t) :
    Core env { w with db := { w.db with jobs := t } } (ev :: log)
      (ros.set i (op, some .idle)) := by
  have hlog : ∀ x, x ∈ log → x ∈ ev :: log :=
    fun x hx => List.mem_cons_of_mem _ hx
  have hg : Grows w { w with db := { w.db with jobs := t } } :=
    ⟨fun _ hid => hid, fun _ _ _ hv => hv, fun _ _ hr => hr⟩
  constructor
  · refine ⟨fun r hr => (h.stores.rows r hr).mono hg.used (fun _ => rfl) hlog,
      fun j hj => ?_, h.stores.files,
      fun q hq => (h.stores.queue q hq).grow hg⟩
    rcases (Relational.Table.mem_insert? ht).mp hj with hj | rfl
    · exact h.stores.jobs j hj
    · exact ⟨(h.threads.owned hi hc).drawn, hvec⟩
  · refine h.threads.advance hi hg hlog ?_ trivial
      (fun id hid => nomatch hid) fun id hid => nomatch hid
    intro j op' ph₁ id hji hj hown
    refine ⟨rfl, fun _ _ => Iff.rfl, fun j' hj' hid => ?_⟩
    rcases (Relational.Table.mem_insert? ht).mp hj' with hj' | rfl
    · exact hj'
    · exact absurd hid.symm (h.not_other hi (.inl hc) hji hj hown)

/-- A file put under the thread's own identifier, its row still the
placeholder. -/
theorem Core.put (h : Core env w log ros) {row : Candidate}
    (hi : ros[i]? = some (op, some (.placed row))) {b : List UInt8}
    (hslot : SlotOk env
      { w with s3 := setAt w.s3 env.s3BucketName (uploadKey row.id) b }
      (ev :: log) op ph') (hown : ph'.owns = none) :
    Core env
      { w with s3 := setAt w.s3 env.s3BucketName (uploadKey row.id) b }
      (ev :: log) (ros.set i (op, some ph')) := by
  have hlog : ∀ x, x ∈ log → x ∈ ev :: log :=
    fun x hx => List.mem_cons_of_mem _ hx
  have howned := h.threads.owned hi (show (Phase.placed row).owns = some row.id from rfl)
  obtain ⟨t, file, now, -, hrow, hmem⟩ := h.threads.slots hi
  have hother : ∀ id, id ≠ row.id → fileOf env
      { w with s3 := setAt w.s3 env.s3BucketName (uploadKey row.id) b } id
      = fileOf env w id := by
    intro id hid
    show setAt _ _ _ _ _ _ = _
    rw [setAt, if_neg]
    · rfl
    · exact fun hk => hid (uploadKey_injective hk.2)
  have hg : Grows w
      { w with s3 := setAt w.s3 env.s3BucketName (uploadKey row.id) b } := by
    refine ⟨fun _ hid => hid, fun bk k v hv => ?_, fun _ _ hr => hr⟩
    show setAt _ _ _ _ _ _ = _
    rw [setAt, if_neg]
    · exact hv
    · rintro ⟨rfl, rfl⟩
      rw [show w.s3 env.s3BucketName (uploadKey row.id) = none from
        howned.file] at hv
      cases hv
  constructor
  · constructor
    · intro r hr
      refine (h.stores.rows r hr).mono hg.used (fun hs => ?_) hlog
      by_cases hid : r.id = row.id
      · -- the only row with this identifier is the pending placeholder
        rw [candidate_unique hr hmem hid, hrow] at hs
        cases hs
      · exact hother r.id hid
    · exact h.stores.jobs
    · intro id b' hb'
      by_cases hid : id = row.id
      · exact hid ▸ howned.drawn
      · exact h.stores.files id b' (hother id hid ▸ hb')
    · exact fun q hq => (h.stores.queue q hq).grow hg
  · refine h.threads.advance hi hg hlog (fun hji hj hown' => ?_) hslot
      (fun id hid => by rw [hown] at hid; cases hid)
      fun id hid => by rw [hown] at hid; cases hid
    exact ⟨hother _ (h.not_other hi (.inl rfl) hji hj hown'),
      fun _ _ => Iff.rfl, fun _ hj' _ => hj'⟩

/-- A message published for a kept upload. -/
theorem Core.publish (h : Core env w log ros)
    (hi : ros[i]? = some (op, some ph)) {m : Message} {n : Nat}
    (hm : MessageOk env w m)
    (hslot : SlotOk env w (ev :: log) op ph') (hown : ph'.owns = none) :
    Core env { w with queue := w.queue ++ [{ message := m }], nextReceipt := n }
      (ev :: log) (ros.set i (op, some ph')) := by
  have hlog : ∀ x, x ∈ log → x ∈ ev :: log :=
    fun x hx => List.mem_cons_of_mem _ hx
  have hg : Grows w
      { w with queue := w.queue ++ [{ message := m }], nextReceipt := n } :=
    ⟨fun _ hid => hid, fun _ _ _ hv => hv, fun _ _ hr => hr⟩
  constructor
  · refine ⟨fun r hr => (h.stores.rows r hr).mono hg.used (fun _ => rfl) hlog,
      h.stores.jobs, h.stores.files, fun q hq => ?_⟩
    rcases List.mem_append.mp hq with hq | hq
    · exact (h.stores.queue q hq).grow hg
    · rw [List.mem_singleton.mp hq]
      exact hm.grow hg
  · exact h.threads.advance hi hg hlog
      (fun _ _ _ => ⟨rfl, fun _ _ => Iff.rfl, fun _ hj' _ => hj'⟩)
      (hslot.grow hg (fun _ hx => hx) fun _ _ hmem => hmem)
      (fun id hid => by rw [hown] at hid; cases hid)
      fun id hid => by rw [hown] at hid; cases hid

-- ========================================================== writes to rows

theorem rowsStep_insert {row : Candidate}
    {t : Relational.Table candidateSchema}
    (ht : w.db.candidates.insert? row = some t) : RowsStep w t row.id where
  keep r hid := by
    rw [Relational.Table.mem_insert? ht]
    exact ⟨fun hr => hr.resolve_right fun he => hid (he ▸ rfl), .inl⟩
  rows r hr := ⟨r, (Relational.Table.mem_insert? ht).mpr (.inl hr), rfl, rfl⟩

theorem rowsStep_update {c : UUID} {set : CandidatePatch}
    {t : Relational.Table candidateSchema}
    (ht : w.db.candidates.update? (fun r => r.id == c) set.apply = some t) :
    RowsStep w t c where
  keep r hid := by
    rw [Relational.Table.mem_update? ht]
    constructor
    · rintro ⟨r₀, hr₀, rfl⟩
      by_cases hc : r₀.id = c
      · rw [if_pos (by simp [hc])] at hid
        exact absurd hc hid
      · rw [if_neg (by simp [hc])]
        exact hr₀
    · intro hr
      exact ⟨r, hr, by rw [if_neg (by simp [hid])]⟩
  rows r hr := by
    refine ⟨_, (Relational.Table.mem_update? ht).mpr ⟨r, hr, rfl⟩, ?_, ?_⟩
    · split <;> rfl
    · split <;> rfl

/-- The slot of a thread, under a longer log. -/
theorem Core.slot (h : Core env w log ros) (ev : Nat × Event sig)
    (hi : ros[i]? = some (op, some ph)) : SlotOk env w (ev :: log) op ph :=
  (h.threads.slots hi).grow ⟨fun _ hid => hid, fun _ _ _ hv => hv,
    fun _ _ hr => hr⟩ (fun _ hx => List.mem_cons_of_mem _ hx)
    fun _ _ hmem => hmem

/-- The commit of one row: unapplied, or the row is there. -/
theorem Core.insert (h : Core env w log ros)
    (hi : ros[i]? = some (op, some ph)) {row : Candidate} (a : Fate)
    (hc : ph.owns = some row.id)
    (hok : fileOf env w row.id = none → RowOk env w (ev :: log) row)
    {r : Except Exn Unit} (hr : (w.commit [.insertCandidate row] a).1 = r)
    (hph : ph' = .idle ∨ ph' = after r (.placed row) .idle
      ∧ ∃ t file now, op = .uploadResume t file
        ∧ row = placeholder t row.id now) :
    Core env (w.commit [.insertCandidate row] a).2 (ev :: log)
      (ros.set i (op, some ph')) := by
  have hfile := (h.threads.owned hi hc).file
  rcases commit_cases w [.insertCandidate row] a with ⟨hw, hne⟩ | ⟨db, hdb, hw⟩
  · obtain rfl : ph' = .idle := by
      rcases hph with hph | ⟨hph, -⟩
      · exact hph
      · cases r with
        | ok u => exact absurd hr (hne u)
        | error x => exact hph
    rw [hw]
    exact h.alike hi (.refl w) trivial fun id hid => nomatch hid
  · rw [writeAll_one] at hdb
    obtain ⟨t, ht, rfl⟩ := write_insertCandidate hdb
    rw [hw]
    refine h.rows hi (rowsStep_insert ht) (.inl hc) ?_ ?_ ?_
    · intro r₁ hr₁ hid
      rcases (Relational.Table.mem_insert? ht).mp hr₁ with hold | rfl
      · have hclash := (Relational.Table.insert?_valid ht).2 r₁ hold
        simp [candidateSchema, hid] at hclash
      · exact hok hfile
    · rcases hph with rfl | ⟨rfl, tt, file, now, hop, hrow⟩
      · trivial
      · cases r with
        | ok u => exact ⟨tt, file, now, hop, hrow,
            (Relational.Table.mem_insert? ht).mpr (.inr rfl)⟩
        | error x => trivial
    · intro id hid
      rcases hph with rfl | ⟨rfl, -⟩
      · cases hid
      · cases r with
        | ok u =>
            cases hid
            exact ⟨hc, rfl⟩
        | error x => cases hid

/-- The commit of a worker's statement on its candidate's row. -/
theorem Core.update (h : Core env w log ros)
    (hi : ros[i]? = some (op, some ph)) {c : UUID} {set : CandidatePatch}
    (a : Fate) (hc : ∃ b, fileOf env w c = some b)
    (hok : ∀ r, RowOk env w log r → r.id = c →
      RowOk env w (ev :: log) (set.apply r))
    (hslot : SlotOk env w (ev :: log) op ph') (hown : ph'.owns = none) :
    Core env (w.commit [.updateCandidate c set] a).2 (ev :: log)
      (ros.set i (op, some ph')) := by
  have hnone : ∀ id, ph'.owns ≠ some id := fun id hid => by
    rw [hown] at hid
    cases hid
  rcases commit_cases w [.updateCandidate c set] a with ⟨hw, -⟩ | ⟨db, hdb, hw⟩
  · rw [hw]
    exact h.alike hi (.refl w) hslot fun id hid => absurd hid (hnone id)
  · rw [writeAll_one] at hdb
    obtain ⟨t, ht, rfl⟩ := write_updateCandidate hdb
    rw [hw]
    have hstep := rowsStep_update ht
    refine h.rows hi hstep (.inr hc) ?_ ?_ fun id hid => absurd hid (hnone id)
    · intro r₁ hr₁ hid
      obtain ⟨r₀, hr₀, rfl⟩ := (Relational.Table.mem_update? ht).mp hr₁
      by_cases hc₀ : r₀.id = c
      · rw [if_pos (by simp [hc₀])]
        exact hok r₀ (h.stores.rows r₀ hr₀) hc₀
      · rw [if_neg (by simp [hc₀])] at hid
        exact absurd hid hc₀
    · refine hslot.grow hstep.grows (fun _ hx => hx) fun row hrow _ => ?_
      rw [hrow] at hown
      cases hown

/-- A status short of `processed` leaves a row in order. -/
theorem RowOk.status {r : Candidate} (h : RowOk env w log r) {s : Status}
    (hs : s ≠ .processed) :
    RowOk env w log' (CandidatePatch.apply { status := some s } r) where
  drawn := h.drawn
  vector := h.vector
  whole hp := absurd hp hs
  own hp := absurd hp hs

/-- The final write of a handling leaves a processed row, filled from the
handling's file. -/
theorem RowOk.index {r row : Candidate} {text : String} {p : ParsedResume}
    {b : List UInt8} (h : RowOk env w log r) (hid : r.id = row.id)
    (hfile : fileOf env w row.id = some b) (hreads : Reads env b text)
    (hans : Answered log' text p) :
    RowOk env w log' ((filledPatch (indexed row p text)).apply r) where
  drawn := h.drawn
  vector := .inr (by rw [show ((filledPatch (indexed row p text)).apply r).id
    = row.id from hid]; rfl)
  whole _ := ⟨rfl, by
    rw [show ((filledPatch (indexed row p text)).apply r).id = row.id from hid]
    rfl⟩
  own _ b' hb' := by
    have hb : fileOf env w r.id = some b' := hb'
    rw [hid, hfile, Option.some.injEq] at hb
    subst hb
    exact ⟨text, p, hreads, hans, rfl⟩

end Steps

end ResumeScreening.Pipeline
