/-
A processed candidate stays processed — unless its message is handled a
second time over the finished row.

`process_pending_candidate` never looks at the status it finds. Three
things follow, and a run without them (`Undisturbed`) keeps every
processed row processed: a worker takes a finished candidate up again
from a redelivered message; a worker finishes a candidate while another
one is about to write `processing` or `failed` to it; the language
model refuses, on a second handling, the text of a finished candidate.

The invariant (`Steady`) says of every thread that is about to commit
`processing` or `failed` that the row is not processed, of every worker
past its final commit that the row is, and of the status table that it
never runs ahead of Postgres.
-/
import ResumeScreening.Pipeline.Status

namespace ResumeScreening.Pipeline

open Effect

variable {env : Env} {w w' : World} {log : Log sig}
  {ros : Roster (service env) Phase} {i : Nat} {op : Op} {ph ph' : Phase}

-- ============================================================= the condition

/-- The candidate's row is committed `processed`. -/
def IsProcessed (w : World) (c : UUID) : Prop :=
  ∃ r ∈ w.db.candidates.rows, r.id = c ∧ r.status = .processed

/-- The statement takes a candidate's row to `processing` or `failed`. -/
def unsettles (c : UUID) (x : Write) : Bool :=
  setsStatus c .processing x || setsStatus c .failed x

/-- A statement a worker commits that sets a status, and is not one of
these, sets `processed`. -/
theorem harmless_status {c : UUID} {x : Write} {status : Status}
    (hharm : unsettles c x = false) (hset : setsStatus c status x = true)
    (hkind : status = .processing ∨ status.final = true) :
    status = .processed := by
  unfold unsettles at hharm
  rw [Bool.or_eq_false_iff] at hharm
  cases status with
  | processed => rfl
  | processing => rw [hharm.1] at hset; cases hset
  | failed => rw [hharm.2] at hset; cases hset
  | pending => rcases hkind with hkind | hkind <;> cases hkind

/-- Thread `j` is about to commit such a statement. -/
def threatens (s : Sys (service env)) (c : UUID) (j : Nat) : Bool :=
  match s.next? j with
  | some (.commit pending) => pending.any (unsettles c)
  | _ => false

/-- The candidates a worker's step takes up. -/
def takenUp (s : Sys (service env)) : Label (service env) → List UUID
  | .act i ans =>
      match s.op? i, s.next? i with
      | some .worker, some (.selectCandidate t c) =>
          if Except.isOk (ans (.selectCandidate t c)) then [c] else []
      | _, _ => []
  | _ => []

/-- The texts the language model refuses in a step. -/
def refused (s : Sys (service env)) : Label (service env) → List String
  | .act i ans =>
      match s.next? i with
      | some (.parseResume text) =>
          match (ans (.parseResume text) : Except LibraryError ParsedResume) with
          | .error (.valueError _) => [text]
          | _ => []
      | _ => []
  | _ => []

/-- The step takes up no processed candidate, finishes none that another
thread is about to unsettle, and refuses no processed candidate's
text. -/
structure Undisturbed (env : Env) (s : Sys (service env))
    (l : Label (service env)) : Prop where
  takes : ∀ r ∈ s.world.db.candidates.rows, r.status = .processed →
    r.id ∉ takenUp s l
  alone : ∀ r ∈ s.world.db.candidates.rows, ∀ x ∈ commits s l,
    setsStatus r.id .processed x = true →
      ∀ j < s.threads.length, l.actor ≠ some j → threatens s r.id j = false
  refuses : ∀ r ∈ s.world.db.candidates.rows, r.status = .processed →
    ∀ text ∈ refused s l, r.rawText ≠ some text

instance (s : Sys (service env)) (l : Label (service env)) :
    Decidable (Undisturbed env s l) :=
  decidable_of_iff
    ((∀ r ∈ s.world.db.candidates.rows, r.status = .processed →
        r.id ∉ takenUp s l)
      ∧ (∀ r ∈ s.world.db.candidates.rows, ∀ x ∈ commits s l,
        setsStatus r.id .processed x = true → ∀ j < s.threads.length,
          l.actor ≠ some j → threatens s r.id j = false)
      ∧ ∀ r ∈ s.world.db.candidates.rows, r.status = .processed →
        ∀ text ∈ refused s l, r.rawText ≠ some text)
    ⟨fun h => ⟨h.1, h.2.1, h.2.2⟩, fun h => ⟨h.takes, h.alone, h.refuses⟩⟩

-- ============================================================= the invariant

/-- The candidate whose row a thread is due to unsettle. -/
def Phase.opens : Phase → Option UUID
  | .loaded _ row => if row.status = .processing then none else some row.id
  | .rejected _ row _ => some row.id
  | _ => none

/-- The task whose row has been committed processed. -/
def Phase.settled : Phase → Option Task
  | .finished k | .reported k => some k
  | _ => none

structure Steady (env : Env) (w : World)
    (ros : Roster (service env) Phase) : Prop where
  opens : Slots (fun (_ : Op) (ph : Phase) => ∀ c, ph.opens = some c →
    ¬ IsProcessed w c) ros
  settled : Slots (fun (_ : Op) (ph : Phase) => ∀ k, ph.settled = some k →
    IsProcessed w k.candidateId) ros
  marks : ∀ c : UUID, w.dynamo c.str = some "ai-processed" → IsProcessed w c

-- =============================================================== single phases

theorem opens_loaded {k : Task} {row : Candidate} {c : UUID} :
    (Phase.loaded k row).opens = some c
      ↔ row.status ≠ .processing ∧ row.id = c := by
  unfold Phase.opens
  by_cases hs : row.status = .processing
  · simp [hs]
  · simp [hs]

/-- The row of a candidate in a phase that opens it. -/
theorem hasRow_of_opens {c : UUID} (hs : SlotOk env w log op ph)
    (h : ph.opens = some c) : ∃ t, HasRow w t c := by
  cases ph with
  | loaded k row =>
      obtain ⟨-, rfl⟩ := opens_loaded.mp h
      rw [hs.2.1]
      exact ⟨k.tenantId, hs.1.row⟩
  | rejected k row text =>
      cases h
      rw [hs.2.1]
      exact ⟨k.tenantId, hs.1.row⟩
  | _ => cases h

/-- A phase that opens a row has its commit due. -/
theorem due_of_opens {c : UUID} (h : ph.opens = some c) :
    ∃ pending, ph.due = some (.commit pending)
      ∧ pending.any (unsettles c) = true := by
  cases ph with
  | loaded k row =>
      obtain ⟨hs, rfl⟩ := opens_loaded.mp h
      refine ⟨processingWrites row, rfl, ?_⟩
      rw [show processingWrites row
        = [.updateCandidate row.id { status := some .processing }] from
        if_neg hs]
      simp [unsettles, setsStatus]
  | rejected k row text =>
      cases h
      exact ⟨_, rfl, by simp [failedWrite, unsettles, setsStatus]⟩
  | _ => cases h

theorem threatens_of_opens {s : Sys (service env)} {c : UUID}
    (htr : (protocol env).Tracks s ros) (hi : ros[i]? = some (op, some ph))
    (h : ph.opens = some c) : threatens s c i = true := by
  obtain ⟨pending, hdue, hany⟩ := due_of_opens h
  unfold threatens
  rw [next_of_due htr hi hdue]
  exact hany

/-- A text is read off a file in one way. -/
theorem Reads.unique {b : List UInt8} {t t' : String}
    (h : Reads env b t) (h' : Reads env b t') : t = t' := by
  have heq : (Except.ok t : Except Exn String) = .ok t' := h.1.symm.trans h'.1
  cases heq
  rfl

/-- A statement that unsettles a row is due, or discards an unreadable
file. -/
theorem unsettles_move {pending : List Write} {r : Except Exn Unit}
    (hm : Move env op ph ⟨.commit pending, r⟩ ph') {x : Write}
    (hx : x ∈ pending) {c : UUID} (hc : unsettles c x = true) :
    ph.opens = some c ∨ ∃ k row, ph = .marked k row ∧ row.id = c
      ∧ ∀ text, ¬ Reads env k.bytes text := by
  have hone : ∀ {y : Write}, x ∈ [y] → unsettles c y = true := fun hmem => by
    rw [← List.mem_singleton.mp hmem]
    exact hc
  cases hm with
  | quiet hq =>
      have hel := List.all_eq_true.mp (show pending.all elsewhere = true from hq)
        x hx
      cases x with
      | insertCandidate row => cases hel
      | updateCandidate id set => cases hel
      | insertJob row => cases hel
      | _ => simp [unsettles, setsStatus] at hc
  | place => exact absurd (hone hx) (by simp [unsettles, setsStatus])
  | create => exact absurd (hone hx) (by simp [unsettles, setsStatus])
  | createJob => exact absurd (hone hx) (by simp [unsettles, setsStatus])
  | @mark k row r =>
      unfold processingWrites setStatus at hx
      split at hx
      · cases hx
      next hs =>
        have hid : row.id = c := by
          simpa [unsettles, setsStatus] using hone hx
        exact .inl (opens_loaded.mpr ⟨hs, hid⟩)
  | @discardFile k row r hnone =>
      have hid : row.id = c := by
        simpa [unsettles, setsStatus, failedWrite] using hone hx
      exact .inr ⟨k, row, rfl, hid, hnone⟩
  | @discardAnswer k row text r =>
      have hid : row.id = c := by
        simpa [unsettles, setsStatus, failedWrite] using hone hx
      exact .inl (by rw [Phase.opens, hid])
  | @finish k row text p r =>
      exact absurd (hone hx) (by
        simp [unsettles, setsStatus, indexWrite, filledPatch, indexed,
          withVector, filled])

/-- A processed row is unsettled by no move. -/
theorem Steady.harmless {pending : List Write} {r : Except Exn Unit}
    (h : Steady env w ros) (hc : Core env w log ros)
    (hi : ros[i]? = some (op, some ph))
    (hm : Move env op ph ⟨.commit pending, r⟩ ph') {c : UUID}
    (hp : IsProcessed w c) {x : Write} (hx : x ∈ pending) :
    unsettles c x = false := by
  by_contra hne
  rw [Bool.not_eq_false] at hne
  rcases unsettles_move hm hx hne with hopens | ⟨k, row, rfl, hid, hnone⟩
  · exact h.opens.get hi c hopens hp
  · obtain ⟨r₀, hr₀, hid₀, hs⟩ := hp
    obtain ⟨hk, hrow, -⟩ := hc.threads.slots hi
    have hfile : fileOf env w r₀.id = some k.bytes := by
      rw [hid₀, ← hid, hrow]
      exact hk.file
    obtain ⟨text, p, hreads, -⟩ := (hc.stores.rows r₀ hr₀).own hs _ hfile
    exact hnone text hreads

-- ================================================================== one step

section Step

variable {s : Sys (service env)} {e : Act} {k : Except Exn e.Ret → Py Resp}
  {ans : (e : Act) → e.Ans} {r : Except Exn e.Ret}

/-- What a step commits is among the statements of its action. -/
theorem commits_act {x : Write} {l : Label (service env)}
    (hx : x ∈ commits s l) : ∃ i ans pending, l = .act i ans
      ∧ s.next? i = some (.commit pending) ∧ x ∈ pending := by
  unfold commits at hx
  split at hx
  next i ans =>
    split at hx
    next pending hnext =>
      split at hx
      · exact ⟨i, ans, pending, rfl, hnext, hx⟩
      · cases hx
    · cases hx
  · cases hx

/-- One step keeps a processed row processed. -/
theorem processed_step (h : Steady env s.world ros)
    (hc : Core env s.world s.log ros) (hi : ros[i]? = some (op, some ph))
    (ht : s.threads[i]? = some ⟨op, some (.act e k)⟩)
    (hw : (perform env e (ans e) s.world).2 = w')
    (hm : Move env op ph ⟨e, r⟩ ph')
    (hdid : Did env s.world op ph ⟨e, r⟩ w') {c : UUID}
    (hp : IsProcessed s.world c) : IsProcessed w' c := by
  obtain ⟨r₀, hr₀, rfl, hs⟩ := hp
  obtain ⟨r', hr', hid, hstatus⟩ := status_step ht hw hdid hr₀
  refine ⟨r', hr', hid, ?_⟩
  rcases hstatus with hsame | ⟨status, ⟨x, hx, hset⟩, hstatus, hkind⟩
  · rw [hsame]
    exact hs
  · obtain ⟨i', ans', pending, hl, hnext, hmem⟩ := commits_act hx
    cases hl
    rw [next_of_thread ht] at hnext
    cases hnext
    have hharm := h.harmless hc hi hm ⟨r₀, hr₀, rfl, hs⟩ hmem
    exact hstatus.trans (harmless_status hharm hset hkind)

/-- One step processes no row that another thread is due to unsettle. -/
theorem unprocessed_step (hok : Undisturbed env s (.act i ans))
    (htr : (protocol env).Tracks s ros) (hc : Core env s.world s.log ros)
    (ht : s.threads[i]? = some ⟨op, some (.act e k)⟩)
    (hw : (perform env e (ans e) s.world).2 = w')
    (hdid : Did env s.world op ph ⟨e, r⟩ w') {j : Nat} {op' : Op}
    {ph₁ : Phase} (hji : j ≠ i) (hj : ros[j]? = some (op', some ph₁)) {c : UUID}
    (hopens : ph₁.opens = some c) (hn : ¬ IsProcessed s.world c) :
    ¬ IsProcessed w' c := by
  intro hp
  obtain ⟨r₁, hr₁, hid₁, hs₁⟩ := hp
  obtain ⟨t, r₀, hr₀, rfl, -⟩ := hasRow_of_opens (hc.threads.slots hj) hopens
  obtain ⟨r', hr', hid', hstatus⟩ := status_step ht hw hdid hr₀
  obtain rfl := candidate_unique hr' hr₁ (hid'.trans hid₁.symm)
  rcases hstatus with hold | ⟨status, ⟨x, hx, hset⟩, hstatus, -⟩
  · exact hn ⟨r₀, hr₀, rfl, hold ▸ hs₁⟩
  · rw [← hstatus, hs₁] at hset
    have hlt : j < s.threads.length := by
      obtain ⟨p, hp, -⟩ := htr.thread hj
      exact (List.getElem?_eq_some_iff.mp hp).1
    have hquiet := hok.alone r₀ hr₀ x hx hset j hlt fun hact =>
      hji (Option.some.inj hact).symm
    rw [threatens_of_opens htr hj hopens] at hquiet
    cases hquiet

/-- A thread comes to unsettle a row only by taking up a row that is not
processed, or by being refused its text. -/
theorem opens_move (hok : Undisturbed env s (.act i ans))
    (hc : Core env s.world s.log ros) (hi : ros[i]? = some (op, some ph))
    (ht : s.threads[i]? = some ⟨op, some (.act e k)⟩)
    (hr : (perform env e (ans e) s.world).1 = r)
    (hm : Move env op ph ⟨e, r⟩ ph') {c : UUID} (h : ph'.opens = some c) :
    ¬ IsProcessed s.world c
      ∧ (perform env e (ans e) s.world).2 = s.world := by
  have hslot := hc.threads.slots hi
  cases hm with
  | quiet hq hdue =>
      obtain ⟨pending, hd, -⟩ := due_of_opens h
      rw [hdue] at hd
      cases hd
  | @load m ms bytes t c' text row hnames =>
      obtain ⟨-, hc'⟩ := opens_loaded.mp h
      obtain ⟨-, hid, -⟩ := selectCandidate_ok hr
      have hans : Except.isOk (ans (.selectCandidate t c')) = true := by
        cases ha : (ans (.selectCandidate t c') : Except String Unit) with
        | ok u => rfl
        | error msg =>
            have hbad : (s.world.read (ans (.selectCandidate t c')) _).1
              = .ok (some row) := hr
            rw [ha] at hbad
            cases hbad
      have htaken : takenUp s (.act i ans) = [c'] := by
        simp only [takenUp, op_of_thread ht, next_of_thread ht, hans,
          if_true]
      refine ⟨fun hp => ?_, read_snd _ _⟩
      obtain ⟨r₀, hr₀, hid₀, hs⟩ := hp
      refine hok.takes r₀ hr₀ hs ?_
      rw [htaken, List.mem_singleton, hid₀, ← hc', hid]
  | @reject k' row text msg hreads =>
      have hc' : row.id = c := Option.some.inj h
      have hans : ∃ msg, (ans (.parseResume text)
          : Except LibraryError ParsedResume) = .error (.valueError msg) := by
        cases ha : (ans (.parseResume text)
            : Except LibraryError ParsedResume) with
        | ok p =>
            simp only [perform, ha] at hr
            cases hr
        | error x =>
            simp only [perform, ha] at hr
            cases x with
            | valueError m => exact ⟨m, rfl⟩
            | other m => cases hr
      obtain ⟨m, ha⟩ := hans
      have hrefused : text ∈ refused s (.act i ans) := by
        simp only [refused, next_of_thread ht, ha, List.mem_singleton]
      refine ⟨fun hp => ?_, by simp only [perform, ha]⟩
      obtain ⟨r₀, hr₀, hid₀, hs⟩ := hp
      have hfile : fileOf env s.world r₀.id = some k'.bytes := by
        rw [hid₀, ← hc', hslot.2.1]
        exact hslot.1.file
      obtain ⟨text', p, hreads', -, hfilled⟩ :=
        (hc.stores.rows r₀ hr₀).own hs _ hfile
      refine hok.refuses r₀ hr₀ hs text hrefused ?_
      rw [← hfilled, hreads.unique hreads']
      rfl
  | place => exact after_elim Phase.opens h rfl rfl
  | keep => exact after_elim Phase.opens h rfl rfl
  | send => exact after_elim Phase.opens h rfl rfl
  | store => exact after_elim Phase.opens h rfl rfl
  | storeJob => exact after_elim Phase.opens h rfl rfl
  | mark => exact after_elim Phase.opens h rfl rfl
  | discardFile => exact after_elim Phase.opens h rfl rfl
  | discardAnswer => exact after_elim Phase.opens h rfl rfl
  | index => exact after_elim Phase.opens h rfl rfl
  | finish => exact after_elim Phase.opens h rfl rfl
  | report => exact after_elim Phase.opens h rfl rfl
  | delete hph => rcases hph with rfl | rfl <;> exact after_elim Phase.opens h rfl rfl
  | _ => cases h

/-- A row is processed once the final commit has gone through. -/
theorem settled_move (hc : Core env s.world s.log ros)
    (hi : ros[i]? = some (op, some ph))
    (hr : (perform env e (ans e) s.world).1 = r)
    (hw : (perform env e (ans e) s.world).2 = w')
    (hm : Move env op ph ⟨e, r⟩ ph') {k' : Task} (h : ph'.settled = some k') :
    ph.settled = some k' ∨ IsProcessed w' k'.candidateId := by
  have hslot := hc.threads.slots hi
  cases hm with
  | quiet => exact .inl h
  | @finish k row text p r =>
      rcases after_view Phase.settled h with ⟨hk, u, rfl⟩ | hk
      · cases hk
        obtain ⟨hk, hid, -⟩ := hslot
        refine .inr ?_
        rw [← hid]
        exact status_commit hr hw rfl (hid ▸ hk.row)
      · cases hk
  | report =>
      rcases after_view Phase.settled h with ⟨hk, -⟩ | hk
      · exact .inl hk
      · exact .inl hk
  | delete =>
      rcases after_view Phase.settled h with ⟨hk, -⟩ | hk
      · cases hk
      · exact .inl hk
  | place => exact after_elim Phase.settled h rfl rfl
  | keep => exact after_elim Phase.settled h rfl rfl
  | send => exact after_elim Phase.settled h rfl rfl
  | store => exact after_elim Phase.settled h rfl rfl
  | storeJob => exact after_elim Phase.settled h rfl rfl
  | mark => exact after_elim Phase.settled h rfl rfl
  | discardFile => exact after_elim Phase.settled h rfl rfl
  | discardAnswer => exact after_elim Phase.settled h rfl rfl
  | index => exact after_elim Phase.settled h rfl rfl
  | _ => cases h

/-- Only the report of a finished task marks a candidate. -/
theorem dynamo_move (hi : SlotOk env s.world s.log op ph)
    (hw : (perform env e (ans e) s.world).2 = w')
    (hm : Move env op ph ⟨e, r⟩ ph') : w'.dynamo = s.world.dynamo
      ∨ ∃ k, ph.settled = some k ∧ ∀ c : UUID, c ≠ k.candidateId →
        w'.dynamo c.str = s.world.dynamo c.str := by
  subst hw
  by_cases hq : quiet e = true
  · exact .inl (quiet_same hq _ _).dynamo
  · have hcommit : ∀ pending a, (s.world.commit pending a).2.dynamo
        = s.world.dynamo := by
      intro pending a
      obtain ⟨db, hw⟩ := commit_rows s.world pending a
      rw [hw]
    have hwrite : ∀ (w₁ : World) (a : Fate), w₁.dynamo = s.world.dynamo →
        (s.world.write w₁ a).2.dynamo = s.world.dynamo := fun w₁ a heq =>
      write_ends (P := fun w => w.dynamo = s.world.dynamo) a heq rfl
    cases e with
    | uuid4 => exact .inl rfl
    | commit pending => exact .inl (hcommit pending _)
    | upsert ns v => exact .inl (hwrite _ _ rfl)
    | putObject bucket key body => exact .inl (hwrite _ _ rfl)
    | sendMessage body => exact .inl (hwrite _ _ rfl)
    | deleteMessage handle => exact .inl (hwrite _ _ rfl)
    | receiveMessage =>
        show (perform env .receiveMessage (ans .receiveMessage)
          s.world).2.dynamo = _ ∨ _
        cases (ans .receiveMessage : Except String (List Nat)) with
        | ok handles => exact .inl rfl
        | error msg => exact .inl rfl
    | updateItem c status =>
        cases hm with
        | quiet hq' => exact absurd hq' hq
        | @report k r =>
            refine .inr ⟨k, rfl, fun c hne => ?_⟩
            show (s.world.write _ _).2.dynamo c.str = _
            rw [write_snd]
            split
            · show (if c.str = k.text then _ else _) = _
              rw [if_neg]
              intro heq
              rw [TaskOk.text hi] at heq
              exact hne (UUID.str_injective heq)
            · rfl
    | _ => exact absurd rfl hq

/-- One performed action keeps the invariant. -/
theorem Steady.act (h : Steady env s.world ros)
    (hc : Core env s.world s.log ros) (htr : (protocol env).Tracks s ros)
    (hi : ros[i]? = some (op, some ph))
    (ht : s.threads[i]? = some ⟨op, some (.act e k)⟩)
    (hadm : admits s.world e (ans e) = true)
    (hok : Undisturbed env s (.act i ans))
    (hr : (perform env e (ans e) s.world).1 = r)
    (hm : Move env op ph ⟨e, r⟩ ph') :
    Steady env (perform env e (ans e) s.world).2
      (ros.set i (op, some ph')) := by
  have hdid := hc.did hi hadm hr hm
  have hkept : ∀ c, IsProcessed s.world c →
      IsProcessed (perform env e (ans e) s.world).2 c :=
    fun c hp => processed_step h hc hi ht rfl hm hdid hp
  constructor
  · refine h.opens.advance (fun hji hj hold c hopens =>
      unprocessed_step hok htr hc ht rfl hdid hji hj hopens (hold c hopens)) ?_
    intro ph₁ hph c hopens
    cases hph
    obtain ⟨hn, hsame⟩ := opens_move hok hc hi ht hr hm hopens
    rw [hsame]
    exact hn
  · refine h.settled.advance
      (fun _ _ hold k' hsettled => hkept _ (hold k' hsettled)) ?_
    intro ph₁ hph k' hsettled
    cases hph
    rcases settled_move hc hi hr rfl hm hsettled with hold | hnew
    · exact hkept _ (h.settled.get hi k' hold)
    · exact hnew
  · intro c hmark
    rcases dynamo_move (hc.threads.slots hi) rfl hm with hsame | ⟨k', hk, hsame⟩
    · rw [hsame] at hmark
      exact hkept c (h.marks c hmark)
    · by_cases hid : c = k'.candidateId
      · rw [hid]
        exact hkept _ (h.settled.get hi k' hk)
      · rw [hsame c hid] at hmark
        exact hkept c (h.marks c hmark)

end Step

-- ================================================================ every run

/-- A thread that starts has nothing due. -/
theorem Steady.renew (h : Steady env w ros)
    {ros' : Roster (service env) Phase} (hr : Renews .idle ros ros') :
    Steady env w ros' := by
  refine ⟨h.opens.renew hr fun _ c hc => ?_,
    h.settled.renew hr fun _ k hk => ?_, h.marks⟩
  · cases hc
  · cases hk

theorem steady_keeps (env : Env) :
    (protocol env).KeepsWith (Undisturbed env) (Core env)
      fun w _ ros => Steady env w ros where
  spawn _ _ h := h.renew renews_append
  act _ htr hc h hi ht hadm hok hm := h.act hc htr hi ht hadm hok rfl hm
  crash _ _ h _ _ _ := h.renew (renews_set (.inl rfl))
  restart _ h _ _ _ := h.renew (renews_set (.inr rfl))
  env k _ h hk := by
    obtain ⟨f, -, rfl⟩ := move_queue hk
    exact ⟨h.opens, h.settled, h.marks⟩

/-- The invariant with the row of one candidate processed. -/
theorem processed_keeps (env : Env) (c : UUID) :
    (protocol env).KeepsWith (Undisturbed env)
      (fun w log ros => Core env w log ros ∧ Steady env w ros)
      fun w _ _ => IsProcessed w c where
  spawn _ _ h := h
  act _ _ hI h hi ht hadm _ hm :=
    processed_step hI.2 hI.1 hi ht rfl hm (hI.1.did hi hadm rfl hm) h
  crash _ _ h _ _ _ := h
  restart _ h _ _ _ := h
  env k _ h hk := by
    obtain ⟨f, -, rfl⟩ := move_queue hk
    exact h

theorem steady_init (env : Env) : Steady env World.empty [] :=
  ⟨.nil, .nil, fun _ h => (nomatch h)⟩

-- ================================================================ the result

/-- In every undisturbed run a processed candidate stays processed: no
later step, whichever it is, commits `processing` or `failed` for it;
and a candidate marked `ai-processed` is processed. -/
theorem processed_stays_processed {s : Sys (service env)}
    (h : GuardedRun env (Undisturbed env) s) :
    (∀ c, IsProcessed s.world c → ∀ t, Run (Undisturbed env) s t →
        IsProcessed t.world c
          ∧ ∀ l, ∀ x ∈ commits t l, unsettles c x = false)
      ∧ ∀ c : UUID, s.world.dynamo c.str = some "ai-processed" →
          IsProcessed s.world c := by
  have hkeeps := (core_keeps env (Undisturbed env)).and (steady_keeps env)
  obtain ⟨ros, htr, hI⟩ := Run.invariant hkeeps (conforms env)
    ⟨core_init env, steady_init env⟩ h
  refine ⟨fun c hp t hrun => ?_, hI.2.marks⟩
  obtain ⟨ros', htr', hI', hp'⟩ := Run.invariant_from
    (hkeeps.and (processed_keeps env c)) (conforms env) hrun htr ⟨hI, hp⟩
  refine ⟨hp', fun l x hx => ?_⟩
  obtain ⟨i, ans, pending, -, hnext, hmem⟩ := commits_act hx
  obtain ⟨op, ph, r, ph', hi, hm⟩ := next_move htr' hnext
  exact hI'.2.harmless hI'.1 hi hm hp' hmem

/-- One upload and its handling are such a run, and mark the
candidate. -/
theorem processed_stays_processed_sample : ∃ s : Sys (service sampleEnv),
    GuardedRun sampleEnv (Undisturbed sampleEnv) s
      ∧ s.world.dynamo sampleRow.id.str = some "ai-processed"
      ∧ IsProcessed s.world sampleRow.id := by
  have hexec : Reaches (sampleUpload ++ .spawn .worker :: steps 1 12)
      (fun s => decide
        (s.world.dynamo sampleRow.id.str = some "ai-processed"))
      (Undisturbed sampleEnv) := by
    decide +kernel
  obtain ⟨s, hrun, hp⟩ := Run.exists_of_exec hexec
  have hmark := of_decide_eq_true hp
  exact ⟨s, hrun, hmark,
    (processed_stays_processed hrun).2 sampleRow.id hmark⟩

/-- A worker dies between the report and the delete, and the message is
delivered again. -/
def reportedOnly : List (Label (service sampleEnv)) :=
  sampleUpload ++ .spawn .worker :: steps 1 10
    ++ [.crash 1, .env (.visibilityPasses 0)]

/-- Another worker takes the message up, as far as its first commit. -/
def secondHandling : List (Label (service sampleEnv)) :=
  .spawn .worker :: steps 2 4

/-- Without the condition a processed candidate is taken back to
`processing`, and stays marked `ai-processed`. -/
theorem processed_reopened : ∃ s t : Sys (service sampleEnv),
    Reachable sampleEnv s ∧ IsProcessed s.world sampleRow.id
      ∧ Run (fun _ _ => True) s t
      ∧ t.world.dynamo sampleRow.id.str = some "ai-processed"
      ∧ ¬ IsProcessed t.world sampleRow.id := by
  have hexec : Reaches reportedOnly fun s =>
      decide (∃ r ∈ s.world.db.candidates.rows,
        r.id = sampleRow.id ∧ r.status = .processed)
      && decide ((s.exec (fun _ _ => True) secondHandling).map (fun t =>
        decide (t.world.dynamo sampleRow.id.str = some "ai-processed"
          ∧ ∀ r ∈ t.world.db.candidates.rows, r.status = .processing))
        = some true) := by
    decide +kernel
  obtain ⟨s, hs, hp⟩ := Run.exists_of_exec hexec
  rw [Bool.and_eq_true, decide_eq_true_eq, decide_eq_true_eq] at hp
  obtain ⟨t, ht, hq⟩ := Run.exists_of_exec hp.2
  obtain ⟨hmark, hopen⟩ := of_decide_eq_true hq
  refine ⟨s, t, hs, hp.1, ht, hmark, fun hdone => ?_⟩
  obtain ⟨r, hr, -, hstatus⟩ := hdone
  rw [hopen r hr] at hstatus
  cases hstatus

end ResumeScreening.Pipeline
