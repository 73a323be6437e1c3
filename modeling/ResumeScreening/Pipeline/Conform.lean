/-
Every operation of the service follows the pipeline protocol
(`conforms`), proved by reading the programs top to bottom.

`reads_of` lemmas say what a reply tells: a refreshed row has the
identifier it was refreshed by, an embedding is the embedding of its
text. The rest is one lemma per function of the source that moves the
protocol, in the order of the calls, and `Uses` for the functions that
do not.
-/
import ResumeScreening.Pipeline.Protocol

namespace ResumeScreening.Pipeline

open Effect Effect.Prog

variable {env : Env}

-- ======================================================== what replies tell

theorem possible_uuid4 {r : Except Exn UUID}
    (h : (machine env).Possible .uuid4 r) : ∃ u, r = .ok u := by
  obtain ⟨w, a, -, hr⟩ := h
  exact ⟨a, hr.symm⟩

theorem possible_countOutcome {o : Outcome} {r : Except Exn Unit}
    (h : (machine env).Possible (.countOutcome o) r) : r = .ok () := by
  obtain ⟨w, a, -, hr⟩ := h
  exact hr.symm

/-- A successful read replies with what was there. -/
theorem read_ok {α : Type} {w : World} {a : Except String Unit} {v u : α}
    (h : (w.read a v).1 = .ok u) : u = v := by
  cases a with
  | ok x =>
      simp only [World.read, Except.ok.injEq] at h
      exact h.symm
  | error msg => cases h

theorem readOr_ok {α : Type} {w : World} {a : Except String Unit}
    {v : Option α} {u : α} (h : (w.readOr a v).1 = .ok u) : v = some u := by
  cases a with
  | ok x =>
      cases v with
      | none => cases h
      | some v =>
          simp only [World.readOr, Except.ok.injEq] at h
          rw [h]
  | error msg => cases v <;> cases h

/-- What a select of one candidate finds. -/
theorem selectCandidate_ok {w : World} {t c : UUID} {a : Except String Unit}
    {row : Candidate}
    (h : (perform env (.selectCandidate t c) a w).1 = .ok (some row)) :
    row ∈ w.db.candidates.rows ∧ row.id = c ∧ row.tenantId = t := by
  have hfind := read_ok (α := Option Candidate) h
  have hmem := Relational.Table.find?_mem hfind.symm
  simpa using hmem

theorem possible_embedQuery {text : String} {v : List Rat}
    (h : (machine env).Possible (.embedQuery text) (.ok v)) :
    v = env.embed text := by
  obtain ⟨w, a, -, hr⟩ := h
  exact read_ok hr

theorem possible_refreshCandidate {id : UUID} {c : Candidate}
    (h : (machine env).Possible (.refreshCandidate id) (.ok c)) :
    c.id = id := by
  obtain ⟨w, a, -, hr⟩ := h
  have hfind := readOr_ok hr
  simpa using (Relational.Table.find?_mem hfind).2

/-- The exceptions an action can reply with. The service's own
exceptions are not among them. -/
inductive Library : Exn → Prop
  | valueError (msg : String) : Library (.valueError msg)
  | external (msg : String) : Library (.external msg)

theorem library_exn (x : LibraryError) : Library x.exn := by
  cases x with
  | valueError msg => exact .valueError msg
  | other msg => exact .external msg

theorem read_error {α : Type} {w : World} {a : Except String Unit} {v : α}
    {x : Exn} (h : (w.read a v).1 = .error x) : Library x := by
  cases a with
  | ok u => cases h
  | error msg =>
      simp only [World.read, Except.error.injEq] at h
      exact h ▸ .external msg

theorem readOr_error {α : Type} {w : World} {a : Except String Unit}
    {v : Option α} {x : Exn} (h : (w.readOr a v).1 = .error x) :
    Library x := by
  cases a with
  | ok u =>
      cases v with
      | none =>
          simp only [World.readOr, Except.error.injEq] at h
          exact h ▸ .external _
      | some v => cases h
  | error msg =>
      have hx : x = .external msg := by
        cases v <;> exact (Except.error.inj h).symm
      exact hx ▸ .external msg

theorem write_error {w w' : World} {a : Fate} {x : Exn}
    (h : (w.write w' a).1 = .error x) : Library x := by
  cases a with
  | ok => cases h
  | failed msg =>
      simp only [World.write, Except.error.injEq] at h
      exact h ▸ .external msg
  | lostReply msg =>
      simp only [World.write, Except.error.injEq] at h
      exact h ▸ .external msg

theorem commit_error {w : World} {pending : List Write} {a : Fate} {x : Exn}
    (h : (w.commit pending a).1 = .error x) : Library x := by
  unfold World.commit at h
  cases hw : w.db.writeAll pending with
  | none =>
      simp only [hw, Except.error.injEq] at h
      exact h ▸ .external _
  | some db =>
      simp only [hw] at h
      exact write_error h

theorem possible_error {e : Act} {x : Exn}
    (h : (machine env).Possible e (.error x)) : Library x := by
  obtain ⟨w, a, -, hr⟩ := h
  cases e with
  | selectCandidate => exact read_error hr
  | selectCandidates => exact read_error hr
  | selectJob => exact read_error hr
  | selectJobs => exact read_error hr
  | selectSubscription => exact read_error hr
  | selectSubscriptionByRazorpayId => exact read_error hr
  | getPlan => exact read_error hr
  | countCandidates => exact read_error hr
  | embedQuery => exact read_error hr
  | refreshCandidate => exact readOr_error hr
  | refreshJob => exact readOr_error hr
  | refreshSubscription => exact readOr_error hr
  | getObject => exact readOr_error hr
  | upsert => exact write_error hr
  | putObject => exact write_error hr
  | sendMessage => exact write_error hr
  | deleteMessage => exact write_error hr
  | updateItem => exact write_error hr
  | commit => exact commit_error hr
  | flush => exact commit_error hr
  | uuid4 => cases hr
  | utcNow => cases hr
  | countOutcome => cases hr
  | transactionNow =>
      cases (a : Except String Py.DateTime) with
      | ok now => cases hr
      | error msg => exact Except.error.inj hr ▸ .external msg
  | parseResume =>
      cases (a : Except LibraryError ParsedResume) with
      | ok p => cases hr
      | error y => exact Except.error.inj hr ▸ library_exn y
  | explainMatch =>
      cases (a : Except LibraryError MatchExplanation) with
      | ok p => cases hr
      | error y => exact Except.error.inj hr ▸ library_exn y
  | query =>
      cases (a : Except String (List QueryMatch)) with
      | ok p => cases hr
      | error msg => exact Except.error.inj hr ▸ .external msg
  | receiveMessage =>
      cases (a : Except String (List Nat)) with
      | ok p => cases hr
      | error msg => exact Except.error.inj hr ▸ .external msg
  | createRazorpaySubscription =>
      cases (a : Except String RazorpayResponse) with
      | ok p => cases hr
      | error msg => exact Except.error.inj hr ▸ .external msg

-- ========================================================= the path logic

section Rules

variable {α β : Type} {op : Op} {ph : Phase}
  {R : Phase → Except Exn β → Prop}

/-- The reading of a program under the pipeline's moves. -/
abbrev Reading (env : Env) (op : Op) (Q : Phase → Except Exn α → Prop)
    (ph : Phase) (p : Py α) : Prop :=
  p.Follows (machine env) (Move env op) Q ph

/-- A quiet action stays in its phase. -/
theorem reading_quiet {e : Act} {f : e.Ret → Py β}
    (hq : quiet e = true) (hdue : ph.due = none)
    (hok : ∀ v, (machine env).Possible e (.ok v) → Reading env op R ph (f v))
    (herr : ∀ x, Library x → R ph (.error x)) :
    Reading env op R ph ((call e).bind f) :=
  follows_call (fun v hv => ⟨ph, .quiet hq hdue, hok v hv⟩)
    fun x hx => ⟨ph, .quiet hq hdue, herr x (possible_error hx)⟩

/-- An action that moves on when it succeeds. -/
theorem reading_move {e : Act} {f : e.Ret → Py β} (yes no : Phase)
    (hmove : ∀ r, Move env op ph ⟨e, r⟩ (after r yes no))
    (hok : ∀ v, (machine env).Possible e (.ok v) → Reading env op R yes (f v))
    (herr : ∀ x, Library x → R no (.error x)) :
    Reading env op R ph ((call e).bind f) :=
  follows_call (fun v hv => ⟨yes, hmove (.ok v), hok v hv⟩)
    fun x hx => ⟨no, hmove (.error x), herr x (possible_error hx)⟩

/-- A program of quiet actions. -/
theorem reading_uses {p : Py α} (h : p.Uses fun e => quiet e = true)
    (hdue : ph.due = none) : Reading env op (fun ph' _ => ph' = ph) ph p :=
  h.follows fun _ _ hq => .quiet hq hdue

/-- `uuid4` always answers. -/
theorem reading_draw {f : UUID → Py β}
    (h : ∀ u, Reading env op R (.named u) (f u)) :
    Reading env op R .idle ((call .uuid4).bind f) := by
  refine follows_call (fun u _ => ⟨.named u, .draw, h u⟩) fun x hx => ?_
  obtain ⟨u, hu⟩ := possible_uuid4 hx
  cases hu

end Rules

/-- A result in a phase with nothing due. -/
def Settled {α : Type} (ph : Phase) (_ : Except Exn α) : Prop :=
  ph.due = none

theorem final_of_settled {op : Op} {ph : Phase} {r : Except Exn Resp}
    (h : ph.due = none) (hw : op ≠ .worker)
    (hu : ∀ t file, op ≠ .uploadResume t file) : Final op ph r where
  due := h
  pass hop := absurd hop hw
  upload t file _ hop := absurd hop (hu t file)

-- =========================================================== quiet programs

section Quiet

/-- Shorthand for a program without a move of the protocol. -/
abbrev IsQuiet {α : Type} (p : Py α) : Prop := p.Uses fun e => quiet e = true

theorem quiet_call {e : Act} (h : quiet e = true) : IsQuiet (call e) :=
  (uses_perform (S := sig) _ e).mpr h

theorem quiet_getCandidateRoute (t c : UUID) :
    IsQuiet (getCandidateRoute t c) := by
  refine uses_handle (uses_bind (quiet_call rfl) fun o => ?_) fun x => ?_
  · cases o <;> trivial
  · cases x <;> trivial

theorem quiet_getJobRoute (t j : UUID) : IsQuiet (getJobRoute t j) := by
  refine uses_handle (uses_bind (quiet_call rfl) fun o => ?_) fun x => ?_
  · cases o <;> trivial
  · cases x <;> trivial

theorem quiet_uuid (text : String) : IsQuiet (uuid text) := by
  unfold uuid
  cases UUID.parse text <;> trivial

theorem quiet_resolve (t : UUID) : ∀ ms, IsQuiet (resolve t ms) := by
  intro ms
  induction ms with
  | nil => trivial
  | cons m ms ih =>
      unfold resolve
      cases Py.optTruthy m.candidateId with
      | none => exact ih
      | some text =>
          refine uses_bind (quiet_uuid text) fun u => ?_
          refine uses_bind (quiet_call rfl) fun o => ?_
          cases o with
          | none => exact ih
          | some row => exact uses_bind ih fun rest => trivial

theorem quiet_evaluate (job : Job) (r : Candidate × Rat) :
    IsQuiet (evaluate job r) :=
  uses_bind (quiet_call rfl) fun _ => trivial

theorem quiet_rankCandidatesRoute (t j : UUID) (topK topN : Option Int) :
    IsQuiet (rankCandidatesRoute env t j topK topN) := by
  refine uses_bind (quiet_getJobRoute t j) fun job => ?_
  refine uses_bind (uses_bind (quiet_call rfl) fun v =>
    uses_bind (quiet_call rfl) fun ms => trivial) fun ms => ?_
  refine uses_bind (quiet_resolve t ms) fun rs => ?_
  refine uses_bind (uses_mapEach (quiet_evaluate job) rs) fun es => ?_
  refine uses_bind (uses_ofExcept _ _) fun ranked => ?_
  refine uses_bind (quiet_call ?_) fun u => trivial
  simp [quiet, matchRecord, elsewhere]

section Gate

variable {q : Act → Prop} {t : UUID}

/-- The quota gate reads the clock, the tenant's subscription and count,
and the plan catalogue. -/
theorem uses_currentPeriodStart (hnow : q .utcNow) (s : Subscription)
    (p : Plan) : (currentPeriodStart s p).Uses q := by
  refine uses_bind (uses_ofExcept _ _) fun window => ?_
  cases s.currentPeriodEnd with
  | some t => exact uses_ofExcept _ _
  | none =>
      exact uses_bind ((uses_perform (S := sig) q _).mpr hnow)
        fun now => uses_ofExcept _ _

theorem uses_freeTierGate (hcount : ∀ since, q (.countCandidates t since)) :
    (freeTierGate env t).Uses q := by
  refine uses_bind ((uses_perform (S := sig) q _).mpr (hcount none))
    fun (used : Nat) => ?_
  show (if env.freeTierResumeLimit ≤ (used : Int) then _ else _ :
    Py UUID).Uses q
  split <;> trivial

theorem uses_paidGate (hplan : ∀ p, q (.getPlan p)) (hnow : q .utcNow)
    (hcount : ∀ since, q (.countCandidates t since)) (s : Subscription) :
    (paidGate t s).Uses q := by
  refine uses_bind ((uses_perform (S := sig) q _).mpr (hplan _)) fun o => ?_
  cases o with
  | none => trivial
  | some plan =>
      obtain ⟨_, _, _, _, quota, _, _⟩ := plan
      cases quota with
      | none => trivial
      | some quota =>
          refine uses_bind (uses_currentPeriodStart hnow s _)
            fun start => ?_
          refine uses_bind ((uses_perform (S := sig) q _).mpr
            (hcount (some start))) fun (used : Nat) => ?_
          show (if quota ≤ (used : Int) then _ else _ : Py UUID).Uses q
          split <;> trivial

theorem uses_enforceQuota (hsub : q (.selectSubscription t))
    (hplan : ∀ p, q (.getPlan p)) (hnow : q .utcNow)
    (hcount : ∀ since, q (.countCandidates t since)) :
    (enforceQuota env t).Uses q := by
  refine uses_bind ((uses_perform (S := sig) q _).mpr hsub) fun o => ?_
  cases o with
  | none => exact uses_freeTierGate hcount
  | some s =>
      show (if s.status = "active" then _ else _ : Py UUID).Uses q
      split
      · exact uses_paidGate hplan hnow hcount s
      · exact uses_freeTierGate hcount

end Gate

theorem quiet_enforceQuota (t : UUID) : IsQuiet (enforceQuota env t) :=
  uses_enforceQuota rfl (fun _ => rfl) rfl fun _ => rfl

/-- The gate hands back the tenant it was given. -/
theorem returns_enforceQuota (t : UUID) :
    (enforceQuota env t).Returns fun t' => t' = t := by
  have hfree : (freeTierGate env t).Returns fun t' => t' = t := by
    refine returns_bind fun (used : Nat) => ?_
    show (if env.freeTierResumeLimit ≤ (used : Int) then _ else _ :
      Py UUID).Returns _
    split
    · trivial
    · rfl
  have hpaid : ∀ s, (paidGate t s).Returns fun t' => t' = t := by
    intro s
    refine returns_bind fun o => ?_
    cases o with
    | none => trivial
    | some plan =>
        obtain ⟨_, _, _, _, quota, _, _⟩ := plan
        cases quota with
        | none => rfl
        | some quota =>
            refine returns_bind fun start => returns_bind fun (used : Nat) => ?_
            show (if quota ≤ (used : Int) then _ else _ : Py UUID).Returns _
            split
            · trivial
            · rfl
  refine returns_bind fun o => ?_
  cases o with
  | none => exact hfree
  | some s =>
      show (if s.status = "active" then _ else _ : Py UUID).Returns _
      split
      · exact hpaid s
      · exact hfree

theorem quiet_handleWebhookEvent (eventType : String)
    (payload : WebhookPayload) :
    IsQuiet (handleWebhookEvent eventType payload) := by
  unfold handleWebhookEvent
  cases statusEvent eventType with
  | none => trivial
  | some status =>
      refine uses_bind (uses_ofExcept _ _) fun e => ?_
      refine uses_bind (quiet_call rfl) fun o => ?_
      cases o with
      | none => trivial
      | some loaded =>
          refine uses_bind (uses_ofExcept _ _) fun newEnd => ?_
          exact quiet_call rfl

end Quiet

-- ================================================================ requests

/-- `CandidateRepository.add`: the identifier and the creation time make
the draft, the flush changes nothing. -/
theorem reading_add {β : Type} {op : Op} {row : UUID → Py.DateTime → Candidate}
    {f : Candidate → Py β} {R : Phase → Except Exn β → Prop}
    (hdraft : ∀ id now, Move env op (.named id) ⟨.transactionNow, .ok now⟩
      (.drafted (row id now)))
    (hok : ∀ id now, Reading env op R (.drafted (row id now)) (f (row id now)))
    (herr : ∀ ph x, ph.due = none → R ph (.error x)) :
    Reading env op R .idle ((CandidateRepository.add row).bind f) := by
  unfold CandidateRepository.add
  simp only [bind_eq, bind_assoc]
  refine reading_draw fun id => follows_call (fun now _ => ?_) fun x _ =>
    ⟨_, .quiet rfl rfl, herr _ x rfl⟩
  refine ⟨_, hdraft id now, ?_⟩
  exact reading_quiet rfl rfl (fun u _ => hok id now) fun x _ => herr _ x rfl


/-- The upload's own half of the path: the placeholder, the file, the
message. -/
theorem reading_enqueueResumeUpload (t : UUID) (file : UploadFile) :
    Reading env (.uploadResume t file)
      (fun ph r => ph.due = none ∧
        ∀ c, r = .ok c → ∃ row, ph = .sent row ∧ c.id = row.id)
      .idle (enqueueResumeUpload env t file.bytes) := by
  have hfail : ∀ (ph : Phase) (x : Exn), ph.due = none → ph.due = none ∧
      ∀ c : Candidate, (.error x : Except Exn Candidate) = .ok c →
        ∃ row, ph = .sent row ∧ c.id = row.id :=
    fun ph x h => ⟨h, fun c hc => nomatch hc⟩
  unfold enqueueResumeUpload uploadResumeAndEnqueue
  simp only [bind_eq, bind_assoc]
  refine reading_add (fun id now => .draft) (fun id now => ?_) hfail
  refine reading_move (.placed _) .idle (fun r => .place) (fun u _ => ?_)
    fun x _ => hfail _ x rfl
  refine reading_quiet rfl rfl (fun c hc => ?_) fun x _ => hfail _ x rfl
  refine reading_move (.kept _) .idle (fun r => .keep) (fun u _ => ?_)
    fun x _ => hfail _ x rfl
  refine reading_move (.sent _) .idle (fun r => .send) (fun u _ => ?_)
    fun x _ => hfail _ x rfl
  refine ⟨rfl, fun c' hc' => ?_⟩
  cases hc'
  exact ⟨_, rfl, possible_refreshCandidate hc⟩

/-- A route in front of a program: it answers with a value or passes the
failure on. -/
theorem reading_route {α : Type} {op : Op} {ph : Phase} {p : Py α}
    {g : α → Resp} (hp : Reading env op Settled ph p) (hw : op ≠ .worker)
    (hu : ∀ t file, op ≠ .uploadResume t file) :
    Reading env op (Final op) ph (p.bind fun a => .ret (g a)) :=
  follows_bind hp (fun _ _ h => final_of_settled h hw hu)
    fun _ _ h => final_of_settled h hw hu

/-- A quiet operation. -/
theorem reading_quiet_route {α : Type} {op : Op} {p : Py α} {g : α → Resp}
    (hp : IsQuiet p) (hw : op ≠ .worker)
    (hu : ∀ t file, op ≠ .uploadResume t file) :
    Reading env op (Final op) .idle (p.bind fun a => .ret (g a)) :=
  reading_route ((reading_uses hp rfl).mono fun _ _ h => h ▸ rfl) hw hu

theorem reading_uploadResume (t : UUID) (file : UploadFile) :
    Reading env (.uploadResume t file)
      (fun ph r => ph.due = none ∧
        ∀ c, r = .ok c → ∃ row, ph = .sent row ∧ c.id = row.id)
      .idle (uploadResume env t file) := by
  refine follows_bind ((reading_uses (quiet_enforceQuota t) rfl).returns
    (returns_enforceQuota t)) ?_ ?_
  · rintro ph t' ⟨rfl, ht⟩
    obtain rfl := ht t' rfl
    show Reading env _ _ _ (if file.contentType ≠ "application/pdf" then _ else _)
    split
    · exact ⟨rfl, fun c hc => nomatch hc⟩
    · exact reading_enqueueResumeUpload t' file
  · rintro ph x ⟨rfl, -⟩
    exact ⟨rfl, fun c hc => nomatch hc⟩

/-- The create path: the draft, its vector, its row. -/
theorem reading_createCandidateRoute (t : UUID) (payload : CandidateCreate) :
    Reading env (.createCandidate t payload) Settled .idle
      (createCandidateRoute t payload) := by
  refine follows_handle (Q := Settled) ?_ (fun _ _ h => h) ?_
  · unfold createCandidate
    refine reading_add (fun id now => .draftCreate) (fun id now => ?_)
      fun ph x h => h
    refine follows_handle (Q := Settled) ?_ (fun _ _ h => h) fun _ _ h => h
    unfold upsertCandidate
    simp only [bind_eq, bind_assoc]
    refine reading_quiet rfl rfl (fun v hv => ?_) fun x _ => rfl
    obtain rfl := possible_embedQuery hv
    refine reading_move (.stored _) (.drafted _) (fun r => .store)
      (fun u _ => ?_) fun x _ => rfl
    refine reading_move .idle .idle (fun r => ?_) (fun u _ => ?_)
      fun x _ => rfl
    · cases r <;> exact .create
    · exact (reading_uses (quiet_call rfl) rfl).mono fun _ _ h => h ▸ rfl
  · intro ph x h
    cases x <;> exact h

theorem reading_createJobRoute (t : UUID) (payload : JobCreate) :
    Reading env (.createJob t payload) Settled .idle
      (createJobRoute t payload) := by
  refine follows_handle (Q := Settled) ?_ (fun _ _ h => h) ?_
  · unfold createJob
    refine follows_handle (Q := Settled) ?_ (fun _ _ h => h) fun _ _ h => h
    unfold JobRepository.add upsertJob
    simp only [bind_eq, bind_assoc]
    refine reading_draw fun id => follows_call (fun now _ => ?_) fun x _ =>
      ⟨_, .quiet rfl rfl, rfl⟩
    refine ⟨_, .draftJob, ?_⟩
    refine reading_quiet rfl rfl (fun u _ => ?_) fun x _ => rfl
    refine reading_quiet rfl rfl (fun v hv => ?_) fun x _ => rfl
    obtain rfl := possible_embedQuery hv
    refine reading_move (.storedJob _) (.draftedJob _) (fun r => .storeJob)
      (fun u _ => ?_) fun x _ => rfl
    refine reading_move .idle .idle (fun r => ?_) (fun u _ => ?_)
      fun x _ => rfl
    · cases r <;> exact .createJob
    · exact (reading_uses (quiet_call rfl) rfl).mono fun _ _ h => h ▸ rfl
  · intro ph x h
    cases x <;> exact h

/-- Plans and subscriptions draw an identifier and touch nothing of the
pipeline. -/
theorem reading_createPlan (payload : PlanCreate) :
    Reading env (.createPlan payload) Settled .idle (createPlan payload) :=
  reading_draw fun _ => reading_quiet rfl rfl (fun _ _ => rfl) fun _ _ => rfl

theorem reading_subscribeRoute (t p : UUID) :
    Reading env (.subscribe t p) Settled .idle (subscribeRoute t p) := by
  refine follows_bind (Q := Settled) ?_ (fun _ _ h => h) fun _ _ h => h
  refine follows_handle (Q := Settled) ?_ (fun _ _ h => h) ?_
  · refine reading_quiet rfl rfl (fun o _ => ?_) fun x _ => rfl
    cases o with
    | none => exact rfl
    | some plan =>
        refine reading_quiet rfl rfl (fun response _ => ?_) fun x _ => rfl
        refine reading_quiet rfl rfl (fun o _ => ?_) fun x _ => rfl
        cases o with
        | none =>
            refine reading_draw fun _ => ?_
            refine reading_quiet rfl rfl (fun _ _ => ?_) fun x _ => rfl
            exact reading_quiet rfl rfl (fun _ _ => rfl) fun x _ => rfl
        | some loaded =>
            refine reading_quiet rfl rfl (fun _ _ => ?_) fun x _ => rfl
            exact reading_quiet rfl rfl (fun _ _ => rfl) fun x _ => rfl
  · intro ph x h
    cases x <;> exact h

-- ================================================================ the worker

/-- How the handling of a message may fail: with the resume discarded
and its message still to delete, or with only the counter left. -/
def Unhandled (m : Message) (ms : List Message) (ph : Phase) : Exn → Prop
  | .resumeContent _ => ∃ k, ph = .discarded k ∧ k.message = m ∧ k.rest = ms
  | _ => ph.due = none ∧ ph.current = some (m, ms)

theorem unhandled {m : Message} {ms : List Message} {ph : Phase} {x : Exn}
    (hx : ∀ msg, x ≠ .resumeContent msg) (hdue : ph.due = none)
    (hcur : ph.current = some (m, ms)) : Unhandled m ms ph x := by
  cases x with
  | resumeContent msg => exact absurd rfl (hx msg)
  | _ => exact ⟨hdue, hcur⟩

theorem unhandled_library {m : Message} {ms : List Message} {ph : Phase}
    {x : Exn} (hx : Library x) (hdue : ph.due = none)
    (hcur : ph.current = some (m, ms)) : Unhandled m ms ph x := by
  cases hx with
  | valueError msg => exact ⟨hdue, hcur⟩
  | external msg => exact ⟨hdue, hcur⟩

/-- A pure step is read by its result. -/
theorem reading_ofExcept {α β : Type} {op : Op} {ph : Phase}
    {R : Phase → Except Exn β → Prop} {r : Except Exn α} {f : α → Py β}
    (hok : ∀ a, r = .ok a → Reading env op R ph (f a))
    (herr : ∀ x, r = .error x → R ph (.error x)) :
    Reading env op R ph ((Prog.ofExcept r).bind f) :=
  follows_ofExcept hok herr

/-- Where the parsing of a file leads: to an answer, to a discarded
resume, or to a failure that changed nothing. -/
def Parsing (k : Task) (row : Candidate) (ph : Phase) :
    Except Exn (ParsedResume × String) → Prop
  | .ok (p, text) => ph = .parsed k row text p
  | .error x => Unhandled k.message k.rest ph x

/-- Parsing alone: a `ValueError` comes from the file or from the
language model. -/
theorem reading_parseResumePdf (k : Task) (row : Candidate) :
    Reading env .worker
      (fun ph r => match r with
        | .ok (p, text) => ph = .parsed k row text p
        | .error (.valueError _) =>
            (ph = .marked k row ∧ ∀ text, ¬ Reads env k.bytes text)
              ∨ ∃ text, ph = .rejected k row text
        | .error _ => ph = .marked k row)
      (.marked k row) (parseResumePdf env k.bytes) := by
  unfold parseResumePdf parseResumeText
  simp only [bind_eq]
  refine reading_ofExcept (fun text htext => ?_) (fun x hx => ?_)
  · by_cases hempty : text = ""
    · rw [if_pos hempty]
      refine .inl ⟨rfl, fun text' h => h.2 ?_⟩
      have hsame : text' = text := Except.ok.inj (h.1.symm.trans htext)
      rw [hsame, hempty]
    · rw [if_neg hempty]
      have hreads : Reads env k.bytes text := ⟨htext, hempty⟩
      refine follows_call (fun p _ => ⟨_, .parse hreads, rfl⟩) fun x hx => ?_
      cases possible_error hx with
      | valueError msg => exact ⟨_, .reject hreads, .inr ⟨text, rfl⟩⟩
      | external msg => exact ⟨_, .quiet rfl rfl, rfl⟩
  · have hnone : ∀ text, ¬ Reads env k.bytes text := fun text h => by
      rw [h.1] at hx
      cases hx
    cases x with
    | valueError msg => exact .inl ⟨rfl, hnone⟩
    | _ => rfl

/-- Parsing with its two handlers. -/
theorem reading_parse (k : Task) (row : Candidate) :
    Reading env .worker (Parsing k row) (.marked k row)
      (handle (parseResumePdf env k.bytes) (parseFailed row.id)) := by
  refine follows_handle (reading_parseResumePdf k row) (fun ph a h => h) ?_
  intro ph x h
  cases x with
  | valueError msg =>
      rcases h with ⟨rfl, hnone⟩ | ⟨text, rfl⟩
      · exact reading_move (.discarded k) (.marked k row)
          (fun r => .discardFile hnone) (fun _ _ => ⟨k, rfl, rfl, rfl⟩)
          fun x hx => unhandled_library hx rfl rfl
      · exact reading_move (.discarded k) k.over (fun r => .discardAnswer)
          (fun _ _ => ⟨k, rfl, rfl, rfl⟩)
          fun x hx => unhandled_library hx rfl rfl
  | _ =>
      obtain rfl : ph = .marked k row := h
      exact ⟨rfl, rfl⟩

/-- Indexing the parsed row. -/
theorem reading_index (k : Task) (row : Candidate) (text : String)
    (p : ParsedResume) :
    Reading env .worker
      (fun ph r => match r with
        | .ok _ => ph = .finished k
        | .error x => Unhandled k.message k.rest ph x)
      (.parsed k row text p)
      (indexCandidate k.tenantId (filled row p text)
        fun c => [.updateCandidate c.id (filledPatch c)]) := by
  refine follows_handle
    (Q := fun ph r => match r with
      | .ok _ => ph = .finished k
      | .error _ => ph.due = none ∧ ph.current = some (k.message, k.rest))
    ?_ (fun _ _ h => h) fun ph x h => h
  unfold upsertCandidate
  simp only [bind_eq, bind_assoc]
  refine reading_quiet rfl rfl (fun v hv => ?_) fun x _ => ⟨rfl, rfl⟩
  obtain rfl := possible_embedQuery hv
  refine reading_move (.indexing k row text p) (.parsed k row text p)
    (fun r => .index) (fun _ _ => ?_) fun x _ => ⟨rfl, rfl⟩
  refine reading_move (.finished k) k.over (fun r => .finish)
    (fun _ _ => ?_) fun x _ => ⟨rfl, rfl⟩
  exact follows_perform fun r hr => ⟨_, .quiet rfl rfl, by
    cases r with
    | ok c => rfl
    | error x => exact ⟨rfl, rfl⟩⟩

/-- How the processing of a message in hand may end. -/
def Processed {α : Type} (m : Message) (ms : List Message) (text : String)
    (ph : Phase) : Except Exn α → Prop
  | .ok _ => ∃ k, ph = .finished k ∧ k.message = m ∧ k.rest = ms
      ∧ k.text = text
  | .error x => Unhandled m ms ph x

theorem reading_processPendingCandidate {m : Message} {ms : List Message}
    {bytes : List UInt8} {t c : UUID} {text : String}
    (hnames : Names m.body t c text) :
    Reading env .worker (Processed m ms text) (.fetched m ms bytes)
      (processPendingCandidate env t c bytes) := by
  have hmiss : Unhandled m ms (.fetched m ms bytes)
      (.resourceNotFound "Candidate not found") := ⟨rfl, rfl⟩
  refine follows_call (fun o _ => ?_) fun x hx =>
    ⟨_, .quiet rfl rfl, unhandled_library (possible_error hx) rfl rfl⟩
  cases o with
  | none => exact ⟨_, .quiet rfl rfl, hmiss⟩
  | some row =>
      let k : Task := ⟨m, ms, t, c, text, bytes⟩
      refine ⟨.loaded k row, .load hnames, ?_⟩
      refine reading_move (.marked k row) k.over (fun r => .mark)
        (fun _ _ => ?_) fun x hx => unhandled_library hx rfl rfl
      refine follows_bind (reading_parse k row) ?_ (fun ph x h => h)
      rintro ph ⟨p, text'⟩ rfl
      refine follows_bind (reading_index k row text' p) ?_ (fun ph x h => h)
      rintro ph _ rfl
      exact ⟨k, rfl, rfl, rfl, rfl⟩

/-- `item` fails with a lookup's own exceptions. -/
theorem item_error {fields : Option (List (String × JsonValue))}
    {key : String} {x : Exn} (h : item fields key = .error x) (msg : String) :
    x ≠ .resumeContent msg := by
  unfold item at h
  split at h
  · cases h
    exact fun hx => nomatch hx
  · split at h
    · cases h
    · cases h
      exact fun hx => nomatch hx

theorem asText_error {v : JsonValue} {x : Exn} (h : asText v = .error x)
    (msg : String) : x ≠ .resumeContent msg := by
  cases v with
  | text s => cases h
  | other =>
      cases h
      exact fun hx => nomatch hx

theorem item_ok {fields : Option (List (String × JsonValue))} {key : String}
    {v : JsonValue} (h : item fields key = .ok v) :
    ∃ fs, fields = some fs ∧ fs.lookup key = some v := by
  unfold item at h
  split at h
  · cases h
  next fs =>
    split at h
    next v' hv =>
      cases h
      exact ⟨fs, rfl, hv⟩
    next => cases h

theorem asText_ok {v : JsonValue} {s : String} (h : asText v = .ok s) :
    v = .text s := by
  cases v with
  | text s' =>
      cases h
      rfl
  | other => cases h

theorem reading_jsonUuid {β : Type} {op : Op} {ph : Phase}
    {R : Phase → Except Exn β → Prop} {v : JsonValue} {f : UUID → Py β}
    (hok : ∀ s u, v = .text s → UUID.parse s = some u →
      Reading env op R ph (f u))
    (herr : ∀ x, (∀ msg, x ≠ .resumeContent msg) → R ph (.error x)) :
    Reading env op R ph ((jsonUuid v).bind f) := by
  unfold jsonUuid
  simp only [bind_eq, bind_assoc]
  refine reading_ofExcept (fun s hs => ?_) fun x hx => herr x (asText_error hx)
  unfold uuid
  cases hp : UUID.parse s with
  | none => exact herr _ fun _ hx => nomatch hx
  | some u => exact hok s u (asText_ok hs) hp

/-- One message's body, from its fields to the reported status. -/
theorem reading_processMessage {m : Message} {ms : List Message}
    {body : Option (List (String × JsonValue))}
    (hbody : jsonLoads m.body = .ok body) :
    Reading env .worker
      (fun ph r => match r with
        | .ok _ => ∃ k, ph = .reported k ∧ k.message = m ∧ k.rest = ms
        | .error x => Unhandled m ms ph x)
      (.batch (m :: ms)) (processMessage env body) := by
  have hobject : ∀ fs, body = some fs → m.body = .object fs := by
    intro fs hfs
    cases hm : m.body with
    | malformed =>
        rw [hm] at hbody
        cases hbody
    | object fields =>
        rw [hm, hfs] at hbody
        cases hbody
        rfl
    | value =>
        rw [hm, hfs] at hbody
        cases hbody
  unfold processMessage
  simp only [bind_eq]
  refine reading_ofExcept (fun vc hvc => ?_) fun x hx =>
    unhandled (item_error hx) rfl rfl
  refine reading_ofExcept (fun vt hvt => ?_) fun x hx =>
    unhandled (item_error hx) rfl rfl
  refine reading_ofExcept (fun vb hvb => ?_) fun x hx =>
    unhandled (item_error hx) rfl rfl
  refine reading_ofExcept (fun vk hvk => ?_) fun x hx =>
    unhandled (item_error hx) rfl rfl
  refine reading_ofExcept (fun bucket hbucket => ?_) fun x hx =>
    unhandled (asText_error hx) rfl rfl
  refine reading_ofExcept (fun key hkey => ?_) fun x hx =>
    unhandled (asText_error hx) rfl rfl
  obtain ⟨fs, hfs, hc⟩ := item_ok hvc
  subst hfs
  obtain ⟨_, ⟨⟩, ht⟩ := item_ok hvt
  obtain ⟨_, ⟨⟩, hb⟩ := item_ok hvb
  obtain ⟨_, ⟨⟩, hk⟩ := item_ok hvk
  rw [asText_ok hbucket] at hb
  rw [asText_ok hkey] at hk
  have hlocates : Locates m.body bucket key := ⟨fs, hobject fs rfl, hb, hk⟩
  refine follows_call (fun bytes _ => ⟨_, .fetch hlocates, ?_⟩) fun x hx =>
    ⟨_, .quiet rfl rfl, unhandled_library (possible_error hx) rfl rfl⟩
  refine reading_jsonUuid (fun tenantText t htt hpt => ?_) fun x hx =>
    unhandled hx rfl rfl
  refine reading_jsonUuid (fun text c htc hpc => ?_) fun x hx =>
    unhandled hx rfl rfl
  subst htt htc
  have hnames : Names m.body t c text :=
    ⟨⟨fs, tenantText, hobject fs rfl, hc, ht, hpt⟩, hpc⟩
  refine follows_bind (reading_processPendingCandidate hnames) ?_
    fun ph x h => h
  rintro ph _ ⟨k, rfl, hm, hms, hkt⟩
  refine follows_perform fun r hr => ⟨after r (.reported k) (.finished k),
    hkt ▸ .report, ?_⟩
  cases r with
  | ok u => exact ⟨k, rfl, hm, hms⟩
  | error x => exact unhandled_library (possible_error hr) rfl (by rw [← hm, ← hms]; rfl)

/-- How a message leaves the batch: counted, or by an exception that
ends the pass. -/
def Counted (ms : List Message) (ph : Phase) : Except Exn Unit → Prop
  | .ok _ => ph = .batch ms
  | .error _ => ph.due = none

theorem reading_count {ph : Phase} {m : Message} {ms : List Message}
    {o : Outcome} (h : ph.current = some (m, ms)) :
    Reading env .worker (Counted ms) ph (call (.countOutcome o)) :=
  follows_perform fun r hr => ⟨.batch ms, .count h, by
    obtain rfl := possible_countOutcome hr
    rfl⟩

theorem reading_handleFailure {m : Message} {ms : List Message} {ph : Phase}
    {x : Exn} (h : Unhandled m ms ph x) :
    Reading env .worker (Counted ms) ph
      (handleFailure m.receiptHandle x) := by
  cases x with
  | resumeContent msg =>
      obtain ⟨k, rfl, rfl, rfl⟩ := h
      exact reading_move k.over (.discarded k) (fun r => .delete (.inl rfl))
        (fun _ _ => reading_count rfl) fun x _ => rfl
  | _ => exact reading_count h.2

theorem reading_handleMessage (m : Message) (ms : List Message) :
    Reading env .worker (Counted ms) (.batch (m :: ms))
      (handleMessage env m) := by
  refine follows_handle
    (Q := fun ph r => match r with
      | .ok _ => ph = .batch ms
      | .error x => Unhandled m ms ph x) ?_ (fun _ _ h => h)
    fun ph x h => reading_handleFailure h
  simp only [bind_eq]
  refine reading_ofExcept (fun body hbody => ?_) fun x hx => ?_
  · refine follows_bind (reading_processMessage hbody) ?_ fun ph x h => h
    rintro ph _ ⟨k, rfl, rfl, rfl⟩
    refine reading_move k.over (.reported k) (fun r => .delete (.inr rfl))
      (fun _ _ => ?_) fun x hx => unhandled_library hx rfl rfl
    refine follows_perform fun r hr => ⟨.batch k.rest, .count rfl, ?_⟩
    obtain rfl := possible_countOutcome hr
    rfl
  · cases hm : m.body with
    | malformed =>
        rw [hm] at hx
        cases hx
        exact ⟨rfl, rfl⟩
    | object fields =>
        rw [hm] at hx
        cases hx
    | value =>
        rw [hm] at hx
        cases hx

theorem reading_run : Reading env .worker
    (fun ph r => match r with
      | .ok _ => ph = .batch []
      | .error _ => ph.due = none) .idle (run env) := by
  refine follows_call (fun ms _ => ⟨_, .receive, ?_⟩) fun x _ =>
    ⟨_, .receiveFailed, rfl⟩
  refine follows_forEach (fun ms ph => ph = .batch ms) ?_ (fun ph h => h) ms
    _ rfl
  rintro m ms ph rfl
  refine (reading_handleMessage m ms).mono fun ph r h => ?_
  cases r with
  | ok u => exact .inl ⟨u, rfl, h⟩
  | error x => exact .inr ⟨x, rfl, h⟩

-- ============================================================= conformance

/-- Every operation of the service follows the pipeline protocol. -/
theorem conforms (env : Env) : (protocol env).Conforms := by
  intro op
  cases op with
  | createCandidate t payload =>
      exact reading_route (reading_createCandidateRoute t payload)
        (fun h => nomatch h) fun _ _ h => nomatch h
  | listCandidates t =>
      exact reading_quiet_route (quiet_call rfl) (fun h => nomatch h)
        fun _ _ h => nomatch h
  | getCandidate t c =>
      exact reading_quiet_route (quiet_getCandidateRoute t c)
        (fun h => nomatch h) fun _ _ h => nomatch h
  | uploadResume t file =>
      refine follows_bind (reading_uploadResume t file) ?_ ?_
      · rintro ph c ⟨hdue, hsent⟩
        refine ⟨hdue, (fun h => nomatch h), ?_⟩
        rintro t' file' c' - ⟨⟩
        exact hsent c rfl
      · rintro ph x ⟨hdue, -⟩
        exact ⟨hdue, (fun h => nomatch h), fun _ _ _ _ h => nomatch h⟩
  | createJob t payload =>
      exact reading_route (reading_createJobRoute t payload)
        (fun h => nomatch h) fun _ _ h => nomatch h
  | listJobs t =>
      exact reading_quiet_route (quiet_call rfl) (fun h => nomatch h)
        fun _ _ h => nomatch h
  | getJob t j =>
      exact reading_quiet_route (quiet_getJobRoute t j) (fun h => nomatch h)
        fun _ _ h => nomatch h
  | rankCandidates t j topK topN =>
      exact reading_quiet_route (quiet_rankCandidatesRoute t j topK topN)
        (fun h => nomatch h) fun _ _ h => nomatch h
  | createPlan payload =>
      exact reading_route (reading_createPlan payload) (fun h => nomatch h)
        fun _ _ h => nomatch h
  | subscribe t p =>
      exact reading_route (reading_subscribeRoute t p) (fun h => nomatch h)
        fun _ _ h => nomatch h
  | webhook eventType payload =>
      exact reading_quiet_route (quiet_handleWebhookEvent eventType payload)
        (fun h => nomatch h) fun _ _ h => nomatch h
  | worker =>
      refine follows_bind reading_run ?_ ?_
      · rintro ph _ rfl
        exact ⟨rfl, fun _ _ _ => rfl, fun _ _ _ h => nomatch h⟩
      · intro ph x hdue
        exact ⟨hdue, (fun _ _ h => nomatch h), fun _ _ _ h => nomatch h⟩

end ResumeScreening.Pipeline
