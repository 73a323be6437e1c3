/-
A batch through the worker's loop.

The claim is that a batch is accounted for (`Accounted`): the pass
returns, every message of the batch is handled, each under one outcome of
the counter, and a message is off the queue exactly if its outcome is
`success` or `content_error`.

All failures but those of the delete call keep to it. That call has a
place in two branches. Behind a reported status it stands inside the
`try`: a failure is counted as unexpected, and that is the truth unless
the delete took effect. In the branch for bad resumes it stands in an
`except` clause, where no other clause catches it: a failure ends the pass
and the process, and the rest of the batch with it. `Fair` says so of each
answer, by the one before it, and `accounted_iff` that it is exact.
-/
import ResumeScreening.Lib.Sequence
import ResumeScreening.Worker.Queue
import Mathlib.Data.List.Chain

namespace ResumeScreening.Worker

open Effect Prog Pipeline

variable {env : Env} {w w' : World} {as : List (Given (machine env))}

-- ============================================================ the statement

/-- The outcomes of a message that is done with. -/
def removes : Outcome → Bool
  | .success | .contentError => true
  | _ => false

/-- Every message of the batch is handled without an exception, under one
outcome, and is off the queue in the end exactly if the outcome says so. -/
def Accounted (env : Env) (w : World) (ms : List Message)
    (as : List (Given (machine env))) (r : Except Exn Unit) (w' : World) :
    Prop :=
  r = .ok () ∧ ∃ log : List (Call (machine env) Message Unit),
    Sequence (machine env) (handleMessage env) w log w'
    ∧ log.flatMap Call.answers = as ∧ log.map Call.op = ms
    ∧ ∀ c ∈ log, c.result = some (.ok ()) ∧ ∃ o,
      c.after.outcomes = o :: c.before.outcomes
      ∧ (removes o = true ↔ ¬ Waiting c.op.receiptHandle w')

/-- The status table was written. -/
def reports : Act → Bool
  | .updateItem .. => true
  | _ => false

/-- A delete call goes through; or it fails without effect, behind a
reported status. -/
def fair (last next : Given (machine env)) : Bool :=
  match next with
  | ⟨.deleteMessage _, (a : Fate)⟩ =>
      match a with
      | .ok => true
      | .failed _ => reports last.act
      | .lostReply _ => false
  | _ => true

/-- No delete call of the pass goes wrong where it would show. -/
abbrev Fair (as : List (Given (machine env))) : Prop :=
  as.IsChain fun last next => fair last next = true

def deletes : Act → Bool
  | .deleteMessage _ => true
  | _ => false

theorem fair_of_other {last next : Given (machine env)}
    (h : deletes next.act = false) : fair last next = true := by
  obtain ⟨e, a⟩ := next
  cases e with
  | deleteMessage => cases h
  | _ => rfl

/-- Where no delete call is first, what stands before does not matter. -/
theorem fair_append {as' : List (Given (machine env))}
    (h : ∀ g ∈ as'.head?, deletes g.act = false) :
    Fair (as ++ as') ↔ Fair as ∧ Fair as' := by
  unfold Fair
  rw [List.isChain_append]
  constructor
  · exact fun hc => ⟨hc.1, hc.2.1⟩
  · exact fun hc => ⟨hc.1, hc.2, fun _ _ y hy => fair_of_other (h y hy)⟩

theorem fair_of_others (h : ∀ g ∈ as, deletes g.act = false) : Fair as := by
  induction as with
  | nil => exact List.isChain_nil
  | cons g as ih =>
      have hrest := ih fun g' hg' => h g' (List.mem_cons_of_mem _ hg')
      refine List.isChain_cons.mpr ⟨fun y hy => ?_, hrest⟩
      exact fair_of_other (h y (List.mem_cons_of_mem _
        (List.mem_of_mem_head? hy)))

-- ========================================================= inside processing

/-- The actions of `_process_message`. -/
def processes : Act → Bool
  | .deleteMessage _ | .countOutcome _ | .receiveMessage | .sendMessage _ =>
      false
  | _ => true

theorem not_deletes {e : Act} (h : processes e = true) : deletes e = false := by
  cases e with
  | deleteMessage => cases h
  | _ => rfl

/-- They leave the queue and the counters alone. -/
theorem processes_keeps {e : Act} (h : processes e = true) (a : e.Ans)
    (w : World) : (perform env e a w).2.queue = w.queue
      ∧ (perform env e a w).2.outcomes = w.outcomes := by
  by_cases hinert : inert e = true
  · rw [inert_same hinert]
    exact ⟨rfl, rfl⟩
  have hwrite : ∀ {w₁ : World} (b : Fate), w₁.queue = w.queue →
      w₁.outcomes = w.outcomes → (w.write w₁ b).2.queue = w.queue
        ∧ (w.write w₁ b).2.outcomes = w.outcomes := fun b hq ho =>
    write_ends (P := fun w₁ => w₁.queue = w.queue ∧ w₁.outcomes = w.outcomes) b
      ⟨hq, ho⟩ ⟨rfl, rfl⟩
  cases e with
  | uuid4 => exact ⟨rfl, rfl⟩
  | commit pending =>
      show (w.commit pending a).2.queue = _ ∧ (w.commit pending a).2.outcomes = _
      obtain ⟨db, hw⟩ := commit_rows w pending a
      rw [hw]
      exact ⟨rfl, rfl⟩
  | upsert ns v => exact hwrite a rfl rfl
  | putObject bucket key body => exact hwrite a rfl rfl
  | updateItem c s => exact hwrite a rfl rfl
  | createRazorpaySubscription plan =>
      cases (a : Except String RazorpayResponse) <;> exact ⟨rfl, rfl⟩
  | _ =>
      first
      | exact absurd rfl hinert
      | cases h

section Reading

variable {α β : Type} {last : Option Act} {Q : Option Act → Except Exn β → Prop}

/-- The reading of a part of `_process_message` that keeps its last
action. -/
abbrev Processing (env : Env) (Q : Option Act → Except Exn α → Prop)
    (last : Option Act) (p : Py α) : Prop :=
  p.Follows (machine env) (LastAct fun e => processes e = true) Q last

theorem processing_call {e : Act} {f : e.Ret → Py β} (he : processes e = true)
    (hok : ∀ v, Processing env Q (some e) (f v))
    (herr : ∀ x, Library x → Q (some e) (.error x)) :
    Processing env Q last ((call e).bind f) :=
  follows_call (fun v _ => ⟨some e, ⟨he, rfl⟩, hok v⟩)
    fun x hx => ⟨some e, ⟨he, rfl⟩, herr x (possible_error hx)⟩

/-- A resume is given up as bad only behind a commit, the one that marks
its row. -/
def Marked (last : Option Act) (r : Except Exn α) : Prop :=
  ∀ msg, r = .error (.resumeContent msg) → ∃ pending,
    last = some (.commit pending)

theorem marked_of_ne {x : Exn} (h : ∀ msg, x ≠ .resumeContent msg) :
    Marked (α := α) last (.error x) :=
  fun msg hx => absurd (Except.error.inj hx) (h msg)

theorem marked_of_library {x : Exn} (h : Library x) :
    Marked (α := α) last (.error x) := by
  refine marked_of_ne fun msg hx => ?_
  rw [hx] at h
  cases h

end Reading

theorem uses_parseResumePdf (bytes : List UInt8) :
    (parseResumePdf env bytes).Uses fun e : Act => processes e = true := by
  unfold parseResumePdf parseResumeText
  refine uses_bind (uses_ofExcept _ _) fun text => ?_
  dsimp only
  split
  · trivial
  · exact uses_bind ((uses_perform _ _).mpr rfl) fun parsed => trivial

theorem processing_parse (bytes : List UInt8) (id : UUID) (last : Option Act) :
    Processing env Marked last
      (Prog.handle (parseResumePdf env bytes) (parseFailed id)) := by
  refine follows_handle ((uses_parseResumePdf bytes).lastAct _) ?_ ?_
  · exact fun _ _ _ _ h => nomatch h
  · intro last x _
    cases x with
    | valueError msg =>
        refine processing_call rfl (fun _ => ?_) fun x => marked_of_library
        exact fun _ _ => ⟨_, rfl⟩
    | _ => exact marked_of_ne nofun

theorem processing_index (t : UUID) (c : Candidate)
    (pending : Candidate → List Write) (last : Option Act) :
    Processing env Marked last (indexCandidate t c pending) := by
  refine follows_handle (Q := fun _ _ => True) ?_ ?_ ?_
  · refine Uses.lastAct ?_ _
    refine uses_bind ?_ fun pineconeId => ?_
    · refine uses_bind ((uses_perform _ _).mpr rfl) fun vector => ?_
      exact uses_bind ((uses_perform _ _).mpr rfl) fun _ => trivial
    · refine uses_bind ((uses_perform _ _).mpr rfl) fun _ => ?_
      exact (uses_perform _ _).mpr rfl
  · exact fun _ _ _ _ h => nomatch h
  · exact fun _ _ _ => marked_of_ne nofun

theorem processing_pending (t c : UUID) (bytes : List UInt8)
    (last : Option Act) :
    Processing env Marked last (processPendingCandidate env t c bytes) := by
  refine processing_call rfl (fun found => ?_) fun x => marked_of_library
  cases found with
  | none => exact marked_of_ne nofun
  | some row =>
      refine processing_call rfl (fun _ => ?_) fun x => marked_of_library
      refine follows_bind (processing_parse bytes row.id _) ?_ ?_
      · intro last parsed _
        refine follows_bind (processing_index t _ _ _) ?_ ?_
        · exact fun _ _ _ _ h => nomatch h
        · exact fun _ _ h msg hx => h msg (by cases hx; rfl)
      · exact fun _ _ h msg hx => h msg (by cases hx; rfl)

/-- A processed message has its status reported last, one given up as bad
has its row marked last. -/
def Handled (last : Option Act) (r : Except Exn Unit) : Prop :=
  Marked last r ∧ ∀ u, r = .ok u → ∃ c status,
    last = some (.updateItem c status)

theorem handled_of_ne {last : Option Act} {x : Exn}
    (h : ∀ msg, x ≠ .resumeContent msg) : Handled last (.error x) :=
  ⟨marked_of_ne h, nofun⟩

theorem handled_of_library {last : Option Act} {x : Exn} (h : Library x) :
    Handled last (.error x) :=
  ⟨marked_of_library h, nofun⟩

theorem uuid_error {last : Option Act} {β : Type} {f : UUID → Py β}
    {Q : Option Act → Except Exn β → Prop} {v : JsonValue}
    (hok : ∀ u, Processing env Q last (f u))
    (herr : ∀ x, (∀ msg, x ≠ .resumeContent msg) → Q last (.error x)) :
    Processing env Q last ((jsonUuid v).bind f) := by
  unfold jsonUuid
  simp only [bind_eq, bind_assoc]
  refine follows_ofExcept (fun s _ => ?_) fun x hx => herr x (asText_error hx)
  unfold uuid
  cases UUID.parse s with
  | none => exact herr _ nofun
  | some u => exact hok u

theorem processing_message (body : Option (List (String × JsonValue))) :
    Processing env Handled none (processMessage env body) := by
  unfold processMessage
  simp only [bind_eq]
  refine follows_ofExcept (fun _ _ => ?_) fun x hx =>
    handled_of_ne (item_error hx)
  refine follows_ofExcept (fun _ _ => ?_) fun x hx =>
    handled_of_ne (item_error hx)
  refine follows_ofExcept (fun _ _ => ?_) fun x hx =>
    handled_of_ne (item_error hx)
  refine follows_ofExcept (fun _ _ => ?_) fun x hx =>
    handled_of_ne (item_error hx)
  refine follows_ofExcept (fun bucket _ => ?_) fun x hx =>
    handled_of_ne (asText_error hx)
  refine follows_ofExcept (fun key _ => ?_) fun x hx =>
    handled_of_ne (asText_error hx)
  refine processing_call rfl (fun bytes => ?_) fun x => handled_of_library
  refine uuid_error (fun t => ?_) fun x => handled_of_ne
  refine uuid_error (fun c => ?_) fun x => handled_of_ne
  refine follows_bind (processing_pending t c bytes _) (fun last _ _ => ?_) ?_
  · refine follows_ofExcept (fun text _ => ?_) fun x hx =>
      handled_of_ne (asText_error hx)
    refine follows_perform fun r hr => ⟨_, ⟨rfl, rfl⟩, ?_⟩
    cases r with
    | ok u => exact ⟨(fun _ h => nomatch h), fun _ _ => ⟨_, _, rfl⟩⟩
    | error x => exact handled_of_library (possible_error hr)
  · exact fun _ _ h => ⟨h, nofun⟩

-- =============================================================== one message

/-- How one message comes out of the loop: the others stay where they are,
and it is counted right exactly if its answers are fair. -/
structure Left (m : Message) (w : World) (as : List (Given (machine env)))
    (r : Except Exn Unit) (w' : World) : Prop where
  first : ∀ g ∈ as.head?, deletes g.act = false
  others : ∀ k ≠ m.receiptHandle, Waiting k w' ↔ Waiting k w
  returns : Fair as → r = .ok ()
  counted : Waiting m.receiptHandle w → (Fair as ↔ r = .ok ()
    ∧ ∃ o, w'.outcomes = o :: w.outcomes
      ∧ (removes o = true ↔ ¬ Waiting m.receiptHandle w'))

variable {m : Message} {r : Except Exn Unit}

/-- A message that stays on the queue. -/
theorem left_kept {o : Outcome} (has : ∀ g ∈ as, deletes g.act = false)
    (hq : w'.queue = w.queue) (hout : w'.outcomes = o :: w.outcomes)
    (ho : removes o = false) : Left m w as (.ok ()) w' where
  first g hg := has g (List.mem_of_mem_head? hg)
  others k _ := waiting_same hq k
  returns _ := rfl
  counted hm := by
    refine ⟨fun _ => ⟨rfl, o, hout, ?_⟩, fun _ => fair_of_others has⟩
    rw [waiting_same hq, ho]
    exact iff_of_false nofun (not_not_intro hm)

/-- A delete call is judged by the answer before it. -/
theorem fair_around {u d : Given (machine env)}
    {rest : List (Given (machine env))}
    (has : ∀ g ∈ as ++ [u], deletes g.act = false)
    (hrest : ∀ g ∈ rest, deletes g.act = false) :
    Fair ((as ++ [u]) ++ d :: rest) ↔ fair u d = true := by
  have hu : deletes u.act = false := has u (by simp)
  have hfront : Fair as :=
    fair_of_others fun g hg => has g (List.mem_append.mpr (.inl hg))
  have hback : Fair (d :: rest) := by
    refine List.isChain_cons.mpr ⟨fun y hy => ?_, fair_of_others hrest⟩
    exact fair_of_other (hrest y (List.mem_of_mem_head? hy))
  rw [List.append_assoc]
  refine (fair_append fun g hg => ?_).trans ?_
  · cases hg
    exact hu
  · unfold Fair at hback ⊢
    rw [and_iff_right hfront, List.singleton_append, List.isChain_cons_cons,
      and_iff_left hback]

theorem left_around {u d : Given (machine env)}
    {rest : List (Given (machine env))}
    (has : ∀ g ∈ as ++ [u], deletes g.act = false)
    (hrest : ∀ g ∈ rest, deletes g.act = false)
    (hothers : ∀ k ≠ m.receiptHandle, Waiting k w' ↔ Waiting k w)
    (hreturns : fair u d = true → r = .ok ())
    (hcount : Waiting m.receiptHandle w → (fair u d = true ↔ r = .ok ()
      ∧ ∃ o, w'.outcomes = o :: w.outcomes
        ∧ (removes o = true ↔ ¬ Waiting m.receiptHandle w'))) :
    Left m w ((as ++ [u]) ++ d :: rest) r w' where
  first g hg := by
    refine has g ?_
    cases as with
    | nil =>
        cases hg
        exact List.mem_singleton.mpr rfl
    | cons g' as =>
        cases hg
        exact List.mem_cons_self
  others := hothers
  returns hfair := hreturns ((fair_around has hrest).mp hfair)
  counted hm := (fair_around has hrest).trans (hcount hm)

theorem count_went {o : Outcome}
    (h : Went (machine env) (call (.countOutcome o)) w as (some r) w') :
    as = [⟨.countOutcome o, ()⟩] ∧ r = .ok ()
      ∧ w' = { w with outcomes := o :: w.outcomes } := by
  rcases h.perform with ⟨-, hr, -⟩ | ⟨a, -, rfl, hr, rfl⟩
  · cases hr
  · exact ⟨rfl, Option.some.inj hr, rfl⟩

/-- The ways a delete call and its counter can go. -/
theorem remove_went {k : Nat} {o : Outcome}
    (h : Went (machine env) ((call (.deleteMessage k)).bind fun _ =>
      call (.countOutcome o)) w as (some r) w') :
    (as = [⟨.deleteMessage k, Fate.ok⟩, ⟨.countOutcome o, ()⟩] ∧ r = .ok ()
        ∧ w' = { deleted k w with outcomes := o :: w.outcomes })
      ∨ (∃ msg, as = [⟨.deleteMessage k, Fate.failed msg⟩]
        ∧ r = .error (.external msg) ∧ w' = w)
      ∨ ∃ msg, as = [⟨.deleteMessage k, Fate.lostReply msg⟩]
        ∧ r = .error (.external msg) ∧ w' = deleted k w := by
  rcases h.call with ⟨hr, -⟩ | ⟨a, as₂, -, rfl, hrest⟩
  · cases hr
  · rcases hrest with ⟨x, hx, hr, rfl, rfl⟩ | ⟨v, hv, hrest⟩
    · cases Option.some.inj hr
      cases (a : Fate) with
      | ok => cases hx
      | failed msg =>
          cases hx
          exact .inr (.inl ⟨msg, rfl, rfl, rfl⟩)
      | lostReply msg =>
          cases hx
          exact .inr (.inr ⟨msg, rfl, rfl, rfl⟩)
    · cases (a : Fate) with
      | ok =>
          obtain ⟨rfl, rfl, rfl⟩ := count_went hrest
          exact .inl ⟨rfl, rfl, rfl⟩
      | failed msg => cases hv
      | lostReply msg => cases hv

theorem processMessage_went {body : Option (List (String × JsonValue))}
    (h : Went (machine env) (processMessage env body) w as (some r) w') :
    (∀ g ∈ as, deletes g.act = false)
      ∧ (w'.queue = w.queue ∧ w'.outcomes = w.outcomes)
      ∧ Handled (as.getLast?.map Given.act) r := by
  obtain ⟨hall, hend⟩ := h.last (processing_message body)
  refine ⟨fun g hg => not_deletes (hall g hg), ?_, hend r rfl⟩
  refine h.kept (q := fun e : Act => processes e = true)
    (I := fun u : World => u.queue = w.queue ∧ u.outcomes = w.outcomes) hall
    (fun e a u he hu => ?_) ⟨rfl, rfl⟩
  obtain ⟨hq, ho⟩ := processes_keeps he a u
  exact ⟨hq.trans hu.1, ho.trans hu.2⟩

theorem last_answer {e : Act}
    (h : as.getLast?.map Given.act = some e) :
    ∃ as₀ u, as = as₀ ++ [u] ∧ u.act = e := by
  obtain ⟨u, hu, rfl⟩ := Option.map_eq_some_iff.mp h
  obtain ⟨as₀, rfl⟩ := List.getLast?_eq_some_iff.mp hu
  exact ⟨as₀, u, rfl, rfl⟩

/-- Any exception but a bad resume's is counted, and that is all. -/
theorem handleFailure_counts {x : Exn} (hx : ∀ msg, x ≠ .resumeContent msg)
    (k : Nat) : ∃ o, removes o = false
      ∧ handleFailure k x = call (.countOutcome o) := by
  cases x with
  | resumeContent msg => exact absurd rfl (hx msg)
  | resumeParserUnavailable msg => exact ⟨.transientError, rfl, rfl⟩
  | vectorIndexing msg => exact ⟨.transientError, rfl, rfl⟩
  | _ => exact ⟨.unexpectedError, rfl, rfl⟩

/-- An exception that leaves the message on the queue. -/
theorem failure_left {x : Exn} {as₁ as₂ : List (Given (machine env))}
    {w₁ : World} (hx : ∀ msg, x ≠ .resumeContent msg)
    (has : ∀ g ∈ as₁, deletes g.act = false) (hq : w₁.queue = w.queue)
    (hout : w₁.outcomes = w.outcomes)
    (h : Went (machine env) (handleFailure m.receiptHandle x) w₁ as₂ (some r)
      w') : Left m w (as₁ ++ as₂) r w' := by
  obtain ⟨o, ho, heq⟩ := handleFailure_counts hx m.receiptHandle
  rw [heq] at h
  obtain ⟨rfl, rfl, rfl⟩ := count_went h
  refine left_kept (o := o) (fun g hg => ?_) hq (by rw [hout]) ho
  rcases List.mem_append.mp hg with hg | hg
  · exact has g hg
  · rw [List.mem_singleton.mp hg]
    rfl

section Removal

variable {u : Given (machine env)} {w₁ : World}
  (has : ∀ g ∈ as ++ [u], deletes g.act = false) (hq : w₁.queue = w.queue)
  (hout : w₁.outcomes = w.outcomes)

include hq in
theorem others_deleted {handle : Nat} :
    ∀ k ≠ handle, Waiting k (deleted handle w₁) ↔ Waiting k w := by
  intro k hk
  rw [waiting_deleted, waiting_same hq]
  exact and_iff_right hk

include has hq hout

/-- A message deleted and counted. -/
theorem removed_left {o : Outcome} (ho : removes o = true) :
    Left m w ((as ++ [u]) ++ [⟨.deleteMessage m.receiptHandle, Fate.ok⟩,
        ⟨.countOutcome o, ()⟩]) (.ok ())
      { deleted m.receiptHandle w₁ with outcomes := o :: w₁.outcomes } := by
  refine left_around has (fun g hg => ?_) (others_deleted hq) (fun _ => rfl)
    fun _ => ?_
  · rw [List.mem_singleton.mp hg]
    rfl
  · exact iff_of_true rfl ⟨rfl, o, by rw [hout],
      iff_of_true ho (not_waiting_deleted _ w₁)⟩

/-- A delete call that fails behind a reported status is counted, with the
message where it was. -/
theorem undeleted_left {msg : String} (hu : reports u.act = true) :
    Left m w ((as ++ [u]) ++ [⟨.deleteMessage m.receiptHandle,
        Fate.failed msg⟩, ⟨.countOutcome .unexpectedError, ()⟩]) (.ok ())
      { w₁ with outcomes := .unexpectedError :: w₁.outcomes } := by
  refine left_around has (fun g hg => ?_) (fun k _ => waiting_same hq k)
    (fun _ => rfl) fun hm => ?_
  · rw [List.mem_singleton.mp hg]
    rfl
  · refine iff_of_true hu ⟨rfl, .unexpectedError, by rw [hout], ?_⟩
    exact iff_of_false nofun (not_not_intro ((waiting_same hq _).mpr hm))

/-- One that takes effect and loses its reply is counted as unexpected, with
the message gone. -/
theorem unseen_left {msg : String} :
    Left m w ((as ++ [u]) ++ [⟨.deleteMessage m.receiptHandle,
        Fate.lostReply msg⟩, ⟨.countOutcome .unexpectedError, ()⟩]) (.ok ())
      { deleted m.receiptHandle w₁ with
        outcomes := .unexpectedError :: w₁.outcomes } := by
  refine left_around has (fun g hg => ?_) (others_deleted hq) (fun _ => rfl)
    fun _ => ?_
  · rw [List.mem_singleton.mp hg]
    rfl
  · refine iff_of_false nofun ?_
    rintro ⟨-, o, heq, hiff⟩
    rw [hout] at heq
    cases heq
    exact absurd (hiff.mpr (not_waiting_deleted _ w₁)) nofun

omit hout

/-- One that fails inside an `except` clause ends the pass. -/
theorem escaped_left {a : Fate} {x : Exn} {w'' : World}
    (ha : fair u ⟨.deleteMessage m.receiptHandle, a⟩ = false)
    (hw : w'' = w₁ ∨ w'' = deleted m.receiptHandle w₁) :
    Left m w ((as ++ [u]) ++ [⟨.deleteMessage m.receiptHandle, a⟩])
      (.error x) w'' := by
  refine left_around has (fun g hg => nomatch hg) ?_ (fun hfair => ?_)
    fun _ => ?_
  · rcases hw with rfl | rfl
    · exact fun k _ => waiting_same hq k
    · exact others_deleted hq
  · rw [ha] at hfair
    cases hfair
  · exact iff_of_false (by rw [ha]; nofun) fun h => nomatch h.1

end Removal

theorem jsonLoads_error {body : Body} {x : Exn} (h : jsonLoads body = .error x)
    (msg : String) : x ≠ .resumeContent msg := by
  cases body with
  | malformed =>
      cases h
      exact nofun
  | object fields => cases h
  | value => cases h

section Handled

variable {body : Option (List (String × JsonValue))} {x : Exn}
  {as₁ as₂ as₃ : List (Given (machine env))} {w₁ w₂ : World}

/-- A message that was processed, and was deleted. -/
theorem finished_left
    (hproc : Went (machine env) (processMessage env body) w as₁ (some (.ok ()))
      w₁)
    (hrest : Went (machine env) ((call (.deleteMessage m.receiptHandle)).bind
      fun _ => call (.countOutcome .success)) w₁ as₂ (some (.ok ())) w') :
    Left m w (as₁ ++ as₂) (.ok ()) w' := by
  obtain ⟨has, ⟨hq, hout⟩, -, hlast⟩ := processMessage_went hproc
  obtain ⟨c, status, hlast⟩ := hlast _ rfl
  obtain ⟨as₀, g, rfl, -⟩ := last_answer hlast
  rcases remove_went hrest with ⟨rfl, -, rfl⟩ | ⟨_, -, h, -⟩ | ⟨_, -, h, -⟩
  · exact removed_left has hq hout rfl
  · cases h
  · cases h

/-- A message that was processed, and whose delete call raised. -/
theorem unfinished_left
    (hproc : Went (machine env) (processMessage env body) w as₁ (some (.ok ()))
      w₁)
    (hrest : Went (machine env) ((call (.deleteMessage m.receiptHandle)).bind
      fun _ => call (.countOutcome .success)) w₁ as₂ (some (.error x)) w₂)
    (hfail : Went (machine env) (handleFailure m.receiptHandle x) w₂ as₃
      (some r) w') : Left m w (as₁ ++ as₂ ++ as₃) r w' := by
  obtain ⟨has, ⟨hq, hout⟩, -, hlast⟩ := processMessage_went hproc
  obtain ⟨c, status, hlast⟩ := hlast _ rfl
  obtain ⟨as₀, g, rfl, hg⟩ := last_answer hlast
  rw [List.append_assoc]
  rcases remove_went hrest with
    ⟨-, h, -⟩ | ⟨msg, rfl, h, rfl⟩ | ⟨msg, rfl, h, rfl⟩
  · cases h
  · cases h
    obtain ⟨rfl, rfl, rfl⟩ := count_went hfail
    exact undeleted_left has hq hout (by rw [hg]; rfl)
  · cases h
    obtain ⟨rfl, rfl, rfl⟩ := count_went hfail
    exact unseen_left has hq hout

/-- A message whose processing raised. -/
theorem raised_left
    (hproc : Went (machine env) (processMessage env body) w as₁
      (some (.error x)) w₁)
    (hfail : Went (machine env) (handleFailure m.receiptHandle x) w₁ as₂
      (some r) w') : Left m w (as₁ ++ as₂) r w' := by
  obtain ⟨has, ⟨hq, hout⟩, hmarked, -⟩ := processMessage_went hproc
  by_cases hx : ∀ msg, x ≠ .resumeContent msg
  · exact failure_left hx has hq hout hfail
  · obtain ⟨msg, hx⟩ := not_forall.mp hx
    cases not_not.mp hx
    obtain ⟨pending, hlast⟩ := hmarked msg rfl
    obtain ⟨as₀, g, rfl, hg⟩ := last_answer hlast
    rcases remove_went hfail with
      ⟨rfl, rfl, rfl⟩ | ⟨msg, rfl, rfl, rfl⟩ | ⟨msg, rfl, rfl, rfl⟩
    · exact removed_left has hq hout rfl
    · exact escaped_left has hq (by rw [fair, hg]; rfl) (.inl rfl)
    · exact escaped_left has hq rfl (.inr rfl)

end Handled

theorem handleMessage_left
    (h : Went (machine env) (handleMessage env m) w as (some r) w') :
    Left m w as r w' := by
  unfold handleMessage at h
  cases hj : jsonLoads m.body with
  | error x =>
      rw [hj] at h
      show Left m w ([] ++ as) r w'
      refine failure_left (jsonLoads_error hj) (fun g hg => ?_) rfl rfl h
      cases hg
  | ok body =>
      rw [hj] at h
      have hone : Went (machine env) (Prog.handle
          ((processMessage env body).bind fun _ =>
            (call (.deleteMessage m.receiptHandle)).bind fun _ =>
              call (.countOutcome .success))
          (handleFailure m.receiptHandle)) w as (some r) w' := h
      rcases hone.handle with
        ⟨u, hr, hbody⟩ | ⟨x, as₁, w₁, as₂, rfl, hbody, hfail⟩ | ⟨hr, -⟩
      · obtain ⟨_, as₁, w₁, as₂, rfl, hproc, hrest⟩ := hbody.bind_ok
        cases Option.some.inj hr
        exact finished_left hproc hrest
      · rcases hbody.bind with
          ⟨_, as₃, w₃, as₄, rfl, hproc, hrest⟩ | ⟨y, hy, hproc⟩ | ⟨hr, -⟩
        · exact unfinished_left hproc hrest hfail
        · cases Option.some.inj hy
          exact raised_left hproc hfail
        · cases hr
      · cases hr

-- =================================================================== a batch

/-- The fairness of a batch is that of each message. -/
theorem fair_flatMap {log : List (Call (machine env) Message Unit)}
    (hfirst : ∀ c ∈ log, ∀ g ∈ c.answers.head?, deletes g.act = false) :
    (∀ g ∈ (log.flatMap Call.answers).head?, deletes g.act = false)
      ∧ (Fair (log.flatMap Call.answers) ↔ ∀ c ∈ log, Fair c.answers) := by
  induction log with
  | nil => exact ⟨(fun g hg => nomatch hg),
      iff_of_true List.isChain_nil fun c hc => nomatch hc⟩
  | cons c log ih =>
      obtain ⟨hhead, hiff⟩ := ih fun c' hc' =>
        hfirst c' (List.mem_cons_of_mem _ hc')
      rw [List.flatMap_cons, List.forall_mem_cons, fair_append hhead, hiff]
      refine ⟨fun g hg => ?_, Iff.rfl⟩
      cases hc : c.answers with
      | nil =>
          rw [hc] at hg
          exact hhead g hg
      | cons g' rest =>
          rw [hc] at hg
          exact hfirst c List.mem_cons_self g (by rw [hc]; exact hg)

/-- A batch of messages on the main queue, under handles of their own. -/
theorem batch_iff {ms : List Message}
    (hms : (ms.map (·.receiptHandle)).Nodup)
    (hwait : ∀ m ∈ ms, Waiting m.receiptHandle w)
    (h : Went (machine env) (Prog.forEach (handleMessage env) ms) w as (some r)
      w') : Accounted env w ms as r w' ↔ Fair as := by
  have hiff : ∀ log : List (Call (machine env) Message Unit),
      Sequence (machine env) (handleMessage env) w log w' →
      log.flatMap Call.answers = as → log.map Call.op = ms →
      (∀ c ∈ log, c.result = some (.ok ())) →
      ((∀ c ∈ log, ∃ o, c.after.outcomes = o :: c.before.outcomes
        ∧ (removes o = true ↔ ¬ Waiting c.op.receiptHandle w')) ↔ Fair as) := by
    intro log hlog has hops hok
    have hleft : ∀ c ∈ log, Left c.op c.before c.answers (.ok ()) c.after := by
      intro c hc
      have hwent := hlog.went c hc
      rw [hok c hc] at hwent
      exact handleMessage_left hwent
    have hkeys : (log.map fun c => c.op.receiptHandle).Nodup := by
      rw [← hops, List.map_map] at hms
      exact hms
    have hapart := (hlog.apart (P := Waiting)
      (fun c hc => (hleft c hc).others) hkeys).2
    rw [← has, (fair_flatMap fun c hc => (hleft c hc).first).2]
    refine forall₂_congr fun c hc => ?_
    obtain ⟨hbefore, hafter⟩ := hapart c hc
    have hop : c.op ∈ ms := hops ▸ List.mem_map.mpr ⟨c, hc, rfl⟩
    rw [(hleft c hc).counted (hbefore.mpr (hwait _ hop)), hafter]
    exact (and_iff_right rfl).symm
  constructor
  · rintro ⟨-, log, hlog, has, hops, hall⟩
    exact (hiff log hlog has hops fun c hc => (hall c hc).1).mp
      fun c hc => (hall c hc).2
  · intro hfair
    obtain ⟨log, hlog, has, ⟨hr, hops, hok⟩ | ⟨x, -, c, hc, hx⟩⟩ := h.forEach
    · refine ⟨hr, log, hlog, has, hops, fun c hc => ⟨hok c hc, ?_⟩⟩
      exact (hiff log hlog has hops hok).mpr hfair c hc
    · -- the message that raised had an unfair answer
      have hwent := hlog.went c hc
      rw [hx] at hwent
      rw [← has] at hfair
      have hinfix : c.answers <:+: log.flatMap Call.answers := by
        rw [List.flatMap_def]
        exact List.infix_of_mem_flatten (List.mem_map.mpr ⟨c, hc, rfl⟩)
      have hown : Fair c.answers := List.IsChain.infix hfair hinfix
      cases (handleMessage_left hwent).returns hown

/-- A batch the pass received is accounted for exactly if its delete calls
are answered fairly. -/
theorem accounted_iff {hs : List Nat} (hw : Numbered w)
    (h : Went (machine env) (run env) w
      (⟨.receiveMessage, (.ok hs : Except String (List Nat))⟩ :: as) (some r)
      w') :
    Accounted env (w.receive hs) (handedOut w hs) as r w' ↔ Fair as := by
  rcases Went.call h with ⟨hr, -⟩ | ⟨a, as₂, hadm, has, hrest⟩
  · cases hr
  · cases has
    obtain ⟨hkeys, hwait⟩ := handedOut_waiting hw hadm
    rcases hrest with ⟨x, hx, -⟩ | ⟨ms, hms, hrest⟩
    · cases hx
    · cases hms
      exact batch_iff hkeys hwait hrest

-- ================================================================== samples

/-- The sample settings, with files that hold no text. -/
def blankEnv : Env := { sampleEnv with pdfPages := fun _ => .ok [] }

/-- An outside that hands out two messages and answers a delete call so. -/
def deleting (a : Fate) : Oracle (machine blankEnv)
  | _, .deleteMessage _ => some a
  | _, e => some (({ handles := [0, 1] } : Choices).answer e)

/-- Two tenants' uploads on the queue. -/
def twoUploads : World :=
  let first := ((uploadResume blankEnv sampleTenant samplePdf).run
    (M := machine blankEnv) sampleOracle 0 World.empty).2
  ((uploadResume blankEnv (UUID.ofNat 2) samplePdf).run
    (M := machine blankEnv) (fun _ e => some
      (({ id := UUID.ofNat 1 } : Choices).answer e)) 0 first).2

theorem twoUploads_numbered : Numbered twoUploads :=
  ⟨by decide +kernel, by decide +kernel⟩

/-- The pass over the two messages. -/
def pass (a : Fate) : Option (Except Exn Unit)
    × World × List (Given (machine blankEnv)) :=
  (run blankEnv).run (M := (machine blankEnv).recorded) (deleting a) 0
    (twoUploads, [])

theorem pass_went {a : Fate} {r : Except Exn Unit}
    (hadm : (run blankEnv).Admitted (M := (machine blankEnv).recorded)
      (deleting a) 0 (twoUploads, [])) (hr : (pass a).1 = some r)
    (hfirst : (pass a).2.2 = ⟨.receiveMessage,
      (.ok [0, 1] : Except String (List Nat))⟩ :: (pass a).2.2.tail) :
    Went (machine blankEnv) (run blankEnv) twoUploads
      (⟨.receiveMessage, (.ok [0, 1] : Except String (List Nat))⟩
        :: (pass a).2.2.tail) (some r) (pass a).2.1 := by
  rw [← hfirst]
  exact Went.of_run (M := machine blankEnv) hadm hr

/-- Two files without text are discarded, and accounted for. -/
theorem accounted_sample : ∃ as w',
    Accounted blankEnv (twoUploads.receive [0, 1])
      (handedOut twoUploads [0, 1]) as (.ok ()) w'
    ∧ w'.outcomes = [.contentError, .contentError] ∧ w'.queue = [] :=
  ⟨_, _, (accounted_iff twoUploads_numbered
    (pass_went (a := .ok) (by decide +kernel) (by decide +kernel) rfl)).mpr
      (by decide +kernel), by decide +kernel, by decide +kernel⟩

/-- The delete call for the first of them fails: the exception ends the
pass, nothing is counted, and the second message is not attempted. -/
theorem batch_taken_down : ∃ as w',
    Went (machine blankEnv) (run blankEnv) twoUploads
      (⟨.receiveMessage, (.ok [0, 1] : Except String (List Nat))⟩ :: as)
      (some (.error (.external "503"))) w'
    ∧ ¬ Accounted blankEnv (twoUploads.receive [0, 1])
      (handedOut twoUploads [0, 1]) as (.error (.external "503")) w'
    ∧ w'.outcomes = [] ∧ handles w' = [0, 1] :=
  ⟨_, _, pass_went (a := .failed "503") (by decide +kernel) (by decide +kernel)
    rfl, (fun h => nomatch h.1), by decide +kernel, by decide +kernel⟩

end ResumeScreening.Worker
