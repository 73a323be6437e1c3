/-
No accepted resume is lost — unless a finished row is opened again.

The argument runs through the receipt handles: a message deleted by a
worker is the one the worker holds (`Known`), it is deleted only once
its candidate's row has been committed final (`Delivery.done`), and a
final row stays final as long as no step writes `processing` over it
(`neverReopened`).

The code does not keep to that last condition. A batch entry outlives
the visibility window, and another worker may finish and delete the
message first; the stale entry is then handled all the same, sets the
row back to `processing`, and a transient failure leaves it there "for
SQS to retry" with no message left (`accepted_resume_lost`).
-/
import ResumeScreening.Pipeline.Status

namespace ResumeScreening.Pipeline

open Effect

variable {env : Env} {w w' : World} {log : Log sig}
  {ros : Roster (service env) Phase} {i : Nat} {op : Op} {ph ph' : Phase}

-- ============================================================= the condition

/-- No step writes `processing` over a row whose committed status is
`processed` or `failed`. -/
def neverReopened (env : Env) : Guard (service env) := fun s l =>
  ∀ r ∈ s.world.db.candidates.rows, r.status.final = true →
    ∀ x ∈ commits s l, setsStatus r.id .processing x = false

instance (s : Sys (service env)) (l : Label (service env)) :
    Decidable (neverReopened env s l) :=
  inferInstanceAs (Decidable (∀ r ∈ s.world.db.candidates.rows, _ → _))

-- ================================================================= messages

/-- The message is on the queue or the dead-letter queue. -/
def OnQueue (w : World) (m : Message) : Prop :=
  ∃ q ∈ w.queue, q.message = m

/-- Whatever the queue holds under this message's handle is this
message. -/
structure Known (w : World) (m : Message) : Prop where
  issued : m.receiptHandle < w.nextReceipt
  unique : ∀ m', OnQueue w m' → m'.receiptHandle = m.receiptHandle → m' = m

/-- What an action does to the queue: only a send adds, only a delete of
its handle removes. -/
structure QueueStep (e : Act) (w w' : World) : Prop where
  receipts : w.nextReceipt ≤ w'.nextReceipt
  new : ∀ m, OnQueue w' m → OnQueue w m ∨ ∃ body, e = .sendMessage body
    ∧ m = ⟨w.nextReceipt, body⟩ ∧ w.nextReceipt < w'.nextReceipt
  old : ∀ m, OnQueue w m → OnQueue w' m ∨ e = .deleteMessage m.receiptHandle

theorem QueueStep.of_eq {e : Act} (hq : w'.queue = w.queue)
    (hn : w'.nextReceipt = w.nextReceipt) : QueueStep e w w' where
  receipts := Nat.le_of_eq hn.symm
  new m hm := by
    unfold OnQueue at hm
    rw [hq] at hm
    exact .inl hm
  old m hm := by
    unfold OnQueue
    rw [hq]
    exact .inl hm

theorem commit_queue (w : World) (pending : List Write) (a : Fate) :
    (w.commit pending a).2.queue = w.queue
      ∧ (w.commit pending a).2.nextReceipt = w.nextReceipt := by
  obtain ⟨db, hw⟩ := commit_rows w pending a
  rw [hw]
  exact ⟨rfl, rfl⟩

/-- Marking messages as received, visible or dead-lettered keeps them. -/
theorem onQueue_map {f : Queued → Queued}
    (hf : ∀ q, (f q).message = q.message) {m : Message} :
    OnQueue { w with queue := w.queue.map f } m ↔ OnQueue w m := by
  constructor
  · intro h
    obtain ⟨q', hq', rfl⟩ := h
    obtain ⟨q, hq, rfl⟩ := List.mem_map.mp hq'
    exact ⟨q, hq, (hf q).symm⟩
  · intro h
    obtain ⟨q, hq, rfl⟩ := h
    exact ⟨f q, List.mem_map.mpr ⟨q, hq, rfl⟩, hf q⟩

theorem queueStep (env : Env) (e : Act) (a : e.Ans) (w : World) :
    QueueStep e w (perform env e a w).2 := by
  by_cases hquiet : quiet e = true
  · have hsame : Same w (perform env e a w).2 := quiet_same hquiet a w
    exact .of_eq hsame.queue hsame.nextReceipt
  · cases e with
    | uuid4 => exact .of_eq rfl rfl
    | commit pending =>
        obtain ⟨hq, hn⟩ := commit_queue w pending a
        exact .of_eq hq hn
    | upsert ns v =>
        exact write_ends (P := QueueStep _ w) a (.of_eq rfl rfl) (.of_eq rfl rfl)
    | putObject bucket key body =>
        exact write_ends (P := QueueStep _ w) a (.of_eq rfl rfl) (.of_eq rfl rfl)
    | updateItem c s =>
        exact write_ends (P := QueueStep _ w) a (.of_eq rfl rfl) (.of_eq rfl rfl)
    | sendMessage body =>
        refine write_ends (P := QueueStep _ w) a ?_ (.of_eq rfl rfl)
        refine ⟨Nat.le_succ _, fun m hm => ?_, fun m hm => ?_⟩
        · obtain ⟨q, hq, rfl⟩ := hm
          rcases List.mem_append.mp hq with hq | hq
          · exact .inl ⟨q, hq, rfl⟩
          · rw [List.mem_singleton.mp hq]
            exact .inr ⟨body, rfl, rfl, Nat.lt_succ_self _⟩
        · obtain ⟨q, hq, rfl⟩ := hm
          exact .inl ⟨q, List.mem_append.mpr (.inl hq), rfl⟩
    | receiveMessage =>
        cases (a : Except String (List Nat)) with
        | error msg => exact .of_eq rfl rfl
        | ok handles =>
            have hmap : ∀ m, OnQueue (w.receive handles) m ↔ OnQueue w m :=
              fun m => onQueue_map fun q => by split <;> rfl
            exact ⟨Nat.le_refl _, fun m hm => .inl ((hmap m).mp hm),
              fun m hm => .inl ((hmap m).mpr hm)⟩
    | deleteMessage handle =>
        refine write_ends (P := QueueStep _ w) a ?_ (.of_eq rfl rfl)
        refine ⟨Nat.le_refl _, fun m hm => ?_, fun m hm => ?_⟩
        · obtain ⟨q, hq, rfl⟩ := hm
          exact .inl ⟨q, List.mem_of_mem_filter hq, rfl⟩
        · obtain ⟨q, hq, rfl⟩ := hm
          by_cases hh : q.message.receiptHandle = handle
          · exact .inr (by rw [hh])
          · exact .inl ⟨q, List.mem_filter.mpr ⟨hq, by simp [hh]⟩, rfl⟩
    | _ => exact absurd rfl hquiet

theorem Known.step {e : Act} {m : Message} (h : Known w m)
    (hq : QueueStep e w w') : Known w' m where
  issued := Nat.lt_of_lt_of_le h.issued hq.receipts
  unique m' hm' hh := by
    rcases hq.new m' hm' with hold | ⟨body, -, rfl, -⟩
    · exact h.unique m' hold hh
    · have := h.issued
      simp only at hh
      omega

/-- The messages a worker holds. -/
def Phase.messages : Phase → List Message
  | .batch ms => ms
  | .fetched m ms _ => m :: ms
  | .loaded k _ | .marked k _ | .rejected k _ _ | .parsed k .. | .indexing k ..
  | .discarded k | .finished k | .reported k => k.message :: k.rest
  | _ => []

/-- The task whose row has been committed final. -/
def Phase.done : Phase → Option Task
  | .discarded k | .finished k | .reported k => some k
  | _ => none

/-- The upload whose message has been sent. -/
def Phase.accepted : Phase → Option Candidate
  | .sent row => some row
  | _ => none

/-- The candidate's row is committed `processed` or `failed`. -/
def FinalRow (w : World) (c : UUID) : Prop :=
  ∃ r ∈ w.db.candidates.rows, r.id = c ∧ r.status.final = true

structure Delivery (env : Env) (w : World)
    (ros : Roster (service env) Phase) : Prop where
  queue : ∀ m, OnQueue w m → Known w m
  held : Slots (fun (_ : Op) (ph : Phase) => ∀ m ∈ ph.messages, Known w m) ros
  done : Slots (fun (_ : Op) (ph : Phase) => ∀ k, ph.done = some k →
    FinalRow w k.candidateId) ros
  sent : Slots (fun (_ : Op) (ph : Phase) => ∀ row, ph.accepted = some row →
    FinalRow w row.id
      ∨ ∃ m, OnQueue w m ∧ m.body = uploadBody env row.tenantId row.id) ros

-- =========================================================== what a move does

theorem messages_after {α : Type} {r : Except Exn α} {yes no : Phase}
    {m : Message} (h : m ∈ (after r yes no).messages) :
    m ∈ yes.messages ∨ m ∈ no.messages := by
  cases r with
  | ok v => exact .inl h
  | error x => exact .inr h

theorem messages_of_current {m m' : Message} {ms : List Message}
    (h : ph.current = some (m, ms)) (hm : m' ∈ ms) : m' ∈ ph.messages := by
  cases ph with
  | batch ms' =>
      cases ms' with
      | nil => cases h
      | cons x xs =>
          cases h
          exact List.mem_cons_of_mem _ hm
  | fetched x xs bytes => cases h; exact List.mem_cons_of_mem _ hm
  | marked k row => cases h; exact List.mem_cons_of_mem _ hm
  | discarded k => cases h; exact List.mem_cons_of_mem _ hm
  | parsed k row text p => cases h; exact List.mem_cons_of_mem _ hm
  | finished k => cases h; exact List.mem_cons_of_mem _ hm
  | reported k => cases h; exact List.mem_cons_of_mem _ hm
  | _ => cases h

/-- A worker holds no message it has not received. -/
theorem messages_move {e : Act} {r : Except Exn e.Ret}
    (hm : Move env op ph ⟨e, r⟩ ph') {m : Message} (h : m ∈ ph'.messages) :
    m ∈ ph.messages
      ∨ ∃ ms, (⟨e, r⟩ : Event sig) = ⟨.receiveMessage, .ok ms⟩ ∧ m ∈ ms := by
  cases hm with
  | receive => exact .inr ⟨_, rfl, h⟩
  | quiet => exact .inl h
  | count hcur => exact .inl (messages_of_current hcur h)
  | fetch => exact .inl h
  | load => exact .inl h
  | parse => exact .inl h
  | reject => exact .inl h
  | mark => exact .inl ((messages_after h).elim (fun h => h) fun h => h)
  | discardFile => exact .inl ((messages_after h).elim (fun h => h) fun h => h)
  | discardAnswer =>
      exact .inl ((messages_after h).elim (fun h => h) fun h => h)
  | index => exact .inl ((messages_after h).elim (fun h => h) fun h => h)
  | finish => exact .inl ((messages_after h).elim (fun h => h) fun h => h)
  | report => exact .inl ((messages_after h).elim (fun h => h) fun h => h)
  | delete hph =>
      rcases hph with rfl | rfl
      · exact .inl ((messages_after h).elim (fun h => h) fun h => h)
      · exact .inl ((messages_after h).elim (fun h => h) fun h => h)
  | place => exact (messages_after h).elim (fun h => nomatch h) fun h => nomatch h
  | keep => exact (messages_after h).elim (fun h => nomatch h) fun h => nomatch h
  | send => exact (messages_after h).elim (fun h => nomatch h) fun h => nomatch h
  | store => exact (messages_after h).elim (fun h => nomatch h) fun h => nomatch h
  | storeJob =>
      exact (messages_after h).elim (fun h => nomatch h) fun h => nomatch h
  | _ => cases h

/-- A task is done by a commit that made its row final. -/
theorem done_move {e : Act} {r : Except Exn e.Ret}
    (hm : Move env op ph ⟨e, r⟩ ph') (hs : SlotOk env w log op ph) {k : Task}
    (h : ph'.done = some k) :
    ph.done = some k ∨ ∃ set status, ∃ u : Unit,
      (⟨e, r⟩ : Event sig)
          = ⟨.commit [.updateCandidate k.candidateId set], .ok u⟩
        ∧ set.status = some status ∧ status.final = true
        ∧ HasRow w k.tenantId k.candidateId := by
  have hfail : ∀ {α : Type} {r : Except Exn α} {yes no : Phase},
      (after r yes no).done = some k → no.done = none →
        yes.done = some k ∧ ∃ v, r = .ok v := by
    intro α r yes no h hno
    rcases after_view Phase.done h with hyes | hbad
    · exact hyes
    · rw [hno] at hbad
      cases hbad
  cases hm with
  | quiet => exact .inl h
  | discardFile =>
      obtain ⟨hk, u, rfl⟩ := hfail h rfl
      cases hk
      exact .inr ⟨_, .failed, u, by rw [← hs.2.1]; rfl, rfl, rfl, hs.1.row⟩
  | discardAnswer =>
      obtain ⟨hk, u, rfl⟩ := hfail h rfl
      cases hk
      exact .inr ⟨_, .failed, u, by rw [← hs.2.1]; rfl, rfl, rfl, hs.1.row⟩
  | finish =>
      obtain ⟨hk, u, rfl⟩ := hfail h rfl
      cases hk
      exact .inr ⟨_, .processed, u, by rw [← hs.2.1]; rfl, rfl, rfl, hs.1.row⟩
  | report =>
      rcases after_view Phase.done h with ⟨hk, -⟩ | hk
      · exact .inl hk
      · exact .inl hk
  | delete =>
      rcases after_view Phase.done h with ⟨hk, -⟩ | hk
      · cases hk
      · exact .inl hk
  | mark => exact after_elim Phase.done h rfl rfl
  | index => exact after_elim Phase.done h rfl rfl
  | place => exact after_elim Phase.done h rfl rfl
  | keep => exact after_elim Phase.done h rfl rfl
  | send => exact after_elim Phase.done h rfl rfl
  | store => exact after_elim Phase.done h rfl rfl
  | storeJob => exact after_elim Phase.done h rfl rfl
  | _ => cases h

/-- An upload's message is on the queue when it has been sent. -/
theorem accepted_move {e : Act} {r : Except Exn e.Ret} {row : Candidate}
    (hm : Move env op ph ⟨e, r⟩ ph') (hs : SlotOk env w log op ph)
    (h : ph'.accepted = some row) :
    ph.accepted = some row ∨ ∃ u : Unit, (⟨e, r⟩ : Event sig)
      = ⟨.sendMessage (uploadBody env row.tenantId row.id), .ok u⟩ := by
  cases hm with
  | quiet => exact .inl h
  | @send t file row' r =>
      rcases after_view Phase.accepted h with ⟨h, u, rfl⟩ | h
      · cases h
        obtain ⟨t', file', hop, rfl, -⟩ := hs
        cases hop
        exact .inr ⟨u, rfl⟩
      · cases h
  | place => exact after_elim Phase.accepted h rfl rfl
  | keep => exact after_elim Phase.accepted h rfl rfl
  | store => exact after_elim Phase.accepted h rfl rfl
  | storeJob => exact after_elim Phase.accepted h rfl rfl
  | mark => exact after_elim Phase.accepted h rfl rfl
  | discardFile => exact after_elim Phase.accepted h rfl rfl
  | discardAnswer => exact after_elim Phase.accepted h rfl rfl
  | index => exact after_elim Phase.accepted h rfl rfl
  | finish => exact after_elim Phase.accepted h rfl rfl
  | report => exact after_elim Phase.accepted h rfl rfl
  | delete hph => rcases hph with rfl | rfl <;> exact after_elim Phase.accepted h rfl rfl
  | _ => cases h

-- ================================================================= statuses

/-- A final row stays final where it is never opened again. -/
theorem finalRow_step {s : Sys (service env)} {e : Act}
    {k : Except Exn e.Ret → Py Resp} {ans : (e : Act) → e.Ans}
    {r : Except Exn e.Ret} (hok : neverReopened env s (.act i ans))
    (ht : s.threads[i]? = some ⟨op, some (.act e k)⟩)
    (hw : (perform env e (ans e) s.world).2 = w')
    (hdid : Did env s.world op ph ⟨e, r⟩ w') {c : UUID}
    (hc : FinalRow s.world c) : FinalRow w' c := by
  obtain ⟨r₀, hr₀, rfl, hfinal⟩ := hc
  obtain ⟨r', hr', hid, hstatus⟩ := status_step ht hw hdid hr₀
  refine ⟨r', hr', hid, ?_⟩
  rcases hstatus with hsame | ⟨status, hsets, hstatus, hkind⟩
  · rw [hsame]
    exact hfinal
  · rcases hkind with rfl | hkind
    · obtain ⟨x, hx, hset⟩ := hsets
      rw [hok r₀ hr₀ hfinal x hx] at hset
      cases hset
    · rw [hstatus]
      exact hkind

-- =================================================================== the run

theorem Known.of_onQueue (hnew : ∀ m, OnQueue w' m ↔ OnQueue w m)
    (hn : w'.nextReceipt = w.nextReceipt) {m : Message} (h : Known w m) :
    Known w' m where
  issued := hn ▸ h.issued
  unique m' hm' := h.unique m' ((hnew m').mp hm')

/-- A deleted message is one whose candidate's row is final. -/
theorem Delivery.deleted {e : Act} {r : Except Exn e.Ret}
    (hd : Delivery env w ros) (hc : Core env w log ros)
    (hi : ros[i]? = some (op, some ph)) (hm : Move env op ph ⟨e, r⟩ ph')
    {m : Message} (hon : OnQueue w m)
    (he : e = .deleteMessage m.receiptHandle) :
    ∃ t c, m.body = uploadBody env t c ∧ FinalRow w c := by
  have hslot := hc.threads.slots hi
  cases hm with
  | quiet hq =>
      rw [he] at hq
      cases hq
  | @delete k ph r hph =>
      have hdone : ph.done = some k := by rcases hph with rfl | rfl <;> rfl
      have hheld : k.message ∈ ph.messages := by
        rcases hph with rfl | rfl <;> exact List.mem_cons_self ..
      have hk : TaskOk env w k := by
        rcases hph with rfl | rfl <;> exact hslot
      have hsame : m = k.message := by
        refine (hd.held.get hi _ hheld).unique m hon ?_
        injection he with he
        exact he.symm
      exact ⟨k.tenantId, k.candidateId, hsame ▸ hk.body, hd.done.get hi k hdone⟩
  | _ => cases he

theorem Delivery.act {s : Sys (service env)} {e : Act}
    {k : Except Exn e.Ret → Py Resp} {ans : (e : Act) → e.Ans}
    {r : Except Exn e.Ret}
    (hd : Delivery env s.world ros) (hc : Core env s.world s.log ros)
    (hi : ros[i]? = some (op, some ph))
    (ht : s.threads[i]? = some ⟨op, some (.act e k)⟩)
    (hadm : admits s.world e (ans e) = true)
    (hok : neverReopened env s (.act i ans))
    (hr : (perform env e (ans e) s.world).1 = r)
    (hm : Move env op ph ⟨e, r⟩ ph') :
    Delivery env (perform env e (ans e) s.world).2
      (ros.set i (op, some ph')) := by
  have hdid := hc.did hi hadm hr hm
  have hqueue := queueStep env e (ans e) s.world
  have hslot := hc.threads.slots hi
  have hfinal : ∀ c, FinalRow s.world c →
      FinalRow (perform env e (ans e) s.world).2 c :=
    fun c => finalRow_step hok ht rfl hdid
  -- a message that stays keeps its promise, one that goes has kept it
  have hkeep : ∀ t c, (FinalRow s.world c
      ∨ ∃ m, OnQueue s.world m ∧ m.body = uploadBody env t c) →
      FinalRow (perform env e (ans e) s.world).2 c
        ∨ ∃ m, OnQueue (perform env e (ans e) s.world).2 m
          ∧ m.body = uploadBody env t c := by
    intro t c hold
    rcases hold with hfin | ⟨m, hon, hbody⟩
    · exact .inl (hfinal c hfin)
    · rcases hqueue.old m hon with hstay | hgone
      · exact .inr ⟨m, hstay, hbody⟩
      · obtain ⟨t', c', hbody', hfin⟩ := hd.deleted hc hi hm hon hgone
        rw [hbody] at hbody'
        rw [(uploadBody_injective hbody').2]
        exact .inl (hfinal c' hfin)
  constructor
  · intro m hm
    rcases hqueue.new m hm with hold | ⟨body, he, rfl, hlt⟩
    · exact (hd.queue m hold).step hqueue
    · refine ⟨hlt, fun m' hm' hh => ?_⟩
      rcases hqueue.new m' hm' with hold | ⟨body', he', rfl, -⟩
      · have := (hd.queue m' hold).issued
        simp only at hh
        omega
      · rw [he] at he'
        cases he'
        rfl
  · refine hd.held.advance
      (fun _ _ hold m hmem => (hold m hmem).step hqueue) ?_
    rintro _ ⟨⟩ m hmem
    rcases messages_move hm hmem with hold | ⟨ms, hev, hin⟩
    · exact (hd.held.get hi m hold).step hqueue
    · cases hev
      obtain ⟨handles, -, hms⟩ := receive_ok hr
      obtain ⟨q, hq, rfl, -⟩ := hms m hin
      exact (hd.queue _ ⟨q, hq, rfl⟩).step hqueue
  · refine hd.done.advance
      (fun _ _ hold k' hdone => hfinal _ (hold k' hdone)) ?_
    rintro _ ⟨⟩ k' hdone
    rcases done_move hm hslot hdone with
      hold | ⟨set, status, u, hev, hset, hfin, hrow⟩
    · exact hfinal _ (hd.done.get hi k' hold)
    · cases hev
      obtain ⟨r, hr', hid, hs⟩ := status_commit hr rfl hset hrow
      exact ⟨r, hr', hid, hs ▸ hfin⟩
  · refine hd.sent.advance
      (fun _ _ hold row hacc => hkeep _ _ (hold row hacc)) ?_
    rintro _ ⟨⟩ row hacc
    rcases accepted_move hm hslot hacc with hold | ⟨u, hev⟩
    · exact hkeep _ _ (hd.sent.get hi row hold)
    · cases hev
      have hw : (perform env (.sendMessage _) (ans (.sendMessage _))
        s.world).2 = _ := write_ok hr
      rw [hw]
      exact .inr ⟨_, ⟨_, List.mem_append.mpr (.inr
        (List.mem_singleton.mpr rfl)), rfl⟩, rfl⟩

/-- A thread that starts holds nothing. -/
theorem Delivery.renew (h : Delivery env w ros)
    {ros' : Roster (service env) Phase} (hr : Renews .idle ros ros') :
    Delivery env w ros' := by
  refine ⟨h.queue, h.held.renew hr fun _ m hm => ?_,
    h.done.renew hr fun _ k hk => ?_, h.sent.renew hr fun _ row hrow => ?_⟩
  · cases hm
  · cases hk
  · cases hrow

/-- Redelivery and dead-lettering keep every message. -/
theorem move_onQueue {k : Surroundings} (h : k.move w = some w') :
    (∀ m, OnQueue w' m ↔ OnQueue w m) ∧ w'.nextReceipt = w.nextReceipt
      ∧ w'.db = w.db := by
  obtain ⟨f, hf, rfl⟩ := move_queue h
  exact ⟨fun m => onQueue_map hf, rfl, rfl⟩

theorem Delivery.surroundings {k : Surroundings} (h : Delivery env w ros)
    (hk : k.move w = some w') : Delivery env w' ros := by
  obtain ⟨hon, hn, hdb⟩ := move_onQueue hk
  have hfinal : ∀ c, FinalRow w c → FinalRow w' c := by
    intro c hc
    unfold FinalRow
    rw [hdb]
    exact hc
  constructor
  · exact fun m hm => (h.queue m ((hon m).mp hm)).of_onQueue hon hn
  · exact h.held.mono fun _ _ hold m hm => (hold m hm).of_onQueue hon hn
  · exact h.done.mono fun _ _ hold k hdone => hfinal _ (hold k hdone)
  · refine h.sent.mono fun _ _ hold row hrow => ?_
    rcases hold row hrow with hfin | ⟨m, hm, hbody⟩
    · exact .inl (hfinal _ hfin)
    · exact .inr ⟨m, (hon m).mpr hm, hbody⟩

theorem delivery_keeps (env : Env) :
    (protocol env).KeepsWith (neverReopened env) (Core env)
      fun w _ ros => Delivery env w ros where
  spawn _ _ h := h.renew renews_append
  act _ _ hc h hi ht hadm hok hm := h.act hc hi ht hadm hok rfl hm
  crash _ _ h _ _ _ := h.renew (renews_set (.inl rfl))
  restart _ h _ _ _ := h.renew (renews_set (.inr rfl))
  env _ _ h hk := h.surroundings hk

theorem delivery_init (env : Env) : Delivery env World.empty [] :=
  ⟨fun _ ⟨_, hq, _⟩ => (nomatch hq), .nil, .nil, .nil⟩

-- ================================================================ the result

/-- The row of an accepted upload is final, or its message is still on
the queue or the dead-letter queue. -/
def NotLost (s : Sys (service env)) (t c : UUID) : Prop :=
  (∃ r ∈ s.world.db.candidates.rows, r.id = c ∧ r.status.final = true)
    ∨ ∃ q ∈ s.world.queue, q.message.body = uploadBody env t c

/-- In every run that never opens a finished row again, no accepted
resume is lost. -/
theorem accepted_resume_not_lost {s : Sys (service env)}
    (h : GuardedRun env (neverReopened env) s) {i : Nat} {t : UUID}
    {file : UploadFile} {c : Candidate}
    (hend : s.Ended i (.uploadResume t file) (.ok (.candidate c))) :
    NotLost s t c.id := by
  obtain ⟨ros, htr, hc, hd⟩ := Run.invariant
    ((core_keeps env _).and (delivery_keeps env)) (conforms env)
    ⟨core_init env, delivery_init env⟩ h
  obtain ⟨ph, hslot, hfol⟩ := htr.phase hend
  have hfin : Final (.uploadResume t file) ph (.ok (.candidate c)) := hfol
  obtain ⟨row, rfl, hid⟩ := hfin.upload t file c rfl rfl
  obtain ⟨t', file', hop, htenant, -⟩ := hc.threads.slots hslot
  cases hop
  rw [hid, ← htenant]
  rcases hd.sent.get hslot row rfl with hfinal | ⟨m, ⟨q, hq, rfl⟩, hbody⟩
  · exact .inl hfinal
  · exact .inr ⟨q, hq, hbody⟩

/-- One upload and its handling never open a finished row again. -/
theorem accepted_resume_not_lost_sample : ∃ s : Sys (service sampleEnv),
    GuardedRun sampleEnv (neverReopened sampleEnv) s
      ∧ s.Ended 0 (.uploadResume sampleTenant samplePdf)
          (.ok (.candidate sampleRow))
      ∧ s.world.queue = [] ∧ NotLost s sampleTenant sampleRow.id := by
  have hexec : Reaches (sampleUpload ++ .spawn .worker :: steps 1 12)
      (fun s => decide (s.op? 0 = some (.uploadResume sampleTenant samplePdf)
        ∧ s.result? 0 = some (.ok (.candidate sampleRow))
        ∧ s.world.queue = []))
      (neverReopened sampleEnv) := by
    decide +kernel
  obtain ⟨s, hrun, hp⟩ := Run.exists_of_exec hexec
  obtain ⟨hop, hres, hqueue⟩ := of_decide_eq_true hp
  have hend := Sys.ended_iff.mpr ⟨hop, hres⟩
  exact ⟨s, hrun, hend, hqueue, accepted_resume_not_lost hrun hend⟩

/-- Two workers hold the one message: the second received it when the
first one's visibility window had passed. The first finishes and deletes
it; the second opens the row again and fails to reach the parser. -/
def staleEntry : List (Label (service sampleEnv)) :=
  sampleUpload
    ++ .spawn .worker :: steps 1 1
    ++ .env (.visibilityPasses 0) :: .spawn .worker :: steps 2 1
    ++ steps 1 11
    ++ steps 2 3 ++ steps 2 2 { parsed := .error (.other "down") }

/-- Without the condition an accepted resume is lost: its row is left at
`processing` and the queue is empty. -/
theorem accepted_resume_lost : ∃ s : Sys (service sampleEnv),
    Reachable sampleEnv s
      ∧ s.Ended 0 (.uploadResume sampleTenant samplePdf)
          (.ok (.candidate sampleRow))
      ∧ ¬ NotLost s sampleTenant sampleRow.id := by
  have hexec : Reaches staleEntry fun s =>
      decide (s.op? 0 = some (.uploadResume sampleTenant samplePdf)
        ∧ s.result? 0 = some (.ok (.candidate sampleRow))
        ∧ s.world.queue = []
        ∧ ∀ r ∈ s.world.db.candidates.rows, r.status.final = false) := by
    decide +kernel
  obtain ⟨s, hrun, hp⟩ := Run.exists_of_exec hexec
  obtain ⟨hop, hres, hqueue, hopen⟩ := of_decide_eq_true hp
  refine ⟨s, hrun, Sys.ended_iff.mpr ⟨hop, hres⟩, fun hkept => ?_⟩
  rcases hkept with ⟨r, hr, -, hfinal⟩ | ⟨q, hq, -⟩
  · rw [hopen r hr] at hfinal
    cases hfinal
  · rw [hqueue] at hq
    cases hq

end ResumeScreening.Pipeline
