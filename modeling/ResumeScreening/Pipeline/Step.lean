/-
One step of the pipeline keeps the invariant (`Core.act`), and so does
every run from empty stores (`reachable_core`).
-/
import ResumeScreening.Pipeline.Core

namespace ResumeScreening.Pipeline

open Effect

variable {env : Env} {w w' : World} {log : Log sig}
  {ros : Roster (service env) Phase} {i : Nat} {op : Op} {ph ph' : Phase}

-- ======================================================= worlds alike, by act

theorem upsert_alike (ns : String) (v : VectorRecord) (a : Fate) (w : World) :
    Alike w (perform env (.upsert ns v) a w).2 :=
  write_ends (P := Alike w) a
    ⟨rfl, rfl, rfl, rfl, fun q hq => ⟨q, hq, rfl⟩⟩ (.refl w)

theorem updateItem_alike (c s : String) (a : Fate) (w : World) :
    Alike w (perform env (.updateItem c s) a w).2 :=
  write_ends (P := Alike w) a
    ⟨rfl, rfl, rfl, rfl, fun q hq => ⟨q, hq, rfl⟩⟩ (.refl w)

theorem deleteMessage_alike (handle : Nat) (a : Fate) (w : World) :
    Alike w (perform env (.deleteMessage handle) a w).2 :=
  write_ends (P := Alike w) a
    ⟨rfl, rfl, rfl, rfl, fun q hq => ⟨q, List.mem_of_mem_filter hq, rfl⟩⟩
    (.refl w)

theorem receive_alike (w : World) (handles : List Nat) :
    Alike w (w.receive handles) := by
  refine ⟨rfl, rfl, rfl, rfl, fun q' hq' => ?_⟩
  obtain ⟨q, hq, rfl⟩ := List.mem_map.mp hq'
  refine ⟨q, hq, ?_⟩
  split <;> rfl

/-- What a receive call answers with is on the queue. -/
theorem receive_ok {a : Except String (List Nat)} {ms : List Message}
    (h : (perform env .receiveMessage a w).1 = .ok ms) :
    ∃ handles, (perform env .receiveMessage a w).2 = w.receive handles
      ∧ ∀ m ∈ ms, ∃ q ∈ w.queue, q.message = m
        ∧ m.receiptHandle ∈ handles := by
  cases a with
  | error msg => cases h
  | ok handles =>
      refine ⟨handles, rfl, fun m hm => ?_⟩
      cases h
      obtain ⟨q, hq, rfl⟩ := List.mem_map.mp hm
      obtain ⟨hmem, hin⟩ := List.mem_filter.mp hq
      exact ⟨q, hmem, rfl, by simpa using hin⟩

theorem receive_error {a : Except String (List Nat)} {x : Exn}
    (h : (perform env .receiveMessage a w).1 = .error x) :
    (perform env .receiveMessage a w).2 = w := by
  cases a with
  | error msg => rfl
  | ok handles => cases h

/-- What an object read finds. -/
theorem getObject_ok {bucket key : String} {a : Except String Unit}
    {bytes : List UInt8}
    (h : (perform env (.getObject bucket key) a w).1 = .ok bytes) :
    w.s3 bucket key = some bytes :=
  readOr_ok h

-- ================================================================== one step

/-- Both outcomes of a write. -/
theorem slotOk_after {α : Type} (r : Except Exn α) {yes no : Phase}
    (hyes : SlotOk env w log op yes) (hno : SlotOk env w log op no) :
    SlotOk env w log op (after r yes no) := by
  cases r with
  | ok v => exact hyes
  | error x => exact hno

theorem owns_after {α : Type} (r : Except Exn α) {yes no : Phase}
    (hyes : yes.owns = none) (hno : no.owns = none) :
    (after r yes no).owns = none := by
  cases r with
  | ok v => exact hyes
  | error x => exact hno

/-- The messages a task leaves over are messages of uploads. -/
theorem slotOk_over {k : Task} (h : TaskOk env w k) :
    SlotOk env w log op k.over := h.over

/-- Owning nothing owns nothing new. -/
theorem owns_none (h : ph'.owns = none) : ∀ id, ph'.owns = some id →
    ph.owns = some id ∧ (ph'.unborn = true → ph.unborn = true) := by
  intro id hid
  rw [h] at hid
  cases hid

section Moves

variable {t : UUID} {file : UploadFile} {row : Candidate} {k : Task}
  {ev : Nat × Event sig}

/-- The file of a placed row is put, or is not. -/
theorem Core.keep (h : Core env w log ros)
    (hi : ros[i]? = some (.uploadResume t file, some (.placed row))) {a : Fate}
    {r : Except Exn Unit}
    (hr : (perform env (.putObject env.s3BucketName (uploadKey row.id)
      file.bytes) a w).1 = r) :
    Core env (perform env (.putObject env.s3BucketName (uploadKey row.id)
        file.bytes) a w).2 (ev :: log)
      (ros.set i (.uploadResume t file, some (after r (.kept row) .idle))) := by
  obtain ⟨t', file', now, hop, hrow, hmem⟩ := h.threads.slots hi
  cases hop
  show Core env (w.write _ a).2 _ _
  rw [write_snd]
  split
  next happ =>
    refine h.put hi (slotOk_after r ?_ trivial) (owns_after r rfl rfl)
    refine ⟨t, file, rfl, by rw [hrow]; rfl,
      ⟨row, hmem, rfl, by rw [hrow]; rfl⟩, ?_⟩
    show setAt _ _ _ _ _ _ = _
    rw [setAt, if_pos ⟨rfl, rfl⟩]
  next happ =>
    have hidle : after r (.kept row) .idle = .idle := by
      cases r with
      | ok u =>
          cases a with
          | ok => exact absurd rfl happ
          | failed msg => cases hr
          | lostReply msg => cases hr
      | error x => rfl
    rw [hidle]
    exact h.alike hi (.refl w) trivial (owns_none rfl)

/-- The message of a kept file is sent, or is not. -/
theorem Core.send (h : Core env w log ros)
    (hi : ros[i]? = some (.uploadResume t file, some (.kept row))) (a : Fate)
    (r : Except Exn Unit) :
    Core env (perform env (.sendMessage (uploadBody env t row.id)) a w).2
      (ev :: log)
      (ros.set i (.uploadResume t file, some (after r (.sent row) .idle))) := by
  obtain ⟨t', file', hop, ht, hrow, hfile⟩ := h.slot ev hi
  cases hop
  have hafter : SlotOk env w (ev :: log) (.uploadResume t file)
      (after r (.sent row) .idle) :=
    slotOk_after r ⟨t, file, rfl, ht, hrow, hfile⟩ trivial
  have hown : (after r (.sent row) .idle).owns = none := owns_after r rfl rfl
  refine write_ends (P := fun w' => Core env w' (ev :: log) _) a ?_ ?_
  · exact h.publish hi ⟨t, row.id, file.bytes, rfl, hrow, hfile⟩ hafter hown
  · exact h.alike hi (.refl w) hafter (owns_none hown)

/-- The row of a stored job vector is committed, or is not. -/
theorem Core.createJob (h : Core env w log ros) {row : Job}
    (hi : ros[i]? = some (op, some (.storedJob row))) (a : Fate) :
    Core env (perform env (.commit [.insertJob (jobWithVector row)]) a w).2
      (ev :: log) (ros.set i (op, some .idle)) := by
  show Core env (w.commit _ a).2 _ _
  rcases commit_cases w [.insertJob (jobWithVector row)] a with
    ⟨hw, -⟩ | ⟨db, hdb, hw⟩
  · rw [hw]
    exact h.alike hi (.refl w) trivial (owns_none rfl)
  · rw [writeAll_one] at hdb
    obtain ⟨tab, ht, rfl⟩ := write_insertJob hdb
    rw [hw]
    exact h.job hi (rfl : Phase.owns _ = some (jobWithVector row).id) rfl ht

/-- The messages left once one is counted are messages of uploads. -/
theorem slotOk_counted {ph : Phase} {m : Message} {ms : List Message}
    (hslot : SlotOk env w log .worker ph) (hcur : ph.current = some (m, ms)) :
    SlotOk env w log .worker (.batch ms) := by
  cases ph with
  | batch ms' =>
      cases ms' with
      | nil => cases hcur
      | cons m' ms' =>
          cases hcur
          exact fun m hm => hslot m (List.mem_cons_of_mem _ hm)
  | fetched m' ms' bytes =>
      cases hcur
      exact fun m hm => hslot.1 m (List.mem_cons_of_mem _ hm)
  | marked k row => cases hcur; exact hslot.1.rest
  | parsed k row text p => cases hcur; exact hslot.1.rest
  | discarded k => cases hcur; exact TaskOk.rest hslot
  | finished k => cases hcur; exact TaskOk.rest hslot
  | reported k => cases hcur; exact TaskOk.rest hslot
  | _ => cases hcur

/-- What a message names is a row of the tenant with the file fetched. -/
theorem slotOk_loaded {m : Message} {ms : List Message} {bytes : List UInt8}
    {c : UUID} {text : String} {a : Except String Unit}
    (hslot : SlotOk env w log .worker (.fetched m ms bytes))
    (hnames : Names m.body t c text)
    (hr : (perform env (.selectCandidate t c) a w).1 = .ok (some row)) :
    SlotOk env w log .worker (.loaded ⟨m, ms, t, c, text, bytes⟩ row) := by
  obtain ⟨hall, hfile⟩ := hslot
  obtain ⟨t₀, c₀, b, hbody, hrow, -⟩ := hall m (List.mem_cons_self ..)
  rw [hbody] at hnames
  obtain ⟨rfl, rfl, htext⟩ := names_uploadBody hnames
  obtain ⟨-, hid, ht⟩ := selectCandidate_ok hr
  exact ⟨⟨hbody, htext, hrow, hfile _ _ hbody,
    fun m' hm' => hall m' (List.mem_cons_of_mem _ hm')⟩, hid, ht⟩

/-- A loaded row is marked, if it was not. -/
theorem Core.mark (h : Core env w log ros)
    (hi : ros[i]? = some (.worker, some (.loaded k row))) (a : Fate)
    (r : Except Exn Unit) :
    Core env (perform env (.commit (processingWrites row)) a w).2 (ev :: log)
      (ros.set i (.worker, some (after r (.marked k row) k.over))) := by
  have hslot := h.slot ev hi
  have hafter : SlotOk env w (ev :: log) .worker
      (after r (.marked k row) k.over) :=
    slotOk_after r hslot (slotOk_over hslot.1)
  have hown : (after r (.marked k row) k.over).owns = none :=
    owns_after r rfl rfl
  obtain ⟨hk, hid, -⟩ := hslot
  by_cases hs : row.status = .processing
  · have hnil : processingWrites row = [] := if_pos hs
    have hq : quiet (.commit (processingWrites row)) = true := by
      rw [hnil]
      rfl
    exact h.alike hi (quiet_same hq a w).alike hafter (owns_none hown)
  · have hone : processingWrites row
        = [.updateCandidate row.id { status := some .processing }] :=
      if_neg hs
    show Core env (w.commit (processingWrites row) a).2 _ _
    rw [hone]
    exact h.update hi a ⟨_, hid ▸ hk.file⟩
      (fun r₀ hr₀ _ => hr₀.status (by decide)) hafter hown

end Moves

/-- One performed action keeps the invariant. -/
theorem Core.act (h : Core env w log ros)
    (hi : ros[i]? = some (op, some ph)) {e : Act} {a : e.Ans}
    (hadm : admits w e a = true) {r : Except Exn e.Ret}
    (hr : (perform env e a w).1 = r) (hm : Move env op ph ⟨e, r⟩ ph') :
    Core env (perform env e a w).2 ((i, ⟨e, r⟩) :: log)
      (ros.set i (op, some ph')) := by
  cases hm with
  | quiet hq hdue =>
      exact h.alike hi (quiet_same hq a w).alike (h.slot _ hi)
        fun id hid => ⟨hid, fun hub => hub⟩
  | @draw _ u =>
      have hu : u ∉ w.usedIds := by
        cases hr
        simpa [admits] using hadm
      cases hr
      exact h.draw hi hu
  | draft =>
      refine h.alike hi (quiet_same rfl a w).alike (.inl ⟨_, _, _, rfl, rfl⟩) ?_
      rintro id ⟨⟩
      exact ⟨rfl, fun _ => rfl⟩
  | @place t file row r =>
      have hslot := h.threads.slots hi
      obtain ⟨t', file', now, hop, hrow⟩ : ∃ t' file' now,
          Op.uploadResume t file = .uploadResume t' file'
            ∧ row = placeholder t' row.id now := by
        rcases hslot with hslot | ⟨_, _, _, hop, -⟩
        · exact hslot
        · cases hop
      refine h.insert hi a rfl (fun hfile => ?_) hr
        (.inr ⟨rfl, t', file', now, hop, hrow⟩)
      rw [hrow]
      exact ⟨(h.threads.owned hi (rfl : Phase.owns _ = some row.id)).drawn, .inl rfl,
        (fun hs => nomatch hs), fun hs => nomatch hs⟩
  | @keep t file row r => exact h.keep hi hr
  | @send t file row r => exact h.send hi a r
  | draftCreate =>
      refine h.alike hi (quiet_same rfl a w).alike (.inr ⟨_, _, _, rfl, rfl⟩) ?_
      rintro id ⟨⟩
      exact ⟨rfl, fun _ => rfl⟩
  | @store t payload row r =>
      have hslot := h.slot (i, ⟨.upsert t.str (vectorOf env row), r⟩) hi
      refine h.alike hi (upsert_alike _ _ a w) (slotOk_after r ?_ hslot) ?_
      · rcases hslot with ⟨_, _, _, hop, -⟩ | hslot
        · cases hop
        · exact hslot
      · intro id hid
        cases r with
        | ok u => exact ⟨hid, fun _ => rfl⟩
        | error x => exact ⟨hid, fun _ => rfl⟩
  | @create t payload row r =>
      obtain ⟨t', payload', now, hop, hrow⟩ := h.threads.slots hi
      refine h.insert hi a rfl (fun hfile => ?_) hr
        (.inl rfl)
      refine ⟨(h.threads.owned hi (rfl : Phase.owns _ = some row.id)).drawn, .inr rfl,
        fun _ => ⟨?_, rfl⟩, fun _ b hb => ?_⟩
      · rw [hrow]
        rfl
      · rw [hfile] at hb
        cases hb
  | draftJob =>
      refine h.alike hi (quiet_same rfl a w).alike ⟨_, _, _, rfl, rfl⟩ ?_
      rintro id ⟨⟩
      exact ⟨rfl, fun _ => rfl⟩
  | @storeJob t payload row r =>
      have hslot := h.slot (i, ⟨.upsert t.str (jobVectorOf env row), r⟩) hi
      refine h.alike hi (upsert_alike _ _ a w) (slotOk_after r hslot hslot) ?_
      intro id hid
      cases r with
      | ok u => exact ⟨hid, fun _ => rfl⟩
      | error x => exact ⟨hid, fun _ => rfl⟩
  | @createJob t payload row r => exact h.createJob hi a
  | receive =>
      obtain ⟨handles, hw, hms⟩ := receive_ok hr
      rw [hw]
      refine h.alike hi (receive_alike w handles) (fun m hm => ?_)
        (owns_none rfl)
      obtain ⟨q, hq, rfl, -⟩ := hms m hm
      exact h.stores.queue q hq
  | receiveFailed =>
      rw [receive_error hr]
      exact h.alike hi (.refl w) trivial (owns_none rfl)
  | @count ph m ms o r hcur =>
      exact h.alike hi (quiet_same rfl a w).alike
        (slotOk_counted (h.slot _ hi) hcur) (owns_none rfl)
  | @fetch m ms bucket key bytes hloc =>
      have hslot := h.slot (i, ⟨.getObject bucket key, .ok bytes⟩) hi
      refine h.alike hi (quiet_same rfl a w).alike ⟨hslot, ?_⟩ (owns_none rfl)
      intro t c hbody
      rw [hbody] at hloc
      obtain ⟨rfl, rfl⟩ := locates_uploadBody hloc
      exact getObject_ok hr
  | @load m ms bytes t c text row hnames =>
      exact h.alike hi (quiet_same rfl a w).alike
        (slotOk_loaded (h.slot _ hi) hnames hr) (owns_none rfl)
  | @mark k row r => exact h.mark hi a r
  | @parse k row text p hreads =>
      have hslot := h.slot (i, ⟨.parseResume text, .ok p⟩) hi
      refine h.alike hi (quiet_same rfl a w).alike ?_ (owns_none rfl)
      exact ⟨hslot.1, hslot.2.1, hslot.2.2, hreads, i, List.mem_cons_self ..⟩
  | @reject k row text msg hreads =>
      have hslot := h.slot (i, ⟨.parseResume text, .error (.valueError msg)⟩) hi
      exact h.alike hi (quiet_same rfl a w).alike hslot (owns_none rfl)
  | @discardFile k row r hnone =>
      have hslot := h.slot (i, ⟨.commit [failedWrite row], r⟩) hi
      have hk := hslot.1
      exact h.update hi a ⟨_, hslot.2.1 ▸ hk.file⟩
        (fun r₀ hr₀ _ => hr₀.status (by decide))
        (slotOk_after r hk hslot) (owns_after r rfl rfl)
  | @discardAnswer k row text r =>
      have hslot := h.slot (i, ⟨.commit [failedWrite row], r⟩) hi
      obtain ⟨hk, hid, -⟩ := hslot
      exact h.update hi a ⟨_, hid ▸ hk.file⟩
        (fun r₀ hr₀ _ => hr₀.status (by decide))
        (slotOk_after r hk (slotOk_over hk)) (owns_after r rfl rfl)
  | @index k row text p r =>
      have hslot := h.slot (i, ⟨.upsert k.tenantId.str (vectorOf env (filled row p text)), r⟩) hi
      exact h.alike hi (upsert_alike _ _ a w) (slotOk_after r hslot hslot)
        (owns_none (owns_after r rfl rfl))
  | @finish k row text p r =>
      have hslot := h.slot (i, ⟨.commit [indexWrite row p text], r⟩) hi
      obtain ⟨hk, hid, ht, hreads, hans⟩ := hslot
      have hfile : fileOf env w row.id = some k.bytes := hid ▸ hk.file
      exact h.update hi a ⟨_, hfile⟩
        (fun r₀ hr₀ hc => hr₀.index hc hfile hreads hans)
        (slotOk_after r hk (slotOk_over hk)) (owns_after r rfl rfl)
  | @report k r =>
      have hslot := h.slot (i, ⟨.updateItem k.text "ai-processed", r⟩) hi
      exact h.alike hi (updateItem_alike _ _ a w) (slotOk_after r hslot hslot)
        (owns_none (owns_after r rfl rfl))
  | @delete k ph r hph =>
      have hslot := h.slot (i, ⟨.deleteMessage k.message.receiptHandle, r⟩) hi
      have hk : TaskOk env w k := by
        rcases hph with rfl | rfl
        · exact hslot
        · exact hslot
      have hown : ph.owns = none := by
        rcases hph with rfl | rfl <;> rfl
      exact h.alike hi (deleteMessage_alike _ a w)
        (slotOk_after r (slotOk_over hk) hslot)
        (owns_none (owns_after r rfl hown))

-- ================================================================ every run

/-- A thread that is new, dies or starts over owns nothing. -/
theorem Threads.renew (h : Threads env w log ros)
    {ros' : Roster (service env) Phase} (hr : Renews .idle ros ros') :
    Threads env w log ros' := by
  have hnew : ∀ {j : Nat} {op₁ : Op} {ph₁ : Phase} {id : UUID},
      ros'[j]? = some (op₁, some ph₁) →
      ph₁.owns = some id → ros[j]? = some (op₁, some ph₁) := by
    intro j op₁ ph₁ id hj hown
    rcases hr hj with rfl | hold
    · cases hown
    · exact hold
  constructor
  · intro j op₁ ph₁ hj
    rcases hr hj with rfl | hold
    · trivial
    · exact h.slots hold
  · exact fun hj hown => h.owned (hnew hj hown) hown
  · exact fun hj hj' hown hown' =>
      h.apart (hnew hj hown) (hnew hj' hown') hown hown'

theorem Threads.alike (h : Threads env w log ros) (ha : Alike w w') :
    Threads env w' log ros where
  slots hj := (h.slots hj).grow ha.grows (fun _ hx => hx) fun _ _ hmem => by
    rw [ha.candidates]
    exact hmem
  owned hj hown := (h.owned hj hown).keep ha.grows (ha.untouched _)
  apart := h.apart

/-- The invariant is kept by every kind of step, whatever the guard. -/
theorem core_keeps (env : Env) (ok : Guard (service env)) :
    (protocol env).Keeps ok (Core env) where
  spawn _ h := ⟨h.stores, h.threads.renew renews_append⟩
  act _ _ h hi _ hadm _ hm := h.act hi hadm rfl hm
  crash _ h _ _ _ := ⟨h.stores, h.threads.renew (renews_set (.inl rfl))⟩
  restart h _ _ _ := ⟨h.stores, h.threads.renew (renews_set (.inr rfl))⟩
  env _ h hk := ⟨h.stores.alike (move_alike hk) fun _ hx => hx,
    h.threads.alike (move_alike hk)⟩

theorem core_init (env : Env) : Core env World.empty [] [] where
  stores := ⟨fun _ hr => (nomatch hr), fun _ hj => (nomatch hj),
    fun _ _ hb => (nomatch hb), fun _ hq => (nomatch hq)⟩
  threads := ⟨fun hj => (nomatch hj), fun hj => (nomatch hj),
    fun hj => (nomatch hj)⟩

/-- Every reachable state has a roster of phases its threads are in, and
meets the invariant with it. -/
theorem reachable_core {ok : Guard (service env)} {s : Sys (service env)}
    (h : GuardedRun env ok s) :
    ∃ ros, (protocol env).Tracks s ros ∧ Core env s.world s.log ros :=
  Run.invariant (core_keeps env ok) (conforms env) (core_init env) h

-- ============================================================= due actions

/-- Every action has some reply. -/
theorem exists_possible (e : Act) : ∃ r, (machine env).Possible e r := by
  have hans : ∃ a : e.Ans, admits World.empty e a = true := by
    cases e with
    | uuid4 => exact ⟨UUID.ofNat 0, rfl⟩
    | utcNow => exact ⟨Py.DateTime.epoch, rfl⟩
    | countOutcome o => exact ⟨(), rfl⟩
    | transactionNow => exact ⟨.error "", rfl⟩
    | parseResume text => exact ⟨.error (.other ""), rfl⟩
    | explainMatch prompt => exact ⟨.error (.other ""), rfl⟩
    | query => exact ⟨.error "", rfl⟩
    | receiveMessage => exact ⟨.error "", rfl⟩
    | createRazorpaySubscription => exact ⟨.error "", rfl⟩
    | flush => exact ⟨.ok, rfl⟩
    | commit => exact ⟨.ok, rfl⟩
    | upsert => exact ⟨.ok, rfl⟩
    | putObject => exact ⟨.ok, rfl⟩
    | sendMessage => exact ⟨.ok, rfl⟩
    | deleteMessage => exact ⟨.ok, rfl⟩
    | updateItem => exact ⟨.ok, rfl⟩
    | _ => exact ⟨.ok (), rfl⟩
  obtain ⟨a, ha⟩ := hans
  exact ⟨_, World.empty, a, ha, rfl⟩

theorem due_of_current {x : Message × List Message}
    (h : ph.current = some x) : ph.due = none := by
  cases ph with
  | stored row => cases h
  | storedJob row => cases h
  | loaded k row => cases h
  | rejected k row text => cases h
  | indexing k row text p => cases h
  | _ => rfl

/-- In a phase with a due action no other action is a move. -/
theorem act_of_due {e e' : Act} {r : Except Exn e'.Ret}
    (hdue : ph.due = some e) (hm : Move env op ph ⟨e', r⟩ ph') : e' = e := by
  cases hm with
  | quiet hq hnone =>
      rw [hnone] at hdue
      cases hdue
  | create => exact Option.some.inj hdue
  | createJob => exact Option.some.inj hdue
  | mark => exact Option.some.inj hdue
  | discardAnswer => exact Option.some.inj hdue
  | finish => exact Option.some.inj hdue
  | @count ph m ms o r hcur =>
      rw [due_of_current hcur] at hdue
      cases hdue
  | delete hph => rcases hph with rfl | rfl <;> cases hdue
  | _ => cases hdue

/-- A thread whose phase has a due action performs it next. -/
theorem next_of_due {s : Sys (service env)} {e : Act}
    (htr : (protocol env).Tracks s ros)
    (hi : ros[i]? = some (op, some ph)) (hdue : ph.due = some e) :
    s.next? i = some e := by
  obtain ⟨p, hp, hfol⟩ := htr.thread hi
  unfold Sys.next?
  rw [hp]
  cases p with
  | ret x =>
      have hfin : Final op ph (.ok x) := hfol
      rw [hfin.due] at hdue
      cases hdue
  | raise x =>
      have hfin : Final op ph (.error x) := hfol
      rw [hfin.due] at hdue
      cases hdue
  | act e' k =>
      obtain ⟨r, hr⟩ := exists_possible e'
      obtain ⟨ph', hm, -⟩ := hfol r hr
      exact congrArg some (act_of_due hdue hm)

/-- The move a thread's next action is, under some reply. -/
theorem next_move {s : Sys (service env)} {e : Act}
    (htr : (protocol env).Tracks s ros) (h : s.next? i = some e) :
    ∃ op ph r ph', ros[i]? = some (op, some ph)
      ∧ Move env op ph ⟨e, r⟩ ph' := by
  unfold Sys.next? at h
  split at h
  next op p ht =>
    obtain ⟨ph, hi, hfol⟩ := htr.phase ht
    cases p with
    | ret x => cases h
    | raise x => cases h
    | act e' k =>
        cases h
        obtain ⟨r, hr⟩ := exists_possible e
        obtain ⟨ph', hm, -⟩ := hfol r hr
        exact ⟨op, ph, r, ph', hi, hm⟩
  · cases h

end ResumeScreening.Pipeline
