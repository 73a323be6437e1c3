/-
The quota bound — where every admission leaves room for the requests
already let through.

The gate counts committed rows. Between its COUNT and the commit of its
own row a request is in flight, and no other request's COUNT sees it, so
the bound that survives every step is on committed rows and requests in
flight together (`Bounded.room`). All steps keep it but one: a COUNT
that lets a request through adds to it. `Roomy` asks of that step that
the sum stay within the limit; the code only asks it of the rows.

A `Standing` is what the tenant's subscription is throughout the run:
none that is active, or an active one with its plan's quota and a fixed
period.
-/
import ResumeScreening.Quota.Gate
import ResumeScreening.Pipeline.Status
import ResumeScreening.Pipeline.Whole

namespace ResumeScreening.Quota

open Effect Pipeline

variable {env : Env} {t : UUID}

-- ================================================================== standing

inductive Standing
  | free
  | paid (plan : Plan) (quota : Int) (periodEnd start : Py.DateTime)

namespace Standing

/-- The number of uploads the gate grants. -/
def limit (env : Env) : Standing → Int
  | .free => env.freeTierResumeLimit
  | .paid _ quota _ _ => quota

/-- The instant they are counted from. -/
def since : Standing → Option Py.DateTime
  | .free => none
  | .paid _ _ _ start => some start

/-- The subscription row of a paid standing. -/
def Matches (plan : Plan) (periodEnd : Py.DateTime) (s : Subscription) :
    Prop :=
  s.status = "active" ∧ s.planId = plan.id
    ∧ s.currentPeriodEnd = some periodEnd

instance (plan : Plan) (periodEnd : Py.DateTime) (s : Subscription) :
    Decidable (Matches plan periodEnd s) :=
  inferInstanceAs (Decidable (_ ∧ _))

/-- The tenant has this standing. -/
def Holds (t : UUID) (w : World) : Standing → Prop
  | .free => ∀ s ∈ w.db.subscriptions.rows, s.tenantId = t →
      s.status ≠ "active"
  | .paid plan quota periodEnd start =>
      (∃ s ∈ w.db.subscriptions.rows, s.tenantId = t
        ∧ Matches plan periodEnd s)
      ∧ plan ∈ w.db.plans.rows ∧ plan.monthlyResumeQuota = some quota
      ∧ (Py.timedeltaDays (30 * plan.durationMonths)).bind periodEnd.sub
        = some start

instance (t : UUID) (w : World) : (R : Standing) → Decidable (R.Holds t w)
  | .free => inferInstanceAs
      (Decidable (∀ s ∈ w.db.subscriptions.rows, _ → _))
  | .paid .. => inferInstanceAs (Decidable (_ ∧ _))

/-- What a request at the gate has read under this standing. -/
def Reads (R : Standing) : Gate → Prop
  | .gated sub =>
      match R with
      | .free => ∀ s, sub = some s → s.status ≠ "active"
      | .paid plan _ periodEnd _ => ∃ s, sub = some s ∧ Matches plan periodEnd s
  | .planned sub plan' =>
      match R with
      | .free => False
      | .paid plan quota periodEnd start => Matches plan periodEnd sub
          ∧ plan' = plan ∧ plan.monthlyResumeQuota = some quota
          ∧ (Py.timedeltaDays (30 * plan.durationMonths)).bind periodEnd.sub
            = some start
  | _ => True

end Standing

-- ================================================================== counting

def isUpload (t : UUID) : Op → Bool
  | .uploadResume t' _ => t' == t
  | _ => false

/-- The event drew this identifier. -/
def drew (id : UUID) : Event sig → Bool
  | ⟨.uuid4, .ok id'⟩ => id' == id
  | _ => false

/-- The row's identifier was drawn by an upload of the tenant. -/
def uploadRow (log : Log sig) (ops : List Op) (t : UUID) (r : Candidate) :
    Bool :=
  log.any fun x => drew r.id x.2 && (ops[x.1]?).any (isUpload t)

/-- The tenant's row, created since then. -/
def inPeriod (t : UUID) (since : Option Py.DateTime) (r : Candidate) : Bool :=
  r.tenantId == t
    && since.all fun start => decide (start.micros ≤ r.createdAt.micros)

/-- What the gate counts. -/
def used (w : World) (t : UUID) (since : Option Py.DateTime) : Nat :=
  w.db.candidates.count (inPeriod t since)

/-- The committed rows of the tenant's uploads. -/
def committed (w : World) (log : Log sig) (ops : List Op) (t : UUID)
    (since : Option Py.DateTime) : Nat :=
  w.db.candidates.count fun r => inPeriod t since r && uploadRow log ops t r

/-- The operations of a system's threads. -/
def operations (s : Sys (service env)) : List Op := s.threads.map Thread.op

/-- Thread `i` is an upload of the tenant past its COUNT and not yet past
its commit. -/
def inFlight (s : Sys (service env)) (t : UUID) (i : Nat) : Bool :=
  match s.op? i, s.next? i with
  | some op, some e => isUpload t op && leads e
  | _, _ => false

def settles : Act → Bool
  | .commit _ => true
  | _ => false

/-- The step is the COUNT of an upload of the tenant. -/
def counts (s : Sys (service env)) (t : UUID) : Label (service env) → Bool
  | .act i _ =>
      match s.op? i, s.next? i with
      | some op, some (.countCandidates ..) => isUpload t op
      | _, _ => false
  | _ => false

/-- The standing holds, and a COUNT below the limit stays below it with
the requests in flight. -/
structure Roomy (env : Env) (R : Standing) (t : UUID) (s : Sys (service env))
    (l : Label (service env)) : Prop where
  standing : R.Holds t s.world
  room : counts s t l = true → (used s.world t R.since : Int) < R.limit env →
    (used s.world t R.since : Int)
      + (List.range s.threads.length).countP (inFlight s t) < R.limit env

instance (R : Standing) (s : Sys (service env)) (l : Label (service env)) :
    Decidable (Roomy env R t s l) :=
  decidable_of_iff
    (R.Holds t s.world ∧ (counts s t l = true →
      (used s.world t R.since : Int) < R.limit env →
      (used s.world t R.since : Int)
        + (List.range s.threads.length).countP (inFlight s t) < R.limit env))
    ⟨fun h => ⟨h.1, h.2⟩, fun h => ⟨h.standing, h.room⟩⟩

-- ============================================================= the invariant

/-- A request in flight, by its phase. -/
def pendingSlot (t : UUID) : Op × Option (Phase × Gate) → Bool
  | (.uploadResume t' file, some (_, .admitted)) =>
      t' == t && file.contentType == "application/pdf"
  | _ => false

structure Bounded (env : Env) (R : Standing) (t : UUID) (w : World)
    (log : Log sig) (ros : Roster (service env) (Phase × Gate)) : Prop where
  reads : Slots (fun op (a : Phase × Gate) => isUpload t op = true →
    R.Reads a.2) ros
  room : (committed w log (ros.map Prod.fst) t R.since : Int)
    + ros.countP (pendingSlot t) ≤ R.limit env

theorem committed_le_used (w : World) (log : Log sig) (ops : List Op)
    (since : Option Py.DateTime) :
    committed w log ops t since ≤ used w t since := by
  unfold committed used Relational.Table.count
  refine List.countP_mono_left fun r _ h => ?_
  rw [Bool.and_eq_true] at h
  exact h.1

theorem isUpload_iff {op : Op} :
    isUpload t op = true ↔ ∃ file, op = .uploadResume t file := by
  constructor
  · intro h
    cases op with
    | uploadResume t' file =>
        have ht : t' = t := by simpa [isUpload] using h
        exact ⟨file, by rw [ht]⟩
    | _ => cases h
  · intro h
    obtain ⟨file, rfl⟩ := h
    simp [isUpload]

theorem drew_iff {id : UUID} {ev : Event sig} :
    drew id ev = true ↔ ev = ⟨.uuid4, .ok id⟩ := by
  constructor
  · intro h
    unfold drew at h
    split at h
    next id' =>
      have hid : id' = id := by simpa using h
      rw [hid]
    next => cases h
  · intro h
    rw [h]
    simp [drew]

/-- An upload row was issued to an upload thread. -/
theorem uploadRow_iff {log : Log sig} {ops : List Op} {r : Candidate} :
    uploadRow log ops t r = true
      ↔ ∃ j op, Issued log j r.id ∧ ops[j]? = some op
        ∧ isUpload t op = true := by
  unfold uploadRow
  rw [List.any_eq_true]
  constructor
  · intro h
    obtain ⟨⟨j, ev⟩, hmem, hx⟩ := h
    rw [Bool.and_eq_true] at hx
    have hev : ev = ⟨.uuid4, .ok r.id⟩ := drew_iff.mp hx.1
    rw [hev] at hmem
    cases hop : ops[j]? with
    | none => simp [hop] at hx
    | some op => exact ⟨j, op, hmem, hop, by simpa [hop] using hx.2⟩
  · intro h
    obtain ⟨j, op, hissued, hop, hup⟩ := h
    refine ⟨(j, ⟨.uuid4, .ok r.id⟩), hissued, ?_⟩
    rw [Bool.and_eq_true]
    exact ⟨drew_iff.mpr rfl, by rw [hop]; exact hup⟩

/-- An event that draws no such identifier tells nothing of a row. -/
theorem uploadRow_cons {log : Log sig} {ops : List Op} {r : Candidate}
    {i : Nat} {ev : Event sig} (h : drew r.id ev = false) :
    uploadRow ((i, ev) :: log) ops t r = uploadRow log ops t r := by
  unfold uploadRow
  rw [List.any_cons, h, Bool.false_and, Bool.false_or]

/-- The same rows, from the same uploads, are the same in number. -/
theorem committed_congr {w w' : World} {log log' : Log sig}
    {ops ops' : List Op} {since : Option Py.DateTime}
    (hrows : w'.db.candidates = w.db.candidates)
    (hup : ∀ r ∈ w.db.candidates.rows,
      uploadRow log' ops' t r = uploadRow log ops t r) :
    committed w' log' ops' t since = committed w log ops t since := by
  unfold committed Relational.Table.count
  rw [hrows]
  apply List.countP_congr
  intro r hr
  rw [hup r hr]

theorem drew_of_ne {e : Act} {r : Except Exn e.Ret} (h : e ≠ .uuid4)
    (id : UUID) : drew id ⟨e, r⟩ = false := by
  by_contra hdrew
  rw [Bool.not_eq_false] at hdrew
  cases drew_iff.mp hdrew
  exact h rfl

section

variable {w w' : World} {log : Log sig} {ros : Roster (service env) Phase}
  {i : Nat} {op : Op} {ph ph' : Phase}

/-- One action adds at most one row to the count, and only the commit of
an upload of the tenant does. -/
theorem committed_act (hc : Core env w log ros) (ho : Origin env w log ros)
    (hi : ros[i]? = some (op, some ph)) {e : Act} {r : Except Exn e.Ret}
    (hdid : Did env w op ph ⟨e, r⟩ w') (since : Option Py.DateTime) :
    committed w' ((i, ⟨e, r⟩) :: log) (ros.map Prod.fst) t since
      ≤ committed w log (ros.map Prod.fst) t since
        + if isUpload t op && settles e then 1 else 0 := by
  -- an event that draws nothing counts no further row
  have hlog : ∀ {e : Act} {r : Except Exn e.Ret}, e ≠ .uuid4 →
      committed w' ((i, ⟨e, r⟩) :: log) (ros.map Prod.fst) t since
        = committed w' log (ros.map Prod.fst) t since :=
    fun hne => committed_congr rfl fun row _ =>
      uploadRow_cons (drew_of_ne hne row.id)
  have hsame : ∀ {e : Act} {r : Except Exn e.Ret}, e ≠ .uuid4 →
      w'.db.candidates = w.db.candidates →
      committed w' ((i, ⟨e, r⟩) :: log) (ros.map Prod.fst) t since
        ≤ committed w log (ros.map Prod.fst) t since
          + if isUpload t op && settles e then 1 else 0 := by
    intro e r hne hrows
    rw [hlog hne, committed_congr hrows fun _ _ => rfl]
    exact Nat.le_add_right _ _
  cases hdid with
  | alike ha hne => exact hsame hne ha.candidates
  | job => exact hsame (by simp) rfl
  | put => exact hsame (by simp) rfl
  | publish => exact hsame (by simp) rfl
  | @draw u hu =>
      apply Nat.le_add_right_of_le
      apply Nat.le_of_eq
      apply committed_congr rfl
      intro row hrow
      apply uploadRow_cons
      by_contra hdrew
      rw [Bool.not_eq_false] at hdrew
      cases drew_iff.mp hdrew
      exact hu (hc.stores.rows row hrow).drawn
  | @insert row tab _ hins htab =>
      rw [hlog (by simp)]
      have hcount : committed (withRows w tab) log (ros.map Prod.fst) t since
          = committed w log (ros.map Prod.fst) t since
            + if inPeriod t since row
                && uploadRow log (ros.map Prod.fst) t row then 1 else 0 :=
        Relational.Table.count_insert? htab _
      rw [hcount]
      by_cases hup : uploadRow log (ros.map Prod.fst) t row = true
      · -- the identifier is this thread's own, so the thread is the upload
        obtain ⟨j, op', hissued, hop, hupload⟩ := uploadRow_iff.mp hup
        have hij := ho.alone (ho.mine hi (draws_of_owns hins.owns)) hissued
        rw [← hij, List.getElem?_map, hi] at hop
        have hopeq : op = op' := by simpa using hop
        rw [hopeq, hupload]
        simp only [settles, Bool.and_self, if_true]
        split <;> omega
      · rw [Bool.not_eq_true] at hup
        rw [hup, Bool.and_false]
        simp
  | @update k row set tab _ hk hid ht hw hop htab =>
      rw [hlog (by simp)]
      have hcount : committed (withRows w tab) log (ros.map Prod.fst) t since
          = committed w log (ros.map Prod.fst) t since :=
        Relational.Table.count_update? htab fun _ _ _ => rfl
      rw [hcount]
      exact Nat.le_add_right _ _

end

-- ================================================================= the gate

section

variable {R : Standing} {w : World} {op : Op} {g g' : Gate} {ph ph' : Phase}

/-- What a request at the gate reads is what the tenant's standing is. -/
theorem reads_move (hst : R.Holds t w) (hop : isUpload t op = true)
    (hg : R.Reads g) {e : Act} {a : e.Ans} {r : Except Exn e.Ret}
    (hr : (perform env e a w).1 = r) (hm : GateMove env op g ⟨e, r⟩ g') :
    R.Reads g' := by
  cases hm with
  | other hother =>
      obtain ⟨file, rfl⟩ := isUpload_iff.mp hop
      exact absurd rfl (hother t file)
  | @subscribed t' file sub =>
      obtain ⟨file', heq⟩ := isUpload_iff.mp hop
      cases heq
      have hfind : w.db.subscriptions.find? (fun r => r.tenantId == t) = sub :=
        (read_ok (α := Option Subscription) hr).symm
      cases R with
      | free =>
          intro s hs
          rw [hs] at hfind
          obtain ⟨hmem, ht⟩ := Relational.Table.find?_mem hfind
          exact hst s hmem (by simpa using ht)
      | paid plan quota periodEnd start =>
          obtain ⟨⟨s, hmem, ht, hmatch⟩, -⟩ := hst
          have hkey : subscriptionSchema.Key fun r => r.tenantId == t := by
            intro a b ha hb
            simp only [beq_iff_eq] at ha hb
            simp [subscriptionSchema, ha, hb]
          have hs := (w.db.subscriptions.find?_key hkey).mpr
            ⟨hmem, by simp [ht]⟩
          exact ⟨s, hfind.symm.trans hs, hmatch⟩
  | @plan t' file sub plan' hactive =>
      have hfind : w.db.plans.find? (fun r => r.id == sub.planId)
          = some plan' := (read_ok (α := Option Plan) hr).symm
      cases R with
      | free => exact absurd hactive (hg sub rfl)
      | paid plan quota periodEnd start =>
          obtain ⟨s, hs, hmatch⟩ := hg
          cases hs
          obtain ⟨-, hmem, hquota, hstart⟩ := hst
          have hkey : planSchema.Key fun r => r.id == sub.planId := by
            intro a b ha hb
            simp only [beq_iff_eq] at ha hb
            simp [planSchema, ha, hb]
          have hplan := (w.db.plans.find?_key hkey).mpr
            ⟨hmem, by simp [hmatch.2.1]⟩
          rw [hfind, Option.some.injEq] at hplan
          exact ⟨hmatch, hplan, hquota, hstart⟩
  | stay => exact hg
  | unlimited => exact hg
  | _ => trivial

/-- A request is let through by a count below the limit, taken from where
the standing says. -/
theorem admitted_below (hop : isUpload t op = true) (hg : R.Reads g)
    (hne : g ≠ .admitted) {e : Act} {a : e.Ans} {r : Except Exn e.Ret}
    (hr : (perform env e a w).1 = r)
    (hm : GateMove env op g ⟨e, r⟩ .admitted) :
    e = .countCandidates t R.since
      ∧ (used w t R.since : Int) < R.limit env := by
  cases hm with
  | other hother =>
      obtain ⟨file, rfl⟩ := isUpload_iff.mp hop
      exact absurd rfl (hother t file)
  | stay hearly => cases hearly
  | draft => exact absurd rfl hne
  | @free t' file sub n hsub hlt =>
      obtain ⟨file', heq⟩ := isUpload_iff.mp hop
      cases heq
      have hn : used w t none = n :=
        (read_ok (α := Nat) hr).symm
      cases R with
      | free => exact ⟨rfl, hn ▸ hlt⟩
      | paid plan quota periodEnd start =>
          obtain ⟨s, hs, hmatch⟩ := hg
          exact absurd hmatch.1 (hsub s hs)
  | @paid t' file sub plan' quota' start' n hactive hquota hstart hlt =>
      obtain ⟨file', heq⟩ := isUpload_iff.mp hop
      cases heq
      have hn : used w t (some start') = n :=
        (read_ok (α := Nat) hr).symm
      cases R with
      | free => exact hg.elim
      | paid plan quota periodEnd start =>
          obtain ⟨hmatch, rfl, hq, hsome⟩ := hg
          obtain ⟨window, hwin, hsub⟩ := hstart _ hmatch.2.2
          have hstarts : start' = start := by
            rw [hwin, Option.bind_some, hsub] at hsome
            exact Option.some.inj hsome
          have hquotas : quota' = quota := by
            rw [hquota] at hq
            exact Option.some.inj hq
          rw [hstarts] at hn ⊢
          exact ⟨rfl, by rw [← hquotas]; exact hn ▸ hlt⟩

/-- A move that lets no request through adds none to those in flight, and
takes away the one whose row it commits. -/
theorem pending_move (ph ph' : Phase) (hg : isUpload t op = true → R.Reads g) {e : Act}
    {r : Except Exn e.Ret} (hm : GateMove env op g ⟨e, r⟩ g')
    (hne : isUpload t op = true → g' = .admitted → g = .admitted) :
    (pendingSlot t (op, some (ph', g')) = true →
        pendingSlot t (op, some (ph, g)) = true)
      ∧ (isUpload t op = true → settles e = true →
        pendingSlot t (op, some (ph, g)) = true
          ∧ pendingSlot t (op, some (ph', g')) = false) := by
  have hgates : ∀ e, gates e = true → settles e = false := by
    intro e h
    cases e <;> first | rfl | cases h
  have hdrafts : ∀ e, drafts e = true → settles e = false := by
    intro e h
    cases e <;> first | rfl | cases h
  have hsettles : ∀ e, settles e = true → leads e = true := by
    intro e h
    cases e <;> first | rfl | cases h
  cases hm with
  | other hother =>
      refine ⟨fun h => ?_, fun h _ => ?_⟩
      · cases op with
        | uploadResume t' file => exact absurd rfl (hother t' file)
        | _ => cases h
      · obtain ⟨file, rfl⟩ := isUpload_iff.mp h
        exact absurd rfl (hother t file)
  | subscribed => exact ⟨(fun h => nomatch h), fun _ h => nomatch h⟩
  | plan => exact ⟨(fun h => nomatch h), fun _ h => nomatch h⟩
  | @free t' file sub n =>
      refine ⟨fun h => ?_, fun _ h => nomatch h⟩
      simp only [pendingSlot, Bool.and_eq_true] at h
      cases hne h.1 rfl
  | @paid t' file =>
      refine ⟨fun h => ?_, fun _ h => nomatch h⟩
      simp only [pendingSlot, Bool.and_eq_true] at h
      cases hne h.1 rfl
  | @stay t' file _ _ _ hearly hgate =>
      refine ⟨fun h => ?_, fun _ h => ?_⟩
      · cases g with
        | admitted => cases hearly
        | _ => cases h
      · rw [hgates e hgate] at h
        cases h
  | @unlimited t' file sub plan _ hactive hquota =>
      refine ⟨(fun h => nomatch h), fun h _ => ?_⟩
      have hread := hg h
      cases R with
      | free => exact hread.elim
      | paid plan' quota periodEnd start =>
          obtain ⟨-, rfl, hq, -⟩ := hread
          rw [hquota] at hq
          cases hq
  | @draft t' file _ _ hpdf hdraft =>
      refine ⟨fun h => h, fun _ h => ?_⟩
      rw [hdrafts e hdraft] at h
      cases h
  | @close t' file _ _ hpdf hlead =>
      refine ⟨(fun h => nomatch h), fun h _ => ⟨?_, rfl⟩⟩
      simp only [pendingSlot, Bool.and_eq_true]
      exact ⟨h, by simp [hpdf]⟩
  | @past t' file _ _ hlead =>
      refine ⟨(fun h => nomatch h), fun _ h => ?_⟩
      rw [hsettles e h] at hlead
      cases hlead

end

-- ==================================================================== steps

section

variable {R : Standing} {s : Sys (service env)} {w w' : World}
  {log : Log sig} {ros : Roster (service env) (Phase × Gate)} {i : Nat}
  {op : Op} {a a' : Phase × Gate}

/-- Both protocols. -/
abbrev gated (env : Env) : Protocol (service env) (Phase × Gate) :=
  (protocol env).prod (gate env)

theorem gated_conforms (env : Env) : (gated env).Conforms :=
  Protocol.Conforms.prod (conforms env) (gates_conforms env)

/-- A request in flight is one the state shows to be. -/
theorem inFlight_of_pending (htr : (gated env).Tracks s ros)
    (hi : ros[i]? = some (op, some a))
    (h : pendingSlot t (op, some a) = true) : inFlight s t i = true := by
  obtain ⟨ph, g⟩ := a
  obtain ⟨p, hp, hfol⟩ := htr.thread hi
  cases op with
  | uploadResume t' file =>
      cases g with
      | admitted =>
          simp only [pendingSlot, Bool.and_eq_true, beq_iff_eq] at h
          obtain ⟨rfl, hpdf⟩ := h
          cases p with
          | ret x => exact absurd hpdf (hfol.2 _ _ rfl rfl)
          | raise x => exact absurd hpdf (hfol.2 _ _ rfl rfl)
          | act e k =>
              obtain ⟨r, hr⟩ := exists_possible e
              obtain ⟨b, ⟨-, hm⟩, -⟩ := hfol r hr
              have hlead : leads e = true := by
                generalize b.2 = g' at hm
                cases hm with
                | other hother => exact absurd rfl (hother _ _)
                | stay hearly => cases hearly
                | close _ hlead => exact hlead
                | draft _ hdraft =>
                    cases e <;> first | rfl | cases hdraft
              unfold inFlight
              rw [op_of_thread hp, next_of_thread hp]
              simp [isUpload, hlead]
      | _ => cases h
  | _ => cases h

theorem pending_le_inFlight (htr : (gated env).Tracks s ros) :
    ros.countP (pendingSlot t)
      ≤ (List.range s.threads.length).countP (inFlight s t) := by
  have hlen : s.threads.length = ros.length := htr.length_eq
  rw [countP_indices, hlen]
  apply List.countP_mono_left
  intro i _ h
  cases hslot : ros[i]? with
  | none => simp [hslot] at h
  | some x =>
      obtain ⟨op, a⟩ := x
      have hpend : pendingSlot t (op, a) = true := by simpa [hslot] using h
      cases a with
      | none =>
          unfold pendingSlot at hpend
          split at hpend
          next heq => cases heq
          next => cases hpend
      | some a => exact inFlight_of_pending htr hslot hpend

theorem ops_set {x : Option (Phase × Gate)} (hi : ros[i]? = some (op, some a)) :
    (ros.set i (op, x)).map Prod.fst = ros.map Prod.fst := by
  apply List.ext_getElem?
  intro j
  rw [List.getElem?_map, List.getElem?_map]
  by_cases hij : j = i
  · rw [hij, roster_set_self hi, hi]
    rfl
  · rw [roster_set_ne hij]

theorem ops_left : ros.left.map Prod.fst = ros.map Prod.fst := by
  rw [Roster.left, List.map_map]
  rfl

/-- One action of a guarded run keeps the bound. -/
theorem Bounded.act (h : Bounded env R t s.world s.log ros)
    (hc : Core env s.world s.log ros.left)
    (ho : Origin env s.world s.log ros.left) (htr : (gated env).Tracks s ros)
    (hi : ros[i]? = some (op, some a)) {e : Act}
    {k : Except Exn e.Ret → Py Resp}
    (ht : s.threads[i]? = some ⟨op, some (.act e k)⟩)
    {ans : (e : Act) → e.Ans} (hok : Roomy env R t s (.act i ans))
    {r : Except Exn e.Ret} (hr : (perform env e (ans e) s.world).1 = r)
    (hm : (gated env).next op a ⟨e, r⟩ a')
    (hdid : Did env s.world op a.1 ⟨e, r⟩ w') :
    Bounded env R t w' ((i, ⟨e, r⟩) :: s.log) (ros.set i (op, some a')) := by
  obtain ⟨ph, g⟩ := a
  obtain ⟨ph', g'⟩ := a'
  have hreads : isUpload t op = true → R.Reads g := h.reads.get hi
  constructor
  · refine h.reads.set fun b hb => ?_
    cases hb
    exact fun hop => reads_move hok.standing hop (hreads hop) hr hm.2
  · have hroom := h.room
    have hcommit := committed_act (t := t) hc ho (Roster.left_get hi) hdid R.since
    have hpend := roster_countP (pendingSlot t) (op, some (ph', g')) hi
    rw [ops_left] at hcommit
    rw [ops_set hi]
    by_cases hadmit : isUpload t op = true ∧ g' = .admitted ∧ g ≠ .admitted
    · -- a COUNT lets the request through: the guard has left it room
      obtain ⟨hop, rfl, hne⟩ := hadmit
      obtain ⟨rfl, hlt⟩ := admitted_below hop (hreads hop) hne hr hm.2
      have hcounts : counts s t (.act i ans) = true := by
        simp only [counts, op_of_thread ht, next_of_thread ht]
        exact hop
      have hleft := hok.room hcounts hlt
      have hused := committed_le_used (t := t) s.world s.log (ros.map Prod.fst)
        R.since
      have hflight := pending_le_inFlight (t := t) htr
      simp only [settles, Bool.and_false] at hcommit
      split at hpend <;> split at hpend <;> simp at hcommit <;> omega
    · have hstay := pending_move ph ph' hreads hm.2
        fun hop hg' => by_contra fun hg => hadmit ⟨hop, hg', hg⟩
      by_cases hsettle : isUpload t op = true ∧ settles e = true
      · -- its own commit: one row more, one request less
        obtain ⟨hbefore, hafter⟩ := hstay.2 hsettle.1 hsettle.2
        simp only [hsettle.1, hsettle.2, Bool.and_self, if_true] at hcommit
        simp only [hbefore, hafter, if_true, Bool.false_eq_true, if_false]
          at hpend
        omega
      · have hzero : (isUpload t op && settles e) = false := by
          rw [← Bool.not_eq_true, Bool.and_eq_true]
          exact hsettle
        rw [hzero] at hcommit
        simp only [Bool.false_eq_true, if_false, Nat.add_zero] at hcommit
        by_cases hafter : pendingSlot t (op, some (ph', g')) = true
        · simp only [hafter, hstay.1 hafter, if_true] at hpend
          omega
        · simp only [hafter, Bool.false_eq_true, if_false] at hpend
          omega

end

-- ===================================================================== runs

section

variable {R : Standing} {w w' : World} {log : Log sig}
  {ros : Roster (service env) (Phase × Gate)} {i : Nat} {op : Op}

/-- What the bound is kept over. -/
def Base (env : Env) (w : World) (log : Log sig)
    (ros : Roster (service env) (Phase × Gate)) : Prop :=
  Core env w log ros.left ∧ Origin env w log ros.left

theorem base_keeps (ok : Guard (service env)) :
    (gated env).Keeps ok (Base env) :=
  Protocol.Keeps.left ((core_keeps env ok).and (origin_keeps env ok))

/-- A row comes from the thread that drew its identifier, whoever arrives
later. -/
theorem committed_spawn (ho : Origin env w log ros.left)
    (since : Option Py.DateTime) :
    committed w log (ros.map Prod.fst ++ [op]) t since
      = committed w log (ros.map Prod.fst) t since := by
  refine committed_congr rfl fun r _ => ?_
  rw [Bool.eq_iff_iff, uploadRow_iff, uploadRow_iff]
  constructor
  · rintro ⟨j, op', hissued, hop, hup⟩
    have hlt := ho.within hissued
    rw [Roster.left, List.length_map] at hlt
    rw [List.getElem?_append_left (by simpa using hlt)] at hop
    exact ⟨j, op', hissued, hop, hup⟩
  · rintro ⟨j, op', hissued, hop, hup⟩
    exact ⟨j, op', hissued, roster_append_old hop, hup⟩

/-- A slot of a request that died or starts over is not in flight. -/
theorem Bounded.release (h : Bounded env R t w log ros)
    {a : Phase × Gate} (hi : ros[i]? = some (op, some a))
    {x : Option (Phase × Gate)}
    (hx : x = none ∨ x = some (.idle, .waiting)) :
    Bounded env R t w log (ros.set i (op, x)) := by
  constructor
  · refine h.reads.set fun b hb _ => ?_
    rcases hx with rfl | rfl
    · cases hb
    · cases hb
      trivial
  · have hpend := roster_countP (pendingSlot t) (op, x) hi
    have hnot : pendingSlot t (op, x) = false := by
      rcases hx with rfl | rfl <;> cases op <;> rfl
    have hroom := h.room
    rw [hnot] at hpend
    rw [ops_set hi]
    split at hpend <;> simp at hpend <;> omega

theorem bounded_keeps (R : Standing) (t : UUID) :
    (gated env).KeepsWith (Roomy env R t) (Base env) (Bounded env R t) where
  spawn op hb h := by
    refine ⟨h.reads.append fun a ha _ => ?_, ?_⟩
    · cases ha
      trivial
    · have hnot : pendingSlot t (op, some ((gated env).start op)) = false := by
        cases op <;> rfl
      have hroom := h.room
      rw [List.map_append, List.countP_append, List.countP_singleton, hnot]
      rw [show List.map Prod.fst [(op, some ((gated env).start op))] = [op]
        from rfl, committed_spawn hb.2]
      simpa using hroom
  act ans htr hb h hi ht hadm hok hm :=
    h.act hb.1 hb.2 htr hi ht hok rfl hm
      (hb.1.did (Roster.left_get hi) hadm rfl hm.1)
  crash _ _ h hi _ _ := h.release hi (.inl rfl)
  restart _ h hi _ _ := h.release hi (.inr rfl)
  env k hb h hk := by
    refine ⟨h.reads, ?_⟩
    rw [committed_congr (move_alike hk).candidates fun _ _ => rfl]
    exact h.room

-- ================================================================ the result

/-- No upload of the tenant is under way. -/
def Idle (s : Sys (service env)) (t : UUID) : Prop :=
  ∀ i file, s.op? i = some (.uploadResume t file) → s.next? i = none

/-- The slot of a thread that is past the gate, if it is an upload of the
tenant. -/
def shut (t : UUID) (slot : Op × Option (Phase × Gate)) :
    Op × Option (Phase × Gate) :=
  (slot.1, slot.2.map fun a => (a.1, if isUpload t slot.1 then .closed else a.2))

theorem tracks_shut {s : Sys (service env)} (htr : (gated env).Tracks s ros)
    (hidle : Idle s t) : (gated env).Tracks s (ros.map (shut t)) := by
  refine List.forall₂_map_right_iff.mpr (List.forall₂_iff_get.mpr
    ⟨htr.length_eq, fun i hi hi' => ?_⟩)
  have hin := (List.forall₂_iff_get.mp htr).2 i hi hi'
  have hget : s.threads[i]? = some (s.threads.get ⟨i, hi⟩) :=
    List.getElem?_eq_getElem hi
  revert hin hget
  generalize s.threads.get ⟨i, hi⟩ = th
  generalize ros.get ⟨i, hi'⟩ = slot
  intro hin hget
  obtain ⟨op, x⟩ := slot
  obtain ⟨op', p⟩ := th
  obtain ⟨hop, hph⟩ := hin
  obtain rfl : op' = op := hop
  refine ⟨rfl, ?_⟩
  cases p with
  | none =>
      cases x with
      | none => trivial
      | some a => exact hph
  | some p =>
      cases x with
      | none => exact hph
      | some a =>
          by_cases hup : isUpload t op' = true
          · -- an upload has ended, and a closed gate is where it may end
            obtain ⟨file, rfl⟩ := isUpload_iff.mp hup
            have hnone := hidle i file (op_of_thread hget)
            cases p with
            | ret r =>
                refine ⟨hph.1, fun t' file' _ hadm => ?_⟩
                simp [hup] at hadm
            | raise r =>
                refine ⟨hph.1, fun t' file' _ hadm => ?_⟩
                simp [hup] at hadm
            | act e k =>
                rw [next_of_thread hget] at hnone
                cases hnone
          · simpa [shut, hup] using hph

theorem bounded_shut {s : Sys (service env)}
    (hle : (committed s.world s.log (ros.map Prod.fst) t R.since : Int)
      ≤ R.limit env) :
    Bounded env R t s.world s.log (ros.map (shut t)) := by
  constructor
  · refine ⟨fun {i op a} hi hop => ?_⟩
    rw [List.getElem?_map, Option.map_eq_some_iff] at hi
    obtain ⟨⟨op', x⟩, -, hslot⟩ := hi
    cases x with
    | none => cases hslot
    | some b =>
        cases hslot
        simp only [hop, if_true]
        trivial
  · have hnone : (ros.map (shut t)).countP (pendingSlot t) = 0 := by
      rw [List.countP_map, List.countP_eq_zero]
      intro slot _
      obtain ⟨op, x⟩ := slot
      cases op with
      | uploadResume t' file =>
          cases x with
          | none => simp [shut, pendingSlot]
          | some a =>
              by_cases ht : t' = t
              · simp [shut, isUpload, pendingSlot, ht]
              · obtain ⟨ph, g⟩ := a
                cases g <;> simp [shut, isUpload, pendingSlot, ht]
      | _ => cases x <;> simp [shut, pendingSlot]
    have hops : (ros.map (shut t)).map Prod.fst = ros.map Prod.fst := by
      rw [List.map_map]
      rfl
    rw [hnone, hops]
    simpa using hle

theorem ops_tracks {s : Sys (service env)} (htr : (gated env).Tracks s ros) :
    ros.map Prod.fst = operations s := by
  unfold operations
  unfold Protocol.Tracks at htr
  generalize s.threads = threads at htr
  induction htr with
  | nil => rfl
  | cons hin _ ih => rw [List.map_cons, List.map_cons, ih, ← hin.1]

/-- In every run that keeps the tenant's standing and lets a request
through only where the committed rows and the requests in flight leave it
room, the committed rows of the tenant's uploads stay within the limit. -/
theorem quota_holds {s₀ s : Sys (service env)} (h₀ : Reachable env s₀)
    (hidle : Idle s₀ t)
    (hle : (committed s₀.world s₀.log (operations s₀) t R.since : Int)
      ≤ R.limit env)
    (hrun : Run (Roomy env R t) s₀ s) :
    (committed s.world s.log (operations s) t R.since : Int)
      ≤ R.limit env := by
  obtain ⟨ros₀, htr₀, hbase₀⟩ :=
    Run.invariant (base_keeps _) (gated_conforms env)
      ⟨core_init env, origin_init env⟩ h₀
  have hleft : Roster.left (ros₀.map (shut t)) = ros₀.left := by
    unfold Roster.left
    rw [List.map_map]
    apply List.map_congr_left
    intro slot _
    obtain ⟨op, x⟩ := slot
    cases x <;> rfl
  have hstart : Base env s₀.world s₀.log (ros₀.map (shut t)) := by
    unfold Base
    rw [hleft]
    exact hbase₀
  rw [← ops_tracks htr₀] at hle
  obtain ⟨ros, htr, -, hbound⟩ :=
    Run.invariant_from ((base_keeps _).and (bounded_keeps R t))
      (gated_conforms env) hrun (tracks_shut htr₀ hidle)
      ⟨hstart, bounded_shut hle⟩
  rw [← ops_tracks htr]
  have hroom := hbound.room
  omega

/-- One upload of the free tier, alone, keeps to it. -/
theorem quota_holds_sample : ∃ s : Sys (service sampleEnv),
    Run (Roomy sampleEnv .free sampleTenant)
        (Sys.start (service sampleEnv) World.empty) s
      ∧ s.world.db.candidates.rows.length = 1
      ∧ (committed s.world s.log (operations s) sampleTenant
          Standing.free.since : Int) ≤ Standing.free.limit sampleEnv := by
  have hexec : Reaches sampleUpload
      (fun s => decide (s.world.db.candidates.rows.length = 1))
      (Roomy sampleEnv .free sampleTenant) := by
    decide +kernel
  obtain ⟨s, hrun, hp⟩ := Run.exists_of_exec hexec
  exact ⟨s, hrun, of_decide_eq_true hp,
    quota_holds .refl (fun i file h => nomatch h) (by decide) hrun⟩

/-- Two uploads of a tenant without a subscription both count before
either commits, and the free tier of one resume takes both. -/
theorem quota_exceeded : ∃ s : Sys (service sampleEnv),
    Run (fun s _ => Standing.free.Holds sampleTenant s.world)
        (Sys.start (service sampleEnv) World.empty) s
      ∧ operations s = [.uploadResume sampleTenant samplePdf,
          .uploadResume sampleTenant samplePdf]
      ∧ Standing.free.limit sampleEnv
        < (committed s.world s.log (operations s) sampleTenant none : Int) := by
  have hexec : Reaches
      (.spawn (.uploadResume sampleTenant samplePdf) :: steps 0 2
        ++ .spawn (.uploadResume sampleTenant samplePdf) :: steps 1 2
        ++ steps 0 7 ++ steps 1 7 { id := UUID.ofNat 2 })
      (fun s => decide (operations s = [.uploadResume sampleTenant samplePdf,
          .uploadResume sampleTenant samplePdf]
        ∧ Standing.free.limit sampleEnv
          < (committed s.world s.log (operations s) sampleTenant none : Int)))
      (fun s _ => Standing.free.Holds sampleTenant s.world) := by
    decide +kernel
  obtain ⟨s, hrun, hp⟩ := Run.exists_of_exec hexec
  exact ⟨s, hrun, of_decide_eq_true hp⟩

end

end ResumeScreening.Quota
