/-
The vector index agrees with Postgres — where handlings of one candidate
do not overlap, and none is cut short once the row has a vector.

Jobs agree always: a job's vector is stored before its row and neither
is written again. A candidate's row may be handled again, with another
answer of the language model: its vector is then ahead of its row from
the upsert to the final commit (`Finishing`). The agreement is lost
where another worker's upsert falls in between, or the final commit
never happens (`abandoned`); nothing in the code repairs it.
-/
import ResumeScreening.Pipeline.Vectors

namespace ResumeScreening.Pipeline

open Effect

variable {env : Env} {w w' : World} {log : Log sig}
  {ros : Roster (service env) Phase} {i : Nat} {op : Op} {ph ph' : Phase}

-- ============================================================= the condition

/-- The step stores no vector of a candidate another thread is finishing,
and abandons none whose row has a vector id. -/
structure Orderly (env : Env) (s : Sys (service env))
    (l : Label (service env)) : Prop where
  alone : ∀ c ∈ reindexed s l, ∀ j < s.threads.length, l.actor ≠ some j →
    c ∉ finishing s j
  finishes : ∀ r ∈ s.world.db.candidates.rows, r.id ∈ abandoned s l →
    r.pineconeId = none

instance (s : Sys (service env)) (l : Label (service env)) :
    Decidable (Orderly env s l) :=
  decidable_of_iff
    ((∀ c ∈ reindexed s l, ∀ j < s.threads.length, l.actor ≠ some j →
        c ∉ finishing s j)
      ∧ ∀ r ∈ s.world.db.candidates.rows, r.id ∈ abandoned s l →
        r.pineconeId = none)
    ⟨fun h => ⟨h.1, h.2⟩, fun h => ⟨h.alone, h.finishes⟩⟩

-- ============================================================= the invariant

/-- A vector with this id and these values is in the namespace. -/
def Holds (w : World) (ns vid : String) (values : List Rat) : Prop :=
  ∃ v, w.pinecone ns vid = some v ∧ v.id = vid ∧ v.values = values

/-- The candidate's vector is the embedding of its row. -/
def InIndex (env : Env) (w : World) (r : Candidate) : Prop :=
  Holds w r.tenantId.str (candidateVectorId r.id.str)
    (env.embed (buildCandidateEmbedText r))

def JobInIndex (env : Env) (w : World) (j : Job) : Prop :=
  Holds w j.tenantId.str (jobVectorId j.id.str)
    (env.embed (buildJobEmbedText j))

/-- What the index holds for a thread that has its commit to do. -/
def HeldFor (env : Env) (w : World) : Phase → Prop
  | .stored row => InIndex env w row
  | .storedJob row => JobInIndex env w row
  | .indexing k row text p =>
      Holds w k.tenantId.str (candidateVectorId row.id.str)
        (env.embed (buildCandidateEmbedText (filled row p text)))
  | _ => True

structure Indexed (env : Env) (w : World)
    (ros : Roster (service env) Phase) : Prop where
  rows : ∀ r ∈ w.db.candidates.rows, r.pineconeId ≠ none →
    InIndex env w r ∨ Finishing ros r.id
  jobs : ∀ j ∈ w.db.jobs.rows, JobInIndex env w j
  held : Slots (fun (_ : Op) (ph : Phase) => HeldFor env w ph) ros

section Step

variable {s : Sys (service env)} {e : Act} {k : Except Exn e.Ret → Py Resp}
  {ans : (e : Act) → e.Ans} {r : Except Exn e.Ret} {k' : Task}
  {row : Candidate} {text : String} {p : ParsedResume}

/-- A vector stays, unless the step stores another under its id. -/
theorem holds_step (ht : s.threads[i]? = some ⟨op, some (.act e k)⟩)
    (hr : (perform env e (ans e) s.world).1 = r)
    (hm : Move env op ph ⟨e, r⟩ ph') {ns vid : String} {values : List Rat}
    (h : Holds s.world ns vid values) :
    Holds (perform env e (ans e) s.world).2 ns vid values
      ∨ ∃ v, Upserts env s (.act i ans) ph' op ph ns v ∧ v.id = vid := by
  obtain ⟨v, hv, hid, hvalues⟩ := h
  rcases index_step ht hr hm with hsame | ⟨ns₀, v₀, hups, hset⟩
  · exact .inl ⟨v, by rw [hsame]; exact hv, hid, hvalues⟩
  · by_cases hkey : ns = ns₀ ∧ vid = v₀.id
    · obtain ⟨rfl, rfl⟩ := hkey
      exact .inr ⟨v₀, hups, rfl⟩
    · refine .inl ⟨v, ?_, hid, hvalues⟩
      rw [hset, setAt, if_neg hkey]
      exact hv

/-- The vector of a candidate whose row is committed is stored only by a
handling of it. -/
theorem handled_of_upserts {l : Label (service env)} {ns : String}
    {v : VectorRecord} {c : UUID} (hc : Core env s.world s.log ros)
    (hi : ros[i]? = some (op, some ph)) (hups : Upserts env s l ph' op ph ns v)
    (hid : v.id = candidateVectorId c.str)
    (hrow : ∃ r ∈ s.world.db.candidates.rows, r.id = c) :
    c ∈ reindexed s l ∧ ∃ k row text p, row.id = c
      ∧ (ph' = .indexing k row text p ∨ c ∈ abandoned s l) := by
  cases hups with
  | @created t payload row =>
      have hsame : row.id = c := candidateVectorId_injective hid
      obtain ⟨r, hr, hrid⟩ := hrow
      have howned := hc.threads.owned hi (rfl : Phase.owns _ = some row.id)
      exact absurd (hrid.trans hsame.symm) (howned.candidate rfl r hr)
  | job => exact absurd hid.symm (candidateVectorId_ne_jobVectorId _ _)
  | @handled k row text p hre hcase =>
      have hsame : row.id = c := candidateVectorId_injective hid
      subst hsame
      exact ⟨hre, k, row, text, p, rfl, hcase⟩

/-- The vector of a row is that of the row, or its thread goes on to the
final commit. -/
theorem inIndex_step (hok : Orderly env s (.act i ans))
    (hc : Core env s.world s.log ros) (hi : ros[i]? = some (op, some ph))
    (ht : s.threads[i]? = some ⟨op, some (.act e k)⟩)
    (hr : (perform env e (ans e) s.world).1 = r)
    (hm : Move env op ph ⟨e, r⟩ ph') {r₀ : Candidate}
    (hr₀ : r₀ ∈ s.world.db.candidates.rows) (hset : r₀.pineconeId ≠ none)
    (h : InIndex env s.world r₀) :
    InIndex env (perform env e (ans e) s.world).2 r₀
      ∨ Finishing (ros.set i (op, some ph')) r₀.id := by
  rcases holds_step ht hr hm h with hstay | ⟨v, hups, hid⟩
  · exact .inl hstay
  · obtain ⟨-, k', row, text, p, hrow, hcase⟩ :=
      handled_of_upserts hc hi hups hid ⟨r₀, hr₀, rfl⟩
    rcases hcase with hnow | hab
    · refine .inr ⟨i, op, k', row, text, p, ?_, hrow⟩
      rw [roster_set_self hi, hnow]
    · exact absurd (hok.finishes r₀ hr₀ hab) hset

theorem jobInIndex_step (ht : s.threads[i]? = some ⟨op, some (.act e k)⟩)
    (hr : (perform env e (ans e) s.world).1 = r)
    (hm : Move env op ph ⟨e, r⟩ ph') {job : Job}
    (hfree : ∀ row, ph = .draftedJob row → row.id ≠ job.id)
    (h : JobInIndex env s.world job) :
    JobInIndex env (perform env e (ans e) s.world).2 job := by
  rcases holds_step ht hr hm h with hstay | ⟨v, hups, hid⟩
  · exact hstay
  · generalize job.tenantId.str = ns at hups
    cases hups with
    | created => exact absurd hid (candidateVectorId_ne_jobVectorId _ _)
    | @job t payload row =>
        exact absurd (jobVectorId_injective hid) (hfree row rfl)
    | handled => exact absurd hid (candidateVectorId_ne_jobVectorId _ _)

/-- What is held for another thread stays: its identifier is its own, or
is being finished. -/
theorem heldFor_other (hok : Orderly env s (.act i ans))
    (htr : (protocol env).Tracks s ros) (hc : Core env s.world s.log ros)
    (hi : ros[i]? = some (op, some ph))
    (ht : s.threads[i]? = some ⟨op, some (.act e k)⟩)
    (hr : (perform env e (ans e) s.world).1 = r)
    (hm : Move env op ph ⟨e, r⟩ ph') {j : Nat} {op' : Op} {ph₁ : Phase}
    (hji : j ≠ i) (hj : ros[j]? = some (op', some ph₁))
    (h : HeldFor env s.world ph₁) :
    HeldFor env (perform env e (ans e) s.world).2 ph₁ := by
  have hslot := hc.threads.slots hi
  cases ph₁ with
  | stored row =>
      rcases holds_step ht hr hm h with hstay | ⟨v, hups, hid⟩
      · exact hstay
      · generalize row.tenantId.str = ns at hups
        cases hups with
        | @created t payload row' =>
            have hsame : row'.id = row.id := candidateVectorId_injective hid
            exact absurd (hc.threads.apart hj hi rfl (congrArg some hsame)) hji
        | job => exact absurd hid.symm (candidateVectorId_ne_jobVectorId _ _)
        | @handled k' row' text p =>
            have hsame : row'.id = row.id := candidateVectorId_injective hid
            have hown : (Phase.stored row).owns = some row.id := rfl
            have hfile := (hc.threads.owned hj hown).file
            rw [← hsame, hslot.2.1, hslot.1.file] at hfile
            cases hfile
  | storedJob row =>
      refine jobInIndex_step ht hr hm (fun row' hrow hsame => ?_) h
      subst hrow
      exact hji (hc.threads.apart hj hi rfl (congrArg some hsame))
  | indexing k' row text p =>
      obtain ⟨hk, hid', ht', -⟩ := hc.threads.slots hj
      rcases holds_step ht hr hm h with hstay | ⟨v, hups, hid⟩
      · exact hstay
      · obtain ⟨r₀, hr₀, hrid, -⟩ := hk.row
        obtain ⟨hre, -⟩ := handled_of_upserts hc hi hups hid
          ⟨r₀, hr₀, hrid.trans hid'.symm⟩
        obtain ⟨q, hq, -⟩ := htr.thread hj
        exact absurd (finishing_of_indexing htr hj)
          (hok.alone row.id hre j (List.getElem?_eq_some_iff.mp hq).1
            fun hact => hji (Option.some.inj hact).symm)
  | _ => trivial

theorem heldFor_after {α : Type} (r : Except Exn α) {yes no : Phase}
    (hyes : HeldFor env w yes) (hno : HeldFor env w no) :
    HeldFor env w (after r yes no) := by
  cases r with
  | ok v => exact hyes
  | error x => exact hno

/-- An upsert that went through holds. -/
theorem holds_upsert {ns : String} {v : VectorRecord} {a : Fate} {u : Unit}
    (hr : (perform env (.upsert ns v) a w).1 = .ok u) :
    Holds (perform env (.upsert ns v) a w).2 ns v.id v.values := by
  have hw : (perform env (.upsert ns v) a w).2 = _ := write_ok hr
  rw [hw]
  refine ⟨v, ?_, rfl, rfl⟩
  show setAt _ _ _ _ _ _ = _
  rw [setAt, if_pos ⟨rfl, rfl⟩]

/-- A thread comes to its commit by storing its vector. -/
theorem heldFor_move (hs : SlotOk env s.world s.log op ph)
    (hr : (perform env e (ans e) s.world).1 = r)
    (hm : Move env op ph ⟨e, r⟩ ph') :
    HeldFor env (perform env e (ans e) s.world).2 ph' := by
  cases hm with
  | @quiet _ ph _ _ hq hdue =>
      cases ph with
      | stored row => cases hdue
      | storedJob row => cases hdue
      | indexing k' row text p => cases hdue
      | _ => trivial
  | @store t payload row r =>
      cases r with
      | error x => trivial
      | ok u =>
          rcases hs with ⟨_, _, _, hop, -⟩ | ⟨_, _, _, hop, hrow⟩
          · cases hop
          · cases hop
            have htenant : row.tenantId = t := by rw [hrow]; rfl
            show Holds _ row.tenantId.str _ _
            rw [htenant]
            exact holds_upsert hr
  | @storeJob t payload row r =>
      cases r with
      | error x => trivial
      | ok u =>
          obtain ⟨_, _, _, hop, hrow⟩ := hs
          cases hop
          have htenant : row.tenantId = t := by rw [hrow]; rfl
          show Holds _ row.tenantId.str _ _
          rw [htenant]
          exact holds_upsert hr
  | @index k' row text p r =>
      cases r with
      | error x => trivial
      | ok u => exact holds_upsert hr
  | place => exact heldFor_after _ trivial trivial
  | keep => exact heldFor_after _ trivial trivial
  | send => exact heldFor_after _ trivial trivial
  | mark => exact heldFor_after _ trivial trivial
  | discardFile => exact heldFor_after _ trivial trivial
  | discardAnswer => exact heldFor_after _ trivial trivial
  | finish => exact heldFor_after _ trivial trivial
  | report => exact heldFor_after _ trivial trivial
  | delete hph =>
      rcases hph with rfl | rfl <;> exact heldFor_after _ trivial trivial
  | _ => trivial

/-- The row of a thread that was finishing has been committed with its
vector, or has no vector id. -/
theorem inIndex_finished (hok : Orderly env s (.act i ans))
    (hc : Core env s.world s.log ros)
    (hi : ros[i]? = some (op, some (.indexing k' row text p)))
    (ht : s.threads[i]? = some ⟨op, some (.act e k)⟩)
    (hw : (perform env e (ans e) s.world).2 = w')
    (hm : Move env op (.indexing k' row text p) ⟨e, r⟩ ph')
    (h : HeldFor env s.world (.indexing k' row text p)) {r' : Candidate}
    (hr' : r' ∈ w'.db.candidates.rows) (hid : r'.id = row.id)
    (hset : r'.pineconeId ≠ none) : InIndex env w' r' := by
  obtain ⟨hk, hrow, -⟩ := hc.threads.slots hi
  obtain rfl : e = .commit [indexWrite row p text] := act_of_due rfl hm
  rcases finish_cases ans (next_of_thread ht) with
    ⟨hab, hsame⟩ | ⟨tab, htab, hcommit⟩
  · obtain rfl : s.world = w' := hsame.symm.trans hw
    exact absurd (hok.finishes r' hr' (hid ▸ hab)) hset
  · obtain rfl : withRows s.world tab = w' := hcommit.symm.trans hw
    obtain ⟨r₁, hr₁, rfl⟩ := (Relational.Table.mem_update? htab).mp hr'
    by_cases hc₁ : r₁.id = row.id
    · obtain ⟨r₂, hr₂, hid₂, htenant⟩ := hk.row
      have hid : r₂.id = r₁.id := by rw [hid₂, hc₁, hrow]
      obtain rfl := candidate_unique hr₂ hr₁ hid
      rw [if_pos (by simp [hc₁])]
      show Holds _ r₂.tenantId.str (candidateVectorId r₂.id.str) _
      rw [htenant, hc₁]
      exact h
    · rw [if_neg (by simp [hc₁])] at hid
      exact absurd hid hc₁

/-- One performed action keeps the invariant. -/
theorem Indexed.act (h : Indexed env s.world ros)
    (hc : Core env s.world s.log ros) (htr : (protocol env).Tracks s ros)
    (hi : ros[i]? = some (op, some ph))
    (ht : s.threads[i]? = some ⟨op, some (.act e k)⟩)
    (hadm : admits s.world e (ans e) = true)
    (hok : Orderly env s (.act i ans))
    (hr : (perform env e (ans e) s.world).1 = r)
    (hm : Move env op ph ⟨e, r⟩ ph') :
    Indexed env (perform env e (ans e) s.world).2
      (ros.set i (op, some ph')) := by
  have hdid := hc.did hi hadm hr hm
  have hheld := h.held.get hi
  constructor
  · intro r' hr' hset
    by_cases hown : ∃ k' row text p, ph = .indexing k' row text p
        ∧ row.id = r'.id
    · obtain ⟨k', row, text, p, rfl, hrow⟩ := hown
      exact .inl (inIndex_finished hok hc hi ht rfl hm hheld hr' hrow.symm hset)
    · -- a row that has changed in its status only
      have hold : ∀ r₀ ∈ s.world.db.candidates.rows, ∀ status,
          r' = { r₀ with status := status } →
          InIndex env (perform env e (ans e) s.world).2 r'
            ∨ Finishing (ros.set i (op, some ph')) r'.id := by
        intro r₀ hr₀ status hsame
        subst hsame
        rcases h.rows r₀ hr₀ hset with hin | hfin
        · have hstep : InIndex env _ r₀ ∨ Finishing _ r₀.id :=
            inIndex_step hok hc hi ht hr hm hr₀ hset hin
          exact hstep
        · rcases hfin.set i (op, some ph') with
            hstay | ⟨op', k', row, text, p, hi', hrow⟩
          · exact .inr hstay
          · rw [hi, Option.some.injEq, Prod.mk.injEq, Option.some.injEq] at hi'
            exact absurd ⟨k', row, text, p, hi'.2, hrow⟩ hown
      generalize hw : (perform env e (ans e) s.world).2 = w' at *
      cases hdid with
      | alike ha => exact hold r' (ha.candidates ▸ hr') r'.status rfl
      | insert hins htab =>
          rcases (Relational.Table.mem_insert? htab).mp hr' with hr' | rfl
          · exact hold r' hr' r'.status rfl
          · cases hins with
            | placeholder _ hnone => exact absurd hnone hset
            | created => exact .inl hheld
      | @update k' row set tab _ _ _ _ hwrites _ htab =>
          obtain ⟨r₀, hr₀, rfl⟩ := (Relational.Table.mem_update? htab).mp hr'
          by_cases hid : r₀.id = row.id
          · rw [if_pos (by simp [hid])] at hold hown ⊢
            cases hwrites with
            | processing => exact hold r₀ hr₀ .processing rfl
            | unreadable => exact hold r₀ hr₀ .failed rfl
            | refused => exact hold r₀ hr₀ .failed rfl
            | indexed =>
                exact absurd ⟨k', row, _, _, rfl, hid.symm⟩ hown
          · rw [if_neg (by simp [hid])] at hold ⊢
            exact hold r₀ hr₀ r₀.status rfl
      | _ => exact hold r' hr' r'.status rfl
  · intro job hjob
    have hold : job ∈ s.world.db.jobs.rows →
        JobInIndex env (perform env e (ans e) s.world).2 job := by
      intro hmem
      refine jobInIndex_step ht hr hm (fun row hph hid => ?_)
        (h.jobs job hmem)
      subst hph
      exact (hc.threads.owned hi (rfl : Phase.owns _ = some row.id)).job rfl
        job hmem hid.symm
    generalize hw : (perform env e (ans e) s.world).2 = w' at *
    cases hdid with
    | alike ha => exact hold (ha.jobs ▸ hjob)
    | job hph htab =>
        rcases (Relational.Table.mem_insert? htab).mp hjob with hmem | rfl
        · exact hold hmem
        · subst hph
          exact hheld
    | _ => exact hold hjob
  · refine h.held.advance
      (fun hji hj hold => heldFor_other hok htr hc hi ht hr hm hji hj hold) ?_
    intro ph₁ hph
    cases hph
    exact heldFor_move (hc.threads.slots hi) hr hm

end Step

-- ================================================================ every run

theorem Indexed.release (h : Indexed env w ros) {x : Option Phase}
    (hx : x = none ∨ x = some .idle) (hi : ros[i]? = some (op, some ph))
    (hidle : ∀ r ∈ w.db.candidates.rows, ∀ k row text p,
      ph = .indexing k row text p → r.id = row.id → r.pineconeId = none) :
    Indexed env w (ros.set i (op, x)) := by
  refine ⟨fun r hr hset => ?_, h.jobs,
    h.held.renew (renews_set hx) fun _ => trivial⟩
  rcases h.rows r hr hset with hin | hfin
  · exact .inl hin
  · rcases hfin.set i (op, x) with
      hstay | ⟨op', k, row, text, p, hi', hrow⟩
    · exact .inr hstay
    · rw [hi, Option.some.injEq, Prod.mk.injEq, Option.some.injEq] at hi'
      exact absurd (hidle r hr k row text p hi'.2 hrow.symm) hset

theorem indexed_keeps (env : Env) :
    (protocol env).KeepsWith (Orderly env) (Core env)
      fun w _ ros => Indexed env w ros where
  spawn op _ h := by
    refine ⟨fun r hr hset => ?_, h.jobs,
      h.held.renew renews_append fun _ => trivial⟩
    exact (h.rows r hr hset).imp_right fun hfin => hfin.append
  act _ htr hc h hi ht hadm hok hm := h.act hc htr hi ht hadm hok rfl hm
  crash htr _ h hi _ hok := by
    refine h.release (.inl rfl) hi fun r hr k row text p hph hid => ?_
    subst hph
    refine hok.finishes r hr ?_
    rw [hid]
    exact finishing_of_indexing htr hi
  restart _ h hi _ hfin := by
    refine h.release (.inr rfl) hi fun r hr k row text p hph hid => ?_
    -- a pass ends with nothing due
    have hdue := Final.due hfin
    rw [hph] at hdue
    cases hdue
  env k _ h hk := by
    obtain ⟨hdb, hv, -⟩ := move_frame hk
    have hholds : ∀ {w w' : World} {ns vid : String} {values : List Rat},
        w'.pinecone = w.pinecone → Holds w ns vid values →
        Holds w' ns vid values := by
      intro w w' ns vid values hsame hold
      unfold Holds
      rw [hsame]
      exact hold
    refine ⟨fun r hr hset => ?_, fun j hj => ?_,
      h.held.mono fun op ph hold => ?_⟩
    · rw [hdb] at hr
      exact (h.rows r hr hset).imp_left (hholds hv)
    · rw [hdb] at hj
      exact hholds hv (h.jobs j hj)
    · cases ph with
      | stored row => exact hholds hv hold
      | storedJob row => exact hholds hv hold
      | indexing k row text p => exact hholds hv hold
      | _ => trivial

theorem indexed_init (env : Env) : Indexed env World.empty [] :=
  ⟨fun _ h => (nomatch h), fun _ h => (nomatch h), .nil⟩

-- ================================================================ the result

/-- The vector a row's `pinecone_id` names is the embedding of the row. -/
def Agrees (env : Env) (w : World) (tenantId : UUID)
    (pineconeId : Option String) (text : String) : Prop :=
  ∀ vid, pineconeId = some vid → ∃ v, w.pinecone tenantId.str vid = some v
    ∧ v.id = vid ∧ v.values = env.embed text

/-- In every orderly run, at every state: the index agrees with every
job row, and with every candidate row no thread is about to commit. -/
theorem index_agrees {s : Sys (service env)}
    (h : GuardedRun env (Orderly env) s) :
    (∀ r ∈ s.world.db.candidates.rows,
        (∀ j < s.threads.length, r.id ∉ finishing s j) →
        Agrees env s.world r.tenantId r.pineconeId (buildCandidateEmbedText r))
      ∧ ∀ j ∈ s.world.db.jobs.rows,
          Agrees env s.world j.tenantId j.pineconeId (buildJobEmbedText j) := by
  obtain ⟨ros, htr, hc, hix⟩ := Run.invariant
    ((core_keeps env _).and (indexed_keeps env)) (conforms env)
    ⟨core_init env, indexed_init env⟩ h
  constructor
  · intro r hr hidle vid hvid
    have hset : r.pineconeId ≠ none := by
      rw [hvid]
      exact Option.some_ne_none vid
    have hname : vid = candidateVectorId r.id.str := by
      rcases (hc.stores.rows r hr).vector with hnone | hsome
      · exact absurd hnone hset
      · rw [hvid] at hsome
        exact Option.some.inj hsome
    rcases hix.rows r hr hset with hin | hfin
    · rw [hname]
      exact hin
    · obtain ⟨j, hj, hfinishing⟩ := hfin.thread htr
      exact absurd hfinishing (hidle j hj)
  · intro j hj vid hvid
    have hname := (hc.stores.jobs j hj).2
    rw [hvid, Option.some.injEq] at hname
    rw [hname]
    exact hix.jobs j hj

/-- After one upload and its handling the index agrees. -/
theorem index_agrees_sample : ∃ (s : Sys (service sampleEnv))
    (r : Candidate), GuardedRun sampleEnv (Orderly sampleEnv) s
      ∧ r ∈ s.world.db.candidates.rows ∧ r.pineconeId.isSome = true
      ∧ Agrees sampleEnv s.world r.tenantId r.pineconeId
          (buildCandidateEmbedText r) := by
  have hexec : Reaches (sampleUpload ++ .spawn .worker :: steps 1 12)
      (fun s => decide ((∃ r ∈ s.world.db.candidates.rows,
          r.pineconeId.isSome = true)
        ∧ ∀ j < s.threads.length, finishing s j = []))
      (Orderly sampleEnv) := by
    decide +kernel
  obtain ⟨s, hrun, hp⟩ := Run.exists_of_exec hexec
  obtain ⟨⟨r, hr, hset⟩, hidle⟩ := of_decide_eq_true hp
  refine ⟨s, r, hrun, hr, hset, (index_agrees hrun).1 r hr fun j hj hin => ?_⟩
  rw [hidle j hj] at hin
  cases hin

/-- A handled upload is delivered again, its worker having died before
the delete. The second answer is stored as the candidate's vector; the
commit that goes with it fails. -/
def secondAnswer : List (Label (service sampleEnv)) :=
  sampleUpload ++ .spawn .worker :: steps 1 10
    ++ [.crash 1, .env (.visibilityPasses 0)]
    ++ .spawn .worker :: steps 2 7 { parsed := .ok { fullName := "Bob" } }
    ++ steps 2 1 { commit := .failed "down" } ++ steps 2 1

/-- Without the condition the index and the row part, with nothing left
running. -/
theorem index_disagrees : ∃ (s : Sys (service sampleEnv)) (r : Candidate),
    Reachable sampleEnv s ∧ (∀ j < s.threads.length, s.next? j = none)
      ∧ r ∈ s.world.db.candidates.rows
      ∧ ¬ Agrees sampleEnv s.world r.tenantId r.pineconeId
          (buildCandidateEmbedText r) := by
  have hexec : Reaches secondAnswer fun s =>
      decide ((∀ j < s.threads.length, s.next? j = none)
        ∧ ∃ r ∈ s.world.db.candidates.rows, ∃ vid ∈ r.pineconeId,
          ∃ v ∈ s.world.pinecone r.tenantId.str vid,
            v.values ≠ sampleEnv.embed (buildCandidateEmbedText r)) := by
    decide +kernel
  obtain ⟨s, hrun, hp⟩ := Run.exists_of_exec hexec
  obtain ⟨hidle, r, hr, vid, hvid, v, hv, hne⟩ := of_decide_eq_true hp
  refine ⟨s, r, hrun, hidle, hr, fun hagrees => ?_⟩
  obtain ⟨v', hv', -, hvalues⟩ := hagrees vid hvid
  rw [Option.mem_def.mp hv, Option.some.injEq] at hv'
  rw [← hv'] at hvalues
  exact hne hvalues

end ResumeScreening.Pipeline
