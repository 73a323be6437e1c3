/-
Ranking only sees finished candidates — where every stored vector has
been followed by its commit.

`rank_candidates_for_job` trusts the index: whatever row a stored vector
leads to, it hands to `RankedCandidate`, which insists on a name. A
vector leads to an unfinished row in two ways: the step after the upsert
never happened (`abandoned`), or a finished row was taken back
(`unsettles`); and while a worker is between the two it does so for a
moment (`finishing`). In a run without the first two (`Covers`), at a
state without the third, ranking cannot meet such a row.
-/
import ResumeScreening.Pipeline.Settled
import ResumeScreening.Pipeline.Vectors

namespace ResumeScreening.Pipeline

open Effect

variable {env : Env} {w w' : World} {log : Log sig}
  {ros : Roster (service env) Phase} {i : Nat} {op : Op} {ph ph' : Phase}

-- ============================================================= the condition

/-- The step takes no processed row back, and leaves no unprocessed row
behind with its vector stored. -/
structure Covers (env : Env) (s : Sys (service env))
    (l : Label (service env)) : Prop where
  keeps : ∀ r ∈ s.world.db.candidates.rows, r.status = .processed →
    ∀ x ∈ commits s l, unsettles r.id x = false
  finishes : ∀ r ∈ s.world.db.candidates.rows, r.id ∈ abandoned s l →
    r.status = .processed

instance (s : Sys (service env)) (l : Label (service env)) :
    Decidable (Covers env s l) :=
  decidable_of_iff
    ((∀ r ∈ s.world.db.candidates.rows, r.status = .processed →
        ∀ x ∈ commits s l, unsettles r.id x = false)
      ∧ ∀ r ∈ s.world.db.candidates.rows, r.id ∈ abandoned s l →
        r.status = .processed)
    ⟨fun h => ⟨h.1, h.2⟩, fun h => ⟨h.keeps, h.finishes⟩⟩

-- ============================================================= the invariant

/-- A row with a vector in the index is processed, or a thread has its
final commit to do; a row still to be placed has no vector. -/
structure Covered (env : Env) (w : World)
    (ros : Roster (service env) Phase) : Prop where
  rows : ∀ ns c v, w.pinecone ns (candidateVectorId c.str) = some v →
    ∀ r ∈ w.db.candidates.rows, r.id = c →
      r.status = .processed ∨ Finishing ros c
  blank : Slots (fun (op : Op) (ph : Phase) => ∀ t file,
    op = .uploadResume t file → ∀ c, ph.owns = some c →
      ∀ ns, w.pinecone ns (candidateVectorId c.str) = none) ros

section Step

variable {s : Sys (service env)} {e : Act} {k : Except Exn e.Ret → Py Resp}
  {ans : (e : Act) → e.Ans} {r : Except Exn e.Ret}

/-- One step keeps a processed row processed. -/
theorem Covers.processed (hok : Covers env s (.act i ans))
    (ht : s.threads[i]? = some ⟨op, some (.act e k)⟩)
    (hw : (perform env e (ans e) s.world).2 = w')
    (hdid : Did env s.world op ph ⟨e, r⟩ w') {r₀ : Candidate}
    (hr₀ : r₀ ∈ s.world.db.candidates.rows) (hs : r₀.status = .processed)
    {r' : Candidate} (hr' : r' ∈ w'.db.candidates.rows)
    (hid : r'.id = r₀.id) : r'.status = .processed := by
  obtain ⟨r₁, hr₁, hid₁, hstatus⟩ := status_step ht hw hdid hr₀
  obtain rfl := candidate_unique hr₁ hr' (hid₁.trans hid.symm)
  rcases hstatus with hold | ⟨status, ⟨x, hx, hset⟩, hstatus, hkind⟩
  · exact hold.trans hs
  · have hharm := hok.keeps r₀ hr₀ hs x hx
    exact hstatus.trans (harmless_status hharm hset hkind)

/-- A row of the new world had its identifier before, or is the one just
inserted. -/
theorem row_origin (hdid : Did env s.world op ph ⟨e, r⟩ w')
    {r' : Candidate} (hr' : r' ∈ w'.db.candidates.rows) :
    (∃ r₀ ∈ s.world.db.candidates.rows, r₀.id = r'.id)
      ∨ Inserts op ph r' ∧ e = .commit [.insertCandidate r'] := by
  cases hdid with
  | alike ha => exact .inl ⟨r', ha.candidates ▸ hr', rfl⟩
  | insert hins htab =>
      rcases (Relational.Table.mem_insert? htab).mp hr' with hold | rfl
      · exact .inl ⟨r', hold, rfl⟩
      · exact .inr ⟨hins, rfl⟩
  | update _ _ _ _ _ htab =>
      obtain ⟨r₀, hr₀, rfl⟩ := (Relational.Table.mem_update? htab).mp hr'
      refine .inl ⟨r₀, hr₀, ?_⟩
      split <;> rfl
  | _ => exact .inl ⟨r', hr', rfl⟩

/-- A thread that had its final commit to do has done it, or its row was
processed before. -/
theorem Covers.finished (hok : Covers env s (.act i ans))
    (ht : s.threads[i]? = some ⟨op, some (.act e k)⟩)
    (hw : (perform env e (ans e) s.world).2 = w')
    (hdid : Did env s.world op ph ⟨e, r⟩ w')
    (hm : Move env op ph ⟨e, r⟩ ph') {k' : Task} {row : Candidate}
    {text : String} {p : ParsedResume} (hph : ph = .indexing k' row text p)
    {r₀ : Candidate} (hr₀ : r₀ ∈ s.world.db.candidates.rows)
    (hid : r₀.id = row.id) {r' : Candidate}
    (hr' : r' ∈ w'.db.candidates.rows) (hid' : r'.id = r₀.id) :
    r'.status = .processed := by
  subst hph
  obtain rfl : e = .commit [indexWrite row p text] := act_of_due rfl hm
  rcases finish_cases ans (next_of_thread ht) with
    ⟨hab, -⟩ | ⟨tab, htab, hcommit⟩
  · exact hok.processed ht hw hdid hr₀
      (hok.finishes r₀ hr₀ (hid ▸ hab)) hr' hid'
  · obtain rfl : withRows s.world tab = w' := hcommit.symm.trans hw
    obtain ⟨r₁, -, rfl⟩ := (Relational.Table.mem_update? htab).mp hr'
    by_cases hrow : r₁.id = row.id
    · rw [if_pos (by simp [hrow])]
      rfl
    · rw [if_neg (by simp [hrow])] at hid'
      exact absurd (hid'.trans hid) hrow

/-- A stored vector was stored before, or belongs to the row this thread
has just indexed. -/
theorem vector_origin (ht : s.threads[i]? = some ⟨op, some (.act e k)⟩)
    (hr : (perform env e (ans e) s.world).1 = r)
    (hm : Move env op ph ⟨e, r⟩ ph') {ns : String} {c : UUID}
    {v : VectorRecord} (hv : (perform env e (ans e) s.world).2.pinecone ns
      (candidateVectorId c.str) = some v) :
    s.world.pinecone ns (candidateVectorId c.str) = some v
      ∨ (∃ t payload row, op = .createCandidate t payload
        ∧ ph = .drafted row ∧ row.id = c)
      ∨ ∃ k row text p, ph = .parsed k row text p ∧ row.id = c
        ∧ (ph' = .indexing k row text p ∨ c ∈ abandoned s (.act i ans)) := by
  rcases index_step ht hr hm with hsame | ⟨ns₀, v₀, hups, hset⟩
  · exact .inl (hsame ▸ hv)
  · rw [hset, setAt] at hv
    split at hv
    next hkey =>
      cases hups with
      | @created t payload row =>
          exact .inr (.inl ⟨t, payload, row, rfl, rfl,
            (candidateVectorId_injective hkey.2).symm⟩)
      | job => exact absurd hkey.2 (candidateVectorId_ne_jobVectorId _ _)
      | @handled k' row text p _ hcase =>
          have hid : row.id = c := (candidateVectorId_injective hkey.2).symm
          exact .inr (.inr ⟨k', row, text, p, rfl, hid, hid ▸ hcase⟩)
    next => exact .inl hv

/-- An upload owns what it owned, or has just drawn it. -/
theorem owns_upload {t : UUID} {file : UploadFile} {c : UUID}
    (hm : Move env (.uploadResume t file) ph ⟨e, r⟩ ph')
    (h : ph'.owns = some c) :
    ph.owns = some c ∨ (⟨e, r⟩ : Event sig) = ⟨.uuid4, .ok c⟩ := by
  cases hm with
  | quiet => exact .inl h
  | draw =>
      cases h
      exact .inr rfl
  | draft => exact .inl h
  | place =>
      rcases after_view Phase.owns h with ⟨h, -⟩ | h
      · exact .inl h
      · cases h
  | keep => exact after_elim Phase.owns h rfl rfl
  | send => exact after_elim Phase.owns h rfl rfl

/-- One performed action keeps the invariant. -/
theorem Covered.act (h : Covered env s.world ros) (hshape : Shaped env s.world)
    (hc : Core env s.world s.log ros) (hi : ros[i]? = some (op, some ph))
    (ht : s.threads[i]? = some ⟨op, some (.act e k)⟩)
    (hadm : admits s.world e (ans e) = true)
    (hok : Covers env s (.act i ans))
    (hr : (perform env e (ans e) s.world).1 = r)
    (hm : Move env op ph ⟨e, r⟩ ph') :
    Covered env (perform env e (ans e) s.world).2
      (ros.set i (op, some ph')) := by
  have hdid := hc.did hi hadm hr hm
  have howned := fun {id : UUID} (hown : ph.owns = some id) =>
    hc.threads.owned hi hown
  constructor
  · intro ns c v hv r' hr' hid
    have hold : ∀ r₀ ∈ s.world.db.candidates.rows, r₀.id = r'.id →
        (r₀.status = .processed ∨ Finishing ros c) →
        r'.status = .processed ∨ Finishing (ros.set i (op, some ph')) c := by
      intro r₀ hr₀ hid₀ hcase
      rcases hcase with hs | hfin
      · exact .inl (hok.processed ht rfl hdid hr₀ hs hr' hid₀.symm)
      · rcases hfin.set i (op, some ph') with
          hstay | ⟨op', k', row, text, p, hi', hrow⟩
        · exact .inr hstay
        · rw [hi, Option.some.injEq, Prod.mk.injEq, Option.some.injEq] at hi'
          exact .inl (hok.finished ht rfl hdid hm hi'.2 hr₀
            (hid₀.trans (hid.trans hrow.symm)) hr' hid₀.symm)
    rcases row_origin hdid hr' with ⟨r₀, hr₀, hid₀⟩ | ⟨hins, rfl⟩
    · rcases vector_origin ht hr hm hv with
        hstored | ⟨t, payload, row, hop, hph, hrow⟩
          | ⟨k', row, text, p, hph, hrow, hcase⟩
      · exact hold r₀ hr₀ hid₀ (h.rows ns c v hstored r₀ hr₀ (hid₀.trans hid))
      · have hown : ph.owns = some c := by rw [hph, ← hrow]; rfl
        refine absurd (hid₀.trans hid) ((howned hown).candidate ?_ r₀ hr₀)
        rw [hph]
        rfl
      · rcases hcase with hnow | hab
        · refine .inr ⟨i, op, k', row, text, p, ?_, hrow⟩
          rw [roster_set_self hi, hnow]
        · refine hold r₀ hr₀ hid₀ (.inl (hok.finishes r₀ hr₀ ?_))
          rw [hid₀, hid]
          exact hab
    · cases hins with
      | created hs => exact .inl hs
      | @placeholder t file row _ hs =>
          have hnone := h.blank.get hi t file rfl r'.id rfl ns
          rw [hid] at hnone
          have hsame : (perform env (.commit [.insertCandidate r'])
              (ans (.commit [.insertCandidate r'])) s.world).2.pinecone
              = s.world.pinecone := by
            rcases pinecone_step env (.commit [.insertCandidate r'])
              ans s.world with hsame | ⟨ns₀, v₀, he, -⟩
            · exact hsame
            · cases he
          rw [hsame, hnone] at hv
          cases hv
  · refine h.blank.advance ?_ ?_
    · intro j op' ph₁ hji hj hold t file hop c hown ns
      cases hv : (perform env e (ans e) s.world).2.pinecone ns
        (candidateVectorId c.str) with
      | none => rfl
      | some v =>
          exfalso
          rcases vector_origin ht hr hm hv with
            hstored | ⟨t', payload, row, -, hph, hrow⟩
              | ⟨k', row, text, p, hph, hrow, -⟩
          · rw [hold t file hop c hown ns] at hstored
            cases hstored
          · exact hji (hc.threads.apart hj hi hown (by rw [hph, ← hrow]; rfl))
          · subst hph
            obtain ⟨hk, hid, -⟩ := hc.threads.slots hi
            have hfile := (hc.threads.owned hj hown).file
            rw [← hrow, hid, hk.file] at hfile
            cases hfile
    · intro ph₁ hph t file hop c hown ns
      cases hph
      subst hop
      cases hv : (perform env e (ans e) s.world).2.pinecone ns
        (candidateVectorId c.str) with
      | none => rfl
      | some v =>
          exfalso
          rcases vector_origin ht hr hm hv with
            hstored | ⟨t', payload, row, hop, -⟩
              | ⟨k', row, text, p, hph, -⟩
          · rcases owns_upload hm hown with hold | hev
            · rw [h.blank.get hi t file rfl c hold ns] at hstored
              cases hstored
            · cases hev
              have hfresh : c ∉ s.world.usedIds := by
                have hc' : (ans .uuid4 : UUID) = c := Except.ok.inj hr
                rw [← hc']
                simpa [admits] using hadm
              exact hfresh (hshape.candidate hstored)
          · cases hop
          · subst hph
            cases hm with
            | quiet hq => cases hown

end Step

-- ================================================================ every run

theorem Covered.release (h : Covered env w ros) {x : Option Phase}
    (hx : x = none ∨ x = some .idle)
    (hidle : ∀ r ∈ w.db.candidates.rows, ∀ k row text p,
      ros[i]? = some (op, some (.indexing k row text p)) → r.id = row.id →
        r.status = .processed) (hi : ∃ ph, ros[i]? = some (op, some ph)) :
    Covered env w (ros.set i (op, x)) := by
  obtain ⟨ph, hi⟩ := hi
  refine ⟨fun ns c v hv r hr hid => ?_,
    h.blank.renew (renews_set hx) fun _ t file _ c hown => ?_⟩
  · rcases h.rows ns c v hv r hr hid with hs | hfin
    · exact .inl hs
    · rcases hfin.set i (op, x) with
        hstay | ⟨op', k, row, text, p, hi', hrow⟩
      · exact .inr hstay
      · rw [hi, Option.some.injEq, Prod.mk.injEq] at hi'
        rw [← hi'.1] at hi'
        exact .inl (hidle r hr k row text p (hi.trans (by rw [hi'.2]))
          (hid.trans hrow.symm))
  · cases hown

theorem covered_keeps (env : Env) :
    (protocol env).KeepsWith (Covers env)
      (fun w log ros => Core env w log ros ∧ Shaped env w)
      fun w _ ros => Covered env w ros where
  spawn op _ h := by
    refine ⟨fun ns c v hv r hr hid => ?_,
      h.blank.renew renews_append fun _ t file _ c hown => ?_⟩
    · exact (h.rows ns c v hv r hr hid).imp_right fun hfin => hfin.append
    · cases hown
  act _ _ hI h hi ht hadm hok hm := h.act hI.2 hI.1 hi ht hadm hok rfl hm
  crash htr _ h hi _ hok := by
    refine h.release (.inl rfl) (fun r hr k row text p hrow hid => ?_)
      ⟨_, hi⟩
    refine hok.finishes r hr ?_
    rw [hid]
    exact finishing_of_indexing htr hrow
  restart hI h hi _ hfin := by
    refine h.release (.inr rfl) (fun r hr k row text p hrow hid => ?_)
      ⟨_, hi⟩
    -- a pass ends with nothing due
    rw [hi, Option.some.injEq, Prod.mk.injEq, Option.some.injEq] at hrow
    have hdue := Final.due hfin
    rw [hrow.2] at hdue
    cases hdue
  env k _ h hk := by
    obtain ⟨hdb, hv, -⟩ := move_frame hk
    refine ⟨fun ns c v hvec r hr hid => ?_,
      h.blank.mono fun op ph hold t file hop c hown ns => ?_⟩
    · rw [hv] at hvec
      rw [hdb] at hr
      exact h.rows ns c v hvec r hr hid
    · rw [hv]
      exact hold t file hop c hown ns

theorem covered_init (env : Env) : Covered env World.empty [] :=
  ⟨fun _ _ _ h => (nomatch h), .nil⟩

-- ================================================================== resolving

/-- A candidate's vector in a namespace, naming this candidate. -/
def StoredCandidate (w : World) (ns text : String) : Prop :=
  ∃ vid v, w.pinecone ns vid = some v
    ∧ v.metadata.lookup "type" = some "candidate"
    ∧ v.metadata.lookup "candidate_id" = some text

/-- Such a vector is under the candidate's own id. -/
theorem StoredCandidate.vector {ns text : String} (hshape : Shaped env w)
    (h : StoredCandidate w ns text) : ∃ c : UUID, text = c.str
      ∧ ∃ v, w.pinecone ns (candidateVectorId c.str) = some v := by
  obtain ⟨vid, v, hv, htype, hid⟩ := h
  rcases hshape ns vid v hv with ⟨row, hvid, rfl, -⟩ | ⟨job, -, rfl⟩
  · have h₁ : ("candidate_id" == "full_name") = false := by decide
    have h₂ : ("candidate_id" == "type") = false := by decide
    refine ⟨row.id, ?_, _, hvid ▸ hv⟩
    simpa [vectorOf, candidateVector, List.lookup_cons, h₁, h₂] using hid.symm
  · have h₁ : ("type" == "title") = false := by decide
    have h₂ : ("type" == "company") = false := by decide
    simp [jobVectorOf, jobVector, List.lookup_cons, h₁, h₂] at htype

/-- What a list of matches resolves to are rows of the tenant that the
matches name. -/
theorem resolve_found {O : Oracle (machine env)} {t : UUID}
    {ms : List VectorMatch} : ∀ {n : Nat} {rs : List (Candidate × Rat)},
      ((resolve t ms).run O n w).1 = some (.ok rs) → ∀ x ∈ rs,
        ∃ m ∈ ms, ∃ text, m.candidateId = some text
          ∧ UUID.parse text = some x.1.id
          ∧ x.1 ∈ w.db.candidates.rows ∧ x.1.tenantId = t := by
  induction ms with
  | nil =>
      intro n rs h x hx
      cases h
      cases hx
  | cons m ms ih =>
      intro n rs h x hx
      have hrest : ∀ {n' : Nat} {rs' : List (Candidate × Rat)},
          ((resolve t ms).run O n' w).1 = some (.ok rs') → x ∈ rs' →
          ∃ m' ∈ m :: ms, ∃ text, m'.candidateId = some text
            ∧ UUID.parse text = some x.1.id
            ∧ x.1 ∈ w.db.candidates.rows ∧ x.1.tenantId = t := by
        intro n' rs' h' hx'
        obtain ⟨m', hm', hfound⟩ := ih h' x hx'
        exact ⟨m', List.mem_cons_of_mem _ hm', hfound⟩
      unfold resolve at h
      cases htext : Py.optTruthy m.candidateId with
      | none =>
          simp only [htext] at h
          exact hrest h hx
      | some text =>
          simp only [htext] at h
          have hname : m.candidateId = some text := Py.optTruthy_some htext
          cases hparse : UUID.parse text with
          | none =>
              simp only [uuid, hparse] at h
              cases h
          | some c =>
              simp only [uuid, hparse] at h
              have hread : (((CandidateRepository.getById t c).bind _).run O n
                w).1 = some (.ok rs) := h
              obtain ⟨o, n', ho, h'⟩ := Prog.run_bind_ok hread
              obtain ⟨a, hr, hw⟩ := Prog.run_perform_ok ho
              have hsame : ((CandidateRepository.getById t c).run O n w).2 = w :=
                hw.trans (read_snd a _)
              rw [hsame] at h'
              cases o with
              | none => exact hrest h' hx
              | some row =>
                  have hfound : (perform env (.selectCandidate t c) a w).1
                    = .ok (some row) := hr
                  obtain ⟨hmem, hid, htenant⟩ := selectCandidate_ok hfound
                  obtain ⟨rest, n'', hrun, h''⟩ := Prog.run_bind_ok h'
                  cases h''
                  rcases List.mem_cons.mp hx with rfl | hx
                  · exact ⟨m, List.mem_cons_self .., text, hname,
                      by rw [hparse, hid], hmem, htenant⟩
                  · exact hrest hrun hx

/-- Named rows can be ranked. -/
theorem rankedCandidate_ok {short : List (Evaluation × Nat)}
    (h : ∀ x ∈ short, x.1.candidate.fullName.isSome = true) :
    ∃ ranked, short.mapM rankedCandidate = .ok ranked := by
  induction short with
  | nil => exact ⟨[], rfl⟩
  | cons x xs ih =>
      obtain ⟨ranked, hranked⟩ := ih fun y hy => h y (List.mem_cons_of_mem _ hy)
      obtain ⟨fullName, hname⟩ :=
        Option.isSome_iff_exists.mp (h x (List.mem_cons_self ..))
      obtain ⟨y, hy⟩ : ∃ y, rankedCandidate x = .ok y := by
        obtain ⟨e, rank⟩ := x
        have hname' : e.candidate.fullName = some fullName := hname
        simp only [rankedCandidate, hname']
        exact ⟨_, rfl⟩
      exact ⟨y :: ranked, by rw [List.mapM_cons, hy, hranked]; rfl⟩

-- ================================================================ the result

/-- In every run that covers its vectors, at every state where no thread
is about to commit a candidate the answer names: every row the answer
resolves to is processed and has a name, and building the ranked list
from those rows does not fail. -/
theorem ranking_sees_finished {s : Sys (service env)}
    (h : GuardedRun env (Covers env) s) {t : UUID} {ms : List VectorMatch}
    (hstored : ∀ m ∈ ms, ∀ text, m.candidateId = some text →
      StoredCandidate s.world t.str text)
    (hidle : ∀ m ∈ ms, ∀ c : UUID, m.candidateId = some c.str →
      ∀ j < s.threads.length, c ∉ finishing s j)
    {O : Oracle (machine env)} {n : Nat} {rs : List (Candidate × Rat)}
    (hrs : ((resolve t ms).run O n s.world).1 = some (.ok rs)) :
    (∀ x ∈ rs, x.1.status = .processed ∧ x.1.fullName.isSome = true)
      ∧ ∀ (es : List Evaluation) (topN : Int),
          (∀ e ∈ es, ∃ x ∈ rs, e.candidate = x.1) →
          ∃ ranked, (shortlist es topN).mapM rankedCandidate = .ok ranked := by
  obtain ⟨ros, htr, ⟨hc, hshape⟩, hcov⟩ := Run.invariant
    (((core_keeps env _).and (shaped_keeps env _)).and (covered_keeps env))
    (conforms env) ⟨⟨core_init env, shaped_init env⟩, covered_init env⟩ h
  have hrows : ∀ x ∈ rs,
      x.1.status = .processed ∧ x.1.fullName.isSome = true := by
    intro x hx
    obtain ⟨m, hm, text, hname, hparse, hmem, -⟩ := resolve_found hrs x hx
    obtain ⟨c, rfl, v, hv⟩ := (hstored m hm text hname).vector hshape
    rw [UUID.parse_str, Option.some.injEq] at hparse
    have hs : x.1.status = .processed := by
      rcases hcov.rows _ c v hv x.1 hmem hparse.symm with hs | hfin
      · exact hs
      · obtain ⟨j, hj, hfinishing⟩ := hfin.thread htr
        exact absurd hfinishing (hidle m hm c hname j hj)
    exact ⟨hs, ((hc.stores.rows x.1 hmem).whole hs).1⟩
  refine ⟨hrows, fun es topN hes => rankedCandidate_ok fun x hx => ?_⟩
  obtain ⟨y, hy, hsame⟩ := hes x.1 (mem_shortlist hx)
  rw [hsame]
  exact (hrows y hy).2

/-- The answer of a query that finds the sample's candidate. -/
def sampleMatches : List VectorMatch := [⟨some sampleRow.id.str, 1⟩]

/-- The sample candidate's vector is stored, and the rows the answer
resolves to pass a test. -/
def resolves (s : Sys (service sampleEnv))
    (p : List (Candidate × Rat) → Bool) : Bool :=
  decide (∃ v ∈ s.world.pinecone sampleTenant.str
      (candidateVectorId sampleRow.id.str),
    v.metadata.lookup "type" = some "candidate"
      ∧ v.metadata.lookup "candidate_id" = some sampleRow.id.str)
    && match ((resolve sampleTenant sampleMatches).run sampleOracle 0
        s.world).1 with
      | some (.ok rs) => p rs
      | _ => false

theorem of_resolves {s : Sys (service sampleEnv)}
    {p : List (Candidate × Rat) → Bool} (h : resolves s p = true) :
    StoredCandidate s.world sampleTenant.str sampleRow.id.str
      ∧ ∃ rs, ((resolve sampleTenant sampleMatches).run sampleOracle 0
          s.world).1 = some (.ok rs) ∧ p rs = true := by
  unfold resolves at h
  rw [Bool.and_eq_true, decide_eq_true_eq] at h
  obtain ⟨⟨v, hv, htype, hid⟩, hrun⟩ := h
  refine ⟨⟨_, v, hv, htype, hid⟩, ?_⟩
  split at hrun
  next rs hrs => exact ⟨rs, hrs, hrun⟩
  next => cases hrun

/-- After one upload and its handling ranking resolves the row, and it is
processed. -/
theorem ranking_sees_finished_sample : ∃ (s : Sys (service sampleEnv))
    (rs : List (Candidate × Rat)), GuardedRun sampleEnv (Covers sampleEnv) s
      ∧ ((resolve sampleTenant sampleMatches).run sampleOracle 0 s.world).1
          = some (.ok rs)
      ∧ rs.length = 1
      ∧ ∀ x ∈ rs, x.1.status = .processed ∧ x.1.fullName.isSome = true := by
  have hexec : Reaches (sampleUpload ++ .spawn .worker :: steps 1 12)
      (fun s => resolves s (fun rs => decide (rs.length = 1))
        && decide (∀ j < s.threads.length, finishing s j = []))
      (Covers sampleEnv) := by
    decide +kernel
  obtain ⟨s, hrun, hp⟩ := Run.exists_of_exec hexec
  rw [Bool.and_eq_true, decide_eq_true_eq] at hp
  obtain ⟨hstored, rs, hrs, hlen⟩ := of_resolves hp.1
  refine ⟨s, rs, hrun, hrs, of_decide_eq_true hlen,
    (ranking_sees_finished hrun ?_ ?_ hrs).1⟩
  · intro m hm text htext
    rw [List.mem_singleton.mp hm, Option.some.injEq] at htext
    exact htext ▸ hstored
  · intro m hm c hc j hj hin
    rw [hp.2 j hj] at hin
    cases hin

/-- The handling's final commit fails after its vector was stored. -/
def vectorOnly : List (Label (service sampleEnv)) :=
  sampleUpload ++ .spawn .worker :: steps 1 7
    ++ steps 1 1 { commit := .failed "down" } ++ steps 1 1

/-- Without the condition ranking resolves a placeholder, which has no
name to rank it by. -/
theorem ranking_sees_placeholder : ∃ (s : Sys (service sampleEnv))
    (rs : List (Candidate × Rat)), Reachable sampleEnv s
      ∧ StoredCandidate s.world sampleTenant.str sampleRow.id.str
      ∧ ((resolve sampleTenant sampleMatches).run sampleOracle 0 s.world).1
          = some (.ok rs)
      ∧ ∃ x ∈ rs, x.1.status ≠ .processed ∧ x.1.fullName = none := by
  have hexec : Reaches vectorOnly fun s => resolves s fun rs =>
      decide (∃ x ∈ rs, x.1.status ≠ .processed ∧ x.1.fullName = none) := by
    decide +kernel
  obtain ⟨s, hrun, hp⟩ := Run.exists_of_exec hexec
  obtain ⟨hstored, rs, hrs, hbad⟩ := of_resolves hp
  exact ⟨s, rs, hrun, hstored, hrs, of_decide_eq_true hbad⟩

end ResumeScreening.Pipeline
