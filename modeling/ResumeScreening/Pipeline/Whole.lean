/-
Processed rows are whole, and belong to their own file.

`Origin` ties each identifier to the one request that drew it: until
that request has stored its file the row is still the placeholder, and
from then on the file is the one the request was given. With
`RowOk.own` — a processed row is filled from the file stored under its
identifier — this is `processed_rows_whole`.
-/
import ResumeScreening.Pipeline.Did

namespace ResumeScreening.Pipeline

open Effect

variable {env : Env} {w w' : World} {log : Log sig}
  {ros : Roster (service env) Phase} {i : Nat} {op : Op} {ph ph' : Phase}

-- ================================================================= origins

/-- Thread `i` drew this identifier. -/
def Issued (log : Log sig) (i : Nat) (id : UUID) : Prop :=
  (i, ⟨.uuid4, .ok id⟩) ∈ log

/-- The identifier a request's phase is about. -/
def Phase.draws : Phase → Option UUID
  | .kept row | .sent row => some row.id
  | ph => ph.owns

/-- The row of an upload before its file is stored: the placeholder. -/
def Blank (env : Env) (w : World) (id : UUID) : Prop :=
  fileOf env w id = none
    ∧ ∀ r ∈ w.db.candidates.rows, r.id = id → r.status = .pending

structure Origin (env : Env) (w : World) (log : Log sig)
    (ros : Roster (service env) Phase) : Prop where
  drawn : ∀ {i : Nat} {id : UUID}, Issued log i id → id ∈ w.usedIds
  within : ∀ {i : Nat} {id : UUID}, Issued log i id → i < ros.length
  alone : ∀ {i j : Nat} {id : UUID}, Issued log i id → Issued log j id → i = j
  mine : ∀ {i : Nat} {op : Op} {ph : Phase} {id : UUID},
    ros[i]? = some (op, some ph) → ph.draws = some id → Issued log i id
  file : ∀ {i : Nat} {id t : UUID} {f : UploadFile} {x : Option Phase},
    Issued log i id → ros[i]? = some (.uploadResume t f, x) →
    Blank env w id ∨ fileOf env w id = some f.bytes

theorem draws_of_owns {id : UUID} (h : ph.owns = some id) :
    ph.draws = some id := by
  cases ph <;> first | exact h | cases h

/-- A move draws no identifier, or keeps the one its phase is about. -/
theorem draws_move {e : Act} {r : Except Exn e.Ret}
    (hm : Move env op ph ⟨e, r⟩ ph') {id : UUID} (h : ph'.draws = some id) :
    ph.draws = some id ∨ (⟨e, r⟩ : Event sig) = ⟨.uuid4, .ok id⟩ := by
  have hafter : ∀ {α : Type} {r : Except Exn α} {yes no : Phase},
      (after r yes no).draws = some id →
        yes.draws = some id ∨ no.draws = some id :=
    fun h => (after_view Phase.draws h).imp_left And.left
  cases hm with
  | quiet => exact .inl h
  | draw =>
      cases h
      exact .inr rfl
  | place => exact .inl ((hafter h).resolve_right (fun h => nomatch h))
  | keep => exact .inl ((hafter h).resolve_right (fun h => nomatch h))
  | send => exact .inl ((hafter h).resolve_right (fun h => nomatch h))
  | store => exact .inl ((hafter h).elim (fun h => h) fun h => h)
  | storeJob => exact .inl ((hafter h).elim (fun h => h) fun h => h)
  | mark => exact after_elim Phase.draws h rfl rfl
  | discardFile => exact after_elim Phase.draws h rfl rfl
  | discardAnswer => exact after_elim Phase.draws h rfl rfl
  | index => exact after_elim Phase.draws h rfl rfl
  | finish => exact after_elim Phase.draws h rfl rfl
  | report => exact after_elim Phase.draws h rfl rfl
  | delete hph =>
      rcases hph with rfl | rfl
      · exact after_elim Phase.draws h rfl rfl
      · exact after_elim Phase.draws h rfl rfl
  | draft => exact .inl h
  | draftCreate => exact .inl h
  | draftJob => exact .inl h
  | _ => cases h

theorem issued_cons {j : Nat} {id : UUID} {ev : Event sig}
    (h : Issued ((i, ev) :: log) j id) :
    Issued log j id ∨ (j = i ∧ ev = ⟨.uuid4, .ok id⟩) := by
  rcases List.mem_cons.mp h with heq | hold
  · cases heq
    exact .inr ⟨rfl, rfl⟩
  · exact .inl hold

theorem Blank.alike {id : UUID} (h : Blank env w id) (ha : Alike w w') :
    Blank env w' id :=
  ⟨(ha.fileOf id).trans h.1, fun r hr => h.2 r (ha.candidates ▸ hr)⟩

/-- A step keeps the file side of an origin: the request that drew the
identifier is the only one that can put a file under it. -/
theorem Did.file {ev : Event sig} (hdid : Did env w op ph ev w')
    (ho : Origin env w log ros)
    (hi : ros[i]? = some (op, some ph)) {j : Nat} {id t : UUID}
    {f : UploadFile} {x : Option Phase} (hj : Issued log j id)
    (hop : ros[j]? = some (.uploadResume t f, x)) :
    Blank env w' id ∨ fileOf env w' id = some f.bytes := by
  have hold := ho.file hj hop
  -- a write under an identifier this thread owns is a write of thread `j`
  have hself : ∀ id', ph.owns = some id' → id' = id →
      op = .uploadResume t f := by
    rintro id' hown rfl
    have hij := ho.alone (ho.mine hi (draws_of_owns hown)) hj
    rw [← hij, hi, Option.some.injEq] at hop
    exact congrArg Prod.fst hop
  cases hdid with
  | alike ha =>
      rcases hold with hblank | hfile
      · exact .inl (hblank.alike ha)
      · exact .inr ((ha.fileOf id).trans hfile)
  | draw => exact hold
  | job => exact hold
  | publish => exact hold
  | @insert row tab _ hins htab =>
      rcases hold with hblank | hfile
      · refine .inl ⟨hblank.1, fun r hr hid => ?_⟩
        rcases (Relational.Table.mem_insert? htab).mp hr with hr | rfl
        · exact hblank.2 r hr hid
        · have hop' := hself _ hins.owns hid
          cases hins with
          | placeholder hpending => exact hpending
          | created => cases hop'
      · exact .inr hfile
  | @update k row set tab _ hk hid _ _ _ htab =>
      rcases hold with hblank | hfile
      · refine .inl ⟨hblank.1, fun r hr hrid => ?_⟩
        have hne : r.id ≠ row.id := fun hrow => by
          have hnone := hblank.1
          rw [← hrid, hrow, hid, hk.file] at hnone
          cases hnone
        exact hblank.2 r (((rowsStep_update htab).keep r hne).mp hr) hrid
      · exact .inr hfile
  | @put tenant file row _ hupload hph hrow hpending =>
      by_cases hid : row.id = id
      · have hsame := hself row.id (by rw [hph]; rfl) hid
        rw [hupload] at hsame
        cases hsame
        refine .inr ?_
        show setAt _ _ _ _ _ _ = _
        rw [setAt, if_pos ⟨rfl, by rw [hid]⟩]
      · have hkey : fileOf env { w with
            s3 := setAt w.s3 env.s3BucketName (uploadKey row.id) file.bytes } id
            = fileOf env w id := by
          show setAt _ _ _ _ _ _ = _
          rw [setAt, if_neg fun hk => hid (uploadKey_injective hk.2).symm]
          rfl
        rcases hold with hblank | hfile
        · exact .inl ⟨hkey.trans hblank.1, hblank.2⟩
        · exact .inr (hkey.trans hfile)

/-- A fresh identifier is blank. -/
theorem blank_of_fresh (hc : Core env w log ros) {u : UUID}
    (hu : u ∉ w.usedIds) :
    Blank env { w with usedIds := u :: w.usedIds } u := by
  refine ⟨?_, fun r hr hid => ?_⟩
  · cases hf : fileOf env w u with
    | none => exact hf
    | some b => exact absurd (hc.stores.files u b hf) hu
  · exact absurd (hid ▸ (hc.stores.rows r hr).drawn) hu

/-- Drawn identifiers stay drawn. -/
theorem Did.used {ev : Event sig} (h : Did env w op ph ev w') (id : UUID)
    (hid : id ∈ w.usedIds) : id ∈ w'.usedIds := by
  cases h with
  | alike ha => exact ha.usedIds ▸ hid
  | draw => exact List.mem_cons_of_mem _ hid
  | _ => exact hid

theorem Origin.act (ho : Origin env w log ros) (hc : Core env w log ros)
    (hi : ros[i]? = some (op, some ph)) {e : Act} {r : Except Exn e.Ret}
    (hm : Move env op ph ⟨e, r⟩ ph') (hdid : Did env w op ph ⟨e, r⟩ w') :
    Origin env w' ((i, ⟨e, r⟩) :: log) (ros.set i (op, some ph')) := by
  -- a drawn identifier was fresh
  have hfresh : ∀ id, (⟨e, r⟩ : Event sig) = ⟨.uuid4, .ok id⟩ →
      id ∉ w.usedIds ∧ w' = { w with usedIds := id :: w.usedIds } := by
    rintro id heq
    cases hdid with
    | alike ha hne =>
        cases heq
        exact absurd rfl hne
    | draw hu =>
        cases heq
        exact ⟨hu, rfl⟩
    | _ => cases heq
  constructor
  · intro j id hj
    rcases issued_cons hj with hold | ⟨-, heq⟩
    · exact hdid.used id (ho.drawn hold)
    · rw [(hfresh id heq).2]
      exact List.mem_cons_self ..
  · intro j id hj
    rw [List.length_set]
    rcases issued_cons hj with hold | ⟨rfl, -⟩
    · exact ho.within hold
    · exact (List.getElem?_eq_some_iff.mp hi).1
  · intro j j' id hj hj'
    rcases issued_cons hj with hold | ⟨rfl, heq⟩
    · rcases issued_cons hj' with hold' | ⟨-, heq⟩
      · exact ho.alone hold hold'
      · exact absurd (ho.drawn hold) (hfresh id heq).1
    · rcases issued_cons hj' with hold' | ⟨rfl, -⟩
      · exact absurd (ho.drawn hold') (hfresh id heq).1
      · rfl
  · intro j op₁ ph₁ id hj hdraws
    rcases roster_set hj with ⟨rfl, heq⟩ | ⟨-, hold⟩
    · cases heq
      rcases draws_move hm hdraws with hsame | heq
      · exact List.mem_cons_of_mem _ (ho.mine hi hsame)
      · rw [heq]
        exact List.mem_cons_self ..
    · exact List.mem_cons_of_mem _ (ho.mine hold hdraws)
  · intro j id t f x hj hop
    have hop' : ∃ y, ros[j]? = some (.uploadResume t f, y) := by
      rcases roster_set hop with ⟨rfl, heq⟩ | ⟨-, hold⟩
      · cases heq
        exact ⟨_, hi⟩
      · exact ⟨x, hold⟩
    obtain ⟨y, hop'⟩ := hop'
    rcases issued_cons hj with hold | ⟨-, heq⟩
    · exact hdid.file ho hi hold hop'
    · obtain ⟨hu, rfl⟩ := hfresh id heq
      exact .inl (blank_of_fresh hc hu)

-- =================================================================== runs

/-- Dying and starting over draw nothing. -/
theorem Origin.release (h : Origin env w log ros) {x y : Option Phase}
    (hi : ros[i]? = some (op, y)) (hx : x = none ∨ x = some .idle) :
    Origin env w log (ros.set i (op, x)) where
  drawn := h.drawn
  within hj := by
    rw [List.length_set]
    exact h.within hj
  alone := h.alone
  mine hj hdraws := by
    rcases roster_set hj with ⟨-, heq⟩ | ⟨-, hold⟩
    · rcases hx with rfl | rfl
      · cases heq
      · cases heq
        cases hdraws
    · exact h.mine hold hdraws
  file hj hop := by
    rcases roster_set hop with ⟨rfl, heq⟩ | ⟨-, hold⟩
    · cases heq
      exact h.file hj hi
    · exact h.file hj hold

theorem Origin.spawn (h : Origin env w log ros) :
    Origin env w log (ros ++ [(op, some .idle)]) where
  drawn := h.drawn
  within hj := by
    rw [List.length_append]
    exact Nat.lt_add_right _ (h.within hj)
  alone := h.alone
  mine hj hdraws := by
    rcases roster_append hj with ⟨-, heq⟩ | hold
    · cases heq
      cases hdraws
    · exact h.mine hold hdraws
  file hj hop := by
    have hlt := h.within hj
    rw [List.getElem?_append_left hlt] at hop
    exact h.file hj hop

theorem Origin.alike (h : Origin env w log ros) (ha : Alike w w') :
    Origin env w' log ros where
  drawn hj := ha.usedIds ▸ h.drawn hj
  within := h.within
  alone := h.alone
  mine := h.mine
  file hj hop := by
    rcases h.file hj hop with hblank | hfile
    · exact .inl (hblank.alike ha)
    · exact .inr ((ha.fileOf _).trans hfile)

theorem origin_keeps (env : Env) (ok : Guard (service env)) :
    (protocol env).KeepsWith ok (Core env) (Origin env) where
  spawn _ _ h := h.spawn
  act _ _ hc h hi _ hadm _ hm := h.act hc hi hm (hc.did hi hadm rfl hm)
  crash _ _ h hi _ _ := h.release hi (.inl rfl)
  restart _ h hi _ _ := h.release hi (.inr rfl)
  env _ _ h hk := h.alike (move_alike hk)

theorem origin_init (env : Env) : Origin env World.empty [] [] :=
  ⟨fun h => (nomatch h), fun h => (nomatch h), fun h => (nomatch h),
    fun h => (nomatch h), fun h => (nomatch h)⟩

/-- Every reachable state meets both invariants. -/
theorem reachable_origin {ok : Guard (service env)} {s : Sys (service env)}
    (h : GuardedRun env ok s) :
    ∃ ros, (protocol env).Tracks s ros ∧ Core env s.world s.log ros
      ∧ Origin env s.world s.log ros :=
  Run.invariant ((core_keeps env ok).and (origin_keeps env ok)) (conforms env)
    ⟨core_init env, origin_init env⟩ h

-- ================================================================ the result

/-- The parsed fields of a row are those of one answer. -/
structure FieldsOf (r : Candidate) (p : ParsedResume) : Prop where
  fullName : r.fullName = some p.fullName
  email : r.email = Py.optTruthy p.email
  phone : r.phone = p.phone
  summary : r.summary = p.summary
  skills : r.skills = p.skills
  experience : r.experience = p.experience.map ExperienceEntry.modelDump
  education : r.education = p.education.map EducationEntry.modelDump

theorem fieldsOf_filled {r : Candidate} {p : ParsedResume} {text : String}
    (h : filled r p text = r) : r.rawText = some text ∧ FieldsOf r p := by
  rw [← h]
  exact ⟨rfl, rfl, rfl, rfl, rfl, rfl, rfl, rfl⟩

/-- The request of thread `i` is the upload that a row comes from: it
drew the row's identifier, or has answered with it. -/
def UploadedBy (s : Sys (service env)) (i : Nat) (t : UUID)
    (file : UploadFile) (id : UUID) : Prop :=
  (∃ p, s.threads[i]? = some ⟨.uploadResume t file, p⟩ ∧ Issued s.log i id)
    ∨ ∃ c : Candidate, c.id = id
      ∧ s.Ended i (.uploadResume t file) (.ok (.candidate c))

/-- What an upload has put in place of the row it drew. -/
theorem file_of_uploadedBy {s : Sys (service env)}
    (htr : (protocol env).Tracks s ros) (hc : Core env s.world s.log ros)
    (ho : Origin env s.world s.log ros) {t id : UUID} {file : UploadFile}
    (h : UploadedBy s i t file id) :
    Blank env s.world id ∨ fileOf env s.world id = some file.bytes := by
  rcases h with ⟨p, hp, hissued⟩ | ⟨c, rfl, hended⟩
  · obtain ⟨⟨op, x⟩, hslot, hop, -⟩ := htr.get hp
    obtain rfl : Op.uploadResume t file = op := hop
    exact ho.file hissued hslot
  · obtain ⟨ph, hslot, hfol⟩ := htr.phase hended
    have hfin : Final (.uploadResume t file) ph (.ok (.candidate c)) := hfol
    obtain ⟨row, rfl, hid⟩ := hfin.upload t file c rfl rfl
    obtain ⟨t', file', hop, -, -, hfile⟩ := hc.threads.slots hslot
    cases hop
    exact .inr (hid ▸ hfile)

/-- In every reachable state a processed row has a name and its own
vector id, and the row of an upload holds the text of the very file
that upload was given and the fields of one answer to that text. -/
theorem processed_rows_whole {s : Sys (service env)} (h : Reachable env s)
    {r : Candidate} (hr : r ∈ s.world.db.candidates.rows)
    (hs : r.status = .processed) :
    r.fullName.isSome = true ∧ r.pineconeId = some ("candidate-" ++ r.id.str)
      ∧ ∀ i t file, UploadedBy s i t file r.id → ∃ text p,
          extractTextFromPdf env file.bytes = .ok text
            ∧ r.rawText = some text ∧ Answered s.log text p
            ∧ FieldsOf r p := by
  obtain ⟨ros, htr, hc, ho⟩ := reachable_origin h
  have hok := hc.stores.rows r hr
  refine ⟨(hok.whole hs).1, (hok.whole hs).2, fun i t file hup => ?_⟩
  rcases file_of_uploadedBy htr hc ho hup with ⟨-, hpending⟩ | hfile
  · rw [hpending r hr rfl] at hs
    cases hs
  · obtain ⟨text, p, hreads, hans, hfilled⟩ := hok.own hs _ hfile
    obtain ⟨htext, hfields⟩ := fieldsOf_filled hfilled
    exact ⟨text, p, hreads.1, htext, hans, hfields⟩

/-- One upload and its handling reach such a row. -/
theorem processed_rows_whole_sample : ∃ (s : Sys (service sampleEnv))
    (r : Candidate), Reachable sampleEnv s ∧ r ∈ s.world.db.candidates.rows
      ∧ r.status = .processed
      ∧ UploadedBy s 0 sampleTenant samplePdf r.id
      ∧ ∃ text p, extractTextFromPdf sampleEnv samplePdf.bytes = .ok text
          ∧ r.rawText = some text ∧ Answered s.log text p
          ∧ FieldsOf r p := by
  have hexec : Reaches (sampleUpload ++ .spawn .worker :: steps 1 12) fun s =>
      decide (s.op? 0 = some (.uploadResume sampleTenant samplePdf)
        ∧ s.result? 0 = some (.ok (.candidate sampleRow))
        ∧ ∃ r ∈ s.world.db.candidates.rows,
            r.id = sampleRow.id ∧ r.status = .processed) := by
    decide +kernel
  obtain ⟨s, hrun, hp⟩ := Run.exists_of_exec hexec
  obtain ⟨hop, hres, r, hr, hid, hs⟩ := of_decide_eq_true hp
  have hup : UploadedBy s 0 sampleTenant samplePdf r.id :=
    .inr ⟨sampleRow, hid.symm, Sys.ended_iff.mpr ⟨hop, hres⟩⟩
  exact ⟨s, r, hrun, hr, hs, hup,
    (processed_rows_whole hrun hr hs).2.2 0 sampleTenant samplePdf hup⟩

end ResumeScreening.Pipeline
