/-
The vector index under the pipeline: the only vectors in it are those of
candidates and jobs, under their own ids (`Shaped`).

The index and Postgres share no transaction. Between the upsert of a
handling and its final commit the thread is `finishing` its candidate;
a step that ends this without the commit taking effect — the process
dies, the commit fails, or the upsert took effect and its reply was
lost — leaves the vector behind (`abandoned`).
-/
import ResumeScreening.Pipeline.Status

namespace ResumeScreening.Pipeline

open Effect

variable {env : Env} {w w' : World} {log : Log sig}
  {ros : Roster (service env) Phase} {i : Nat} {op : Op} {ph ph' : Phase}
  {c : UUID}

-- ==================================================== what a step does to it

/-- The candidate whose row the statement makes processed. -/
def finishes : Write → Option UUID
  | .updateCandidate c set =>
      if set.status = some .processed then some c else none
  | _ => none

/-- The candidates whose final commit thread `j` performs next. -/
def finishing (s : Sys (service env)) (j : Nat) : List UUID :=
  match s.next? j with
  | some (.commit pending) => pending.filterMap finishes
  | _ => []

/-- The candidate a vector's metadata names. -/
def namedBy (v : VectorRecord) : List UUID :=
  ((v.metadata.lookup "candidate_id").bind UUID.parse).toList

/-- The candidates whose vector a step stores. -/
def reindexed (s : Sys (service env)) : Label (service env) → List UUID
  | .act i ans =>
      match s.next? i with
      | some (.upsert ns v) =>
          if Fate.applied (ans (.upsert ns v)) then namedBy v else []
      | _ => []
  | _ => []

/-- The candidates whose vector a step leaves behind without the commit
that goes with it. -/
def abandoned (s : Sys (service env)) : Label (service env) → List UUID
  | .act i ans =>
      match s.next? i with
      | some (.commit pending) =>
          if Fate.applied (ans (.commit pending))
              && (s.world.db.writeAll pending).isSome then []
          else finishing s i
      | some (.upsert ns v) =>
          match (ans (.upsert ns v) : Fate) with
          | .lostReply _ => namedBy v
          | _ => []
      | _ => []
  | .crash i => finishing s i
  | _ => []

theorem namedBy_vectorOf (row : Candidate) :
    namedBy (vectorOf env row) = [row.id] := by
  have h₁ : ("candidate_id" == "full_name") = false := by decide
  have h₂ : ("candidate_id" == "type") = false := by decide
  simp [namedBy, vectorOf, candidateVector, List.lookup_cons, h₁, h₂,
    UUID.parse_str]

/-- A step leaves the index alone, or stores the vector it upserts. -/
theorem pinecone_step (env : Env) (e : Act) (ans : (e : Act) → e.Ans) (w : World) :
    (perform env e (ans e) w).2.pinecone = w.pinecone
      ∨ ∃ ns v, e = .upsert ns v
        ∧ Fate.applied (ans (.upsert ns v)) = true
        ∧ (perform env e (ans e) w).2.pinecone
          = setAt w.pinecone ns v.id v := by
  by_cases hq : quiet e = true
  · exact .inl (quiet_same hq _ _).pinecone
  · have hwrite : ∀ (w₁ : World) (a : Fate), w₁.pinecone = w.pinecone →
        (w.write w₁ a).2.pinecone = w.pinecone := fun w₁ a heq =>
      write_ends (P := fun w₁ => w₁.pinecone = w.pinecone) a heq rfl
    cases e with
    | uuid4 => exact .inl rfl
    | commit pending =>
        refine .inl ?_
        show (w.commit pending _).2.pinecone = w.pinecone
        obtain ⟨db, hw⟩ := commit_rows w pending (ans (.commit pending))
        rw [hw]
    | upsert ns v =>
        by_cases happ : Fate.applied (ans (.upsert ns v)) = true
        · refine .inr ⟨ns, v, rfl, happ, ?_⟩
          show (w.write _ _).2.pinecone = _
          rw [write_snd, if_pos happ]
        · refine .inl ?_
          show (w.write _ _).2.pinecone = _
          rw [write_snd, if_neg happ]
    | putObject bucket key body => exact .inl (hwrite _ _ rfl)
    | sendMessage body => exact .inl (hwrite _ _ rfl)
    | deleteMessage handle => exact .inl (hwrite _ _ rfl)
    | updateItem c status => exact .inl (hwrite _ _ rfl)
    | receiveMessage =>
        show (perform env .receiveMessage (ans .receiveMessage) w).2.pinecone
          = _ ∨ _
        cases (ans .receiveMessage : Except String (List Nat)) with
        | ok handles => exact .inl rfl
        | error msg => exact .inl rfl
    | _ => exact absurd rfl hq

/-- Redelivery and dead-lettering write neither rows nor vectors. -/
theorem move_frame {k : Surroundings} (h : k.move w = some w') :
    w'.db = w.db ∧ w'.pinecone = w.pinecone ∧ w'.usedIds = w.usedIds := by
  obtain ⟨f, -, rfl⟩ := move_queue h
  exact ⟨rfl, rfl, rfl⟩

-- ================================================================== the shape

/-- The vector a step stores: of a row its thread has drafted, or of the
task it handles, which is then finishing or abandoned. -/
inductive Upserts (env : Env) (s : Sys (service env)) (l : Label (service env))
    (ph' : Phase) : Op → Phase → String → VectorRecord → Prop
  | created {t payload row} :
      Upserts env s l ph' (.createCandidate t payload) (.drafted row) t.str
        (vectorOf env row)
  | job {t payload row} :
      Upserts env s l ph' (.createJob t payload) (.draftedJob row) t.str
        (jobVectorOf env row)
  | handled {k row text p} : row.id ∈ reindexed s l →
      ph' = .indexing k row text p ∨ row.id ∈ abandoned s l →
      Upserts env s l ph' .worker (.parsed k row text p) k.tenantId.str
        (vectorOf env (filled row p text))

section

variable {s : Sys (service env)} {e : Act} {k : Except Exn e.Ret → Py Resp}
  {ans : (e : Act) → e.Ans} {r : Except Exn e.Ret}

/-- An upsert that took effect and reported a failure abandons its
candidate. -/
theorem lost_upsert {ns : String} {v : VectorRecord}
    (hnext : s.next? i = some (.upsert ns v))
    (happ : Fate.applied (ans (.upsert ns v)) = true) {x : Exn}
    (hr : (perform env (.upsert ns v) (ans (.upsert ns v)) s.world).1
      = .error x) (hc : c ∈ namedBy v) : c ∈ abandoned s (.act i ans) := by
  cases ha : (ans (.upsert ns v) : Fate) with
  | ok =>
      have hbad : (s.world.write _ (ans (.upsert ns v))).1 = .error x := hr
      rw [ha] at hbad
      cases hbad
  | failed msg =>
      rw [ha] at happ
      cases happ
  | lostReply msg =>
      simp only [abandoned, hnext, ha]
      exact hc

theorem index_step (ht : s.threads[i]? = some ⟨op, some (.act e k)⟩)
    (hr : (perform env e (ans e) s.world).1 = r)
    (hm : Move env op ph ⟨e, r⟩ ph') :
    (perform env e (ans e) s.world).2.pinecone = s.world.pinecone
      ∨ ∃ ns v, Upserts env s (.act i ans) ph' op ph ns v
        ∧ (perform env e (ans e) s.world).2.pinecone
          = setAt s.world.pinecone ns v.id v := by
  rcases pinecone_step env e ans s.world with hsame | ⟨ns, v, he, happ, hset⟩
  · exact .inl hsame
  · subst he
    have hnext := next_of_thread ht
    refine .inr ⟨ns, v, ?_, hset⟩
    cases hm with
    | quiet hq => cases hq
    | store => exact .created
    | storeJob => exact .job
    | @index k' row text p r =>
        have hname : row.id ∈ namedBy (vectorOf env (filled row p text)) := by
          rw [namedBy_vectorOf]
          exact List.mem_singleton.mpr rfl
        refine .handled ?_ ?_
        · simp only [reindexed, hnext, happ, if_true]
          exact hname
        · cases r with
          | ok u => exact .inl rfl
          | error x => exact .inr (lost_upsert hnext happ hr hname)

end

/-- Every vector is that of a candidate or of a job, under its own id. -/
def Shaped (env : Env) (w : World) : Prop :=
  ∀ ns vid v, w.pinecone ns vid = some v →
    (∃ row : Candidate, vid = candidateVectorId row.id.str
      ∧ v = vectorOf env row ∧ row.id ∈ w.usedIds)
    ∨ ∃ job : Job, vid = jobVectorId job.id.str ∧ v = jobVectorOf env job

/-- Identifiers of rows a worker handles, and of a request's own row, are
drawn. -/
theorem TaskOk.drawn {k : Task} (h : TaskOk env w k)
    (hc : Stores env w log) : k.candidateId ∈ w.usedIds :=
  hc.files _ _ h.file

theorem Shaped.act {s : Sys (service env)} {e : Act}
    {k : Except Exn e.Ret → Py Resp} {ans : (e : Act) → e.Ans}
    {r : Except Exn e.Ret} (h : Shaped env s.world)
    (hc : Core env s.world s.log ros) (hi : ros[i]? = some (op, some ph))
    (ht : s.threads[i]? = some ⟨op, some (.act e k)⟩)
    (hr : (perform env e (ans e) s.world).1 = r)
    (hm : Move env op ph ⟨e, r⟩ ph')
    (hused : ∀ id, id ∈ s.world.usedIds →
      id ∈ (perform env e (ans e) s.world).2.usedIds) :
    Shaped env (perform env e (ans e) s.world).2 := by
  intro ns vid v hv
  have hold : s.world.pinecone ns vid = some v →
      (∃ row : Candidate, vid = candidateVectorId row.id.str
        ∧ v = vectorOf env row
        ∧ row.id ∈ (perform env e (ans e) s.world).2.usedIds)
      ∨ ∃ job : Job, vid = jobVectorId job.id.str
        ∧ v = jobVectorOf env job := by
    intro hv
    rcases h ns vid v hv with ⟨row, hvid, hrow, hdrawn⟩ | hjob
    · exact .inl ⟨row, hvid, hrow, hused _ hdrawn⟩
    · exact .inr hjob
  have hslot := hc.threads.slots hi
  rcases index_step ht hr hm with hsame | ⟨ns₀, v₀, hups, hset⟩
  · rw [hsame] at hv
    exact hold hv
  · rw [hset, setAt] at hv
    split at hv
    next hkey =>
      obtain ⟨rfl, rfl⟩ := hkey
      cases hv
      cases hups with
      | @created t payload row =>
          exact .inl ⟨row, rfl, rfl, hused _ (hc.threads.owned hi
            (rfl : Phase.owns _ = some row.id)).drawn⟩
      | @job t payload row => exact .inr ⟨row, rfl, rfl⟩
      | @handled k row text p =>
          obtain ⟨hk, hid, -⟩ := hslot
          refine .inl ⟨filled row p text, rfl, rfl, hused _ ?_⟩
          show row.id ∈ s.world.usedIds
          rw [hid]
          exact hk.drawn hc.stores
    next => exact hold hv

theorem Did.grows {e : Act} {r : Except Exn e.Ret}
    (h : Did env w op ph ⟨e, r⟩ w') : ∀ id, id ∈ w.usedIds →
      id ∈ w'.usedIds := by
  intro id hid
  cases h with
  | alike ha => exact ha.usedIds ▸ hid
  | draw => exact List.mem_cons_of_mem _ hid
  | _ => exact hid

theorem shaped_keeps (env : Env) (ok : Guard (service env)) :
    (protocol env).KeepsWith ok (Core env) fun w _ _ => Shaped env w where
  spawn _ _ h := h
  act _ _ hc h hi ht hadm _ hm :=
    h.act hc hi ht rfl hm (hc.did hi hadm rfl hm).grows
  crash _ _ h _ _ _ := h
  restart _ h _ _ _ := h
  env _ _ h hk := by
    obtain ⟨-, hv, hu⟩ := move_frame hk
    unfold Shaped
    rw [hv, hu]
    exact h

theorem shaped_init (env : Env) : Shaped env World.empty :=
  fun _ _ _ h => (nomatch h)

/-- A candidate's vector is one stored for that candidate. -/
theorem Shaped.candidate (h : Shaped env w) {ns : String} {v : VectorRecord}
    (hv : w.pinecone ns (candidateVectorId c.str) = some v) :
    c ∈ w.usedIds := by
  rcases h ns _ v hv with ⟨row, hvid, -, hdrawn⟩ | ⟨job, hvid, -⟩
  · rw [candidateVectorId_injective hvid]
    exact hdrawn
  · exact absurd hvid (candidateVectorId_ne_jobVectorId _ _)

-- ================================================================== finishing

/-- Some thread has stored this candidate's vector and has the final
commit to do. -/
def Finishing (ros : Roster (service env) Phase) (c : UUID) : Prop :=
  ∃ (j : Nat) (op : Op) (k : Task) (row : Candidate) (text : String)
    (p : ParsedResume),
    ros[j]? = some (op, some (.indexing k row text p)) ∧ row.id = c

theorem Finishing.append (h : Finishing ros c) {x : Op × Option Phase} :
    Finishing (ros ++ [x]) c := by
  obtain ⟨j, op, k, row, text, p, hj, hid⟩ := h
  exact ⟨j, op, k, row, text, p, roster_append_old hj, hid⟩

/-- Writing one slot ends a finishing only if it was that slot's. -/
theorem Finishing.set (h : Finishing ros c) (i : Nat)
    (x : Op × Option Phase) : Finishing (ros.set i x) c
      ∨ ∃ (op : Op) (k : Task) (row : Candidate) (text : String)
        (p : ParsedResume),
        ros[i]? = some (op, some (.indexing k row text p)) ∧ row.id = c := by
  obtain ⟨j, op, k, row, text, p, hj, hid⟩ := h
  by_cases hji : j = i
  · exact .inr ⟨op, k, row, text, p, hji ▸ hj, hid⟩
  · exact .inl ⟨j, op, k, row, text, p, (roster_set_ne hji).trans hj, hid⟩

section

variable {s : Sys (service env)} {k : Task} {row : Candidate} {text : String}
  {p : ParsedResume}

/-- A finishing thread's next action says so. -/
theorem finishing_of_indexing (htr : (protocol env).Tracks s ros)
    (hi : ros[i]? = some (op, some (.indexing k row text p))) :
    row.id ∈ finishing s i := by
  unfold finishing
  rw [next_of_due htr hi rfl]
  exact List.mem_singleton.mpr rfl

theorem Finishing.thread (h : Finishing ros c)
    (htr : (protocol env).Tracks s ros) :
    ∃ j < s.threads.length, c ∈ finishing s j := by
  obtain ⟨j, op, k, row, text, p, hj, rfl⟩ := h
  obtain ⟨q, hq, -⟩ := htr.thread hj
  exact ⟨j, (List.getElem?_eq_some_iff.mp hq).1, finishing_of_indexing htr hj⟩

/-- The final commit takes effect or is abandoned. -/
theorem finish_cases (ans : (e : Act) → e.Ans)
    (hnext : s.next? i = some (.commit [indexWrite row p text])) :
    row.id ∈ abandoned s (.act i ans)
        ∧ (s.world.commit [indexWrite row p text]
            (ans (.commit [indexWrite row p text]))).2 = s.world
      ∨ ∃ tab, s.world.db.candidates.update? (fun r => r.id == row.id)
          (filledPatch (indexed row p text)).apply = some tab
        ∧ (s.world.commit [indexWrite row p text]
            (ans (.commit [indexWrite row p text]))).2
          = withRows s.world tab := by
  cases hdb : s.world.db.writeAll [indexWrite row p text] with
  | none =>
      refine .inl ⟨?_, ?_⟩
      · simp only [abandoned, hnext, hdb, Option.isSome_none, Bool.and_false,
          finishing]
        exact List.mem_singleton.mpr rfl
      · unfold World.commit
        rw [hdb]
  | some db =>
      by_cases happ : Fate.applied
          (ans (.commit [indexWrite row p text])) = true
      · refine .inr ?_
        rw [writeAll_one] at hdb
        obtain ⟨tab, htab, rfl⟩ := write_updateCandidate hdb
        refine ⟨tab, htab, ?_⟩
        unfold World.commit
        rw [writeAll_one, hdb]
        simp only [write_snd, happ, if_true]
        rfl
      · refine .inl ⟨?_, commit_unapplied happ⟩
        simp only [abandoned, hnext, happ, Bool.false_and, finishing]
        exact List.mem_singleton.mpr rfl

end

end ResumeScreening.Pipeline
