/-
What one step did to rows and files, said once (`Core.did`): nothing, a
new identifier, a new row under an owned identifier, a worker's write
to the row of its task, or a file put under a placed row. The results
about statuses and about whose file a row belongs to are case analyses
of this, not of the protocol.
-/
import ResumeScreening.Pipeline.Step

namespace ResumeScreening.Pipeline

open Effect

variable {env : Env} {w w' : World} {log : Log sig}
  {ros : Roster (service env) Phase} {i : Nat} {op : Op} {ph ph' : Phase}

/-- The columns a worker's write sets, by the phase it writes in. -/
inductive Writes (env : Env) (k : Task) (row : Candidate) :
    Phase → CandidatePatch → Prop
  | processing : row.status ≠ .processing →
      Writes env k row (.loaded k row) { status := some .processing }
  | unreadable : (∀ text, ¬ Reads env k.bytes text) →
      Writes env k row (.marked k row) { status := some .failed }
  | refused {text} :
      Writes env k row (.rejected k row text) { status := some .failed }
  | indexed {text p} : Reads env k.bytes text →
      Writes env k row (.indexing k row text p)
        (filledPatch (indexed row p text))

/-- The row a thread inserts: an upload its placeholder, a create the row
whose vector it has stored. -/
inductive Inserts : Op → Phase → Candidate → Prop
  | placeholder {t file row} : row.status = .pending → row.pineconeId = none →
      Inserts (.uploadResume t file) (.drafted row) row
  | created {t payload row} : row.status = .processed →
      Inserts (.createCandidate t payload) (.stored row) (withVector row)

theorem Inserts.owns {row : Candidate} (h : Inserts op ph row) :
    ph.owns = some row.id := by
  cases h with
  | placeholder => rfl
  | created => rfl

inductive Did (env : Env) (w : World) (op : Op) (ph : Phase) :
    Event sig → World → Prop
  | alike {e r w'} : Alike w w' → e ≠ .uuid4 → Did env w op ph ⟨e, r⟩ w'
  | draw {u} : u ∉ w.usedIds → ph = .idle →
      Did env w op ph ⟨.uuid4, .ok u⟩ { w with usedIds := u :: w.usedIds }
  | insert {row t r} : Inserts op ph row →
      w.db.candidates.insert? row = some t →
      Did env w op ph ⟨.commit [.insertCandidate row], r⟩ (withRows w t)
  | update {k row set t r} : TaskOk env w k → row.id = k.candidateId →
      row.tenantId = k.tenantId → Writes env k row ph set → op = .worker →
      w.db.candidates.update? (fun r => r.id == row.id) set.apply = some t →
      Did env w op ph ⟨.commit [.updateCandidate row.id set], r⟩
        (withRows w t)
  | job {row t r} : ph = .storedJob row →
      w.db.jobs.insert? (jobWithVector row) = some t →
      Did env w op ph ⟨.commit [.insertJob (jobWithVector row)], r⟩
        { w with db := { w.db with jobs := t } }
  | put {tenant file row r} : op = .uploadResume tenant file →
      ph = .placed row → row ∈ w.db.candidates.rows →
      row.status = .pending →
      Did env w op ph
        ⟨.putObject env.s3BucketName (uploadKey row.id) file.bytes, r⟩
        { w with
          s3 := setAt w.s3 env.s3BucketName (uploadKey row.id) file.bytes }
  | publish {tenant file row r} : op = .uploadResume tenant file →
      ph = .kept row → row.tenantId = tenant →
      Did env w op ph ⟨.sendMessage (uploadBody env tenant row.id), r⟩
        { w with
          queue := w.queue
            ++ [{ message := ⟨w.nextReceipt, uploadBody env tenant row.id⟩ }]
          nextReceipt := w.nextReceipt + 1 }

/-- A worker's commit of one column set: unapplied, or its write. -/
theorem did_commit {k : Task} {row : Candidate} {set : CandidatePatch}
    (a : Fate) (r : Except Exn Unit) (hk : TaskOk env w k) (hid : row.id = k.candidateId)
    (ht : row.tenantId = k.tenantId) (hw : Writes env k row ph set) :
    Did env w .worker ph ⟨.commit [.updateCandidate row.id set], r⟩
      (w.commit [.updateCandidate row.id set] a).2 := by
  rcases commit_cases w [.updateCandidate row.id set] a with
    ⟨hsame, -⟩ | ⟨db, hdb, hsame⟩
  · rw [hsame]
    exact .alike (.refl w) (fun h => by cases h)
  · rw [writeAll_one] at hdb
    obtain ⟨t, htab, rfl⟩ := write_updateCandidate hdb
    rw [hsame]
    exact .update hk hid ht hw rfl htab

theorem did_insert {row : Candidate} (a : Fate) (r : Except Exn Unit)
    (hins : Inserts op ph row) :
    Did env w op ph ⟨.commit [.insertCandidate row], r⟩
      (w.commit [.insertCandidate row] a).2 := by
  rcases commit_cases w [.insertCandidate row] a with
    ⟨hsame, -⟩ | ⟨db, hdb, hsame⟩
  · rw [hsame]
    exact .alike (.refl w) (fun h => by cases h)
  · rw [writeAll_one] at hdb
    obtain ⟨t, htab, rfl⟩ := write_insertCandidate hdb
    rw [hsame]
    exact .insert hins htab

/-- What a performed action did to rows and files. -/
theorem Core.did (h : Core env w log ros)
    (hi : ros[i]? = some (op, some ph)) {e : Act} {a : e.Ans}
    (hadm : admits w e a = true) {r : Except Exn e.Ret}
    (hr : (perform env e a w).1 = r) (hm : Move env op ph ⟨e, r⟩ ph') :
    Did env w op ph ⟨e, r⟩ (perform env e a w).2 := by
  have hslot := h.threads.slots hi
  cases hm with
  | quiet hq hdue =>
      refine .alike (quiet_same hq a w).alike ?_
      rintro rfl
      cases hq
  | @draw _ u =>
      cases hr
      exact .draw (by simpa [admits] using hadm) rfl
  | draft => exact .alike (quiet_same rfl a w).alike (fun h => by cases h)
  | draftCreate =>
      exact .alike (quiet_same rfl a w).alike (fun h => by cases h)
  | draftJob => exact .alike (quiet_same rfl a w).alike (fun h => by cases h)
  | count => exact .alike (quiet_same rfl a w).alike (fun h => by cases h)
  | fetch => exact .alike (quiet_same rfl a w).alike (fun h => by cases h)
  | load => exact .alike (quiet_same rfl a w).alike (fun h => by cases h)
  | parse => exact .alike (quiet_same rfl a w).alike (fun h => by cases h)
  | reject => exact .alike (quiet_same rfl a w).alike (fun h => by cases h)
  | store => exact .alike (upsert_alike _ _ a w) (fun h => by cases h)
  | storeJob => exact .alike (upsert_alike _ _ a w) (fun h => by cases h)
  | index => exact .alike (upsert_alike _ _ a w) (fun h => by cases h)
  | report => exact .alike (updateItem_alike _ _ a w) (fun h => by cases h)
  | delete => exact .alike (deleteMessage_alike _ a w) (fun h => by cases h)
  | receive =>
      obtain ⟨handles, hw, -⟩ := receive_ok hr
      rw [hw]
      exact .alike (receive_alike w handles) (fun h => by cases h)
  | receiveFailed =>
      rw [receive_error hr]
      exact .alike (.refl w) (fun h => by cases h)
  | @place t file row r =>
      rcases hslot with ⟨_, _, _, -, hrow⟩ | ⟨_, _, _, hop, -⟩
      · exact did_insert a r
          (.placeholder (by rw [hrow]; rfl) (by rw [hrow]; rfl))
      · cases hop
  | @create t payload row r =>
      obtain ⟨_, _, _, -, hrow⟩ := hslot
      exact did_insert a r (.created (by rw [hrow]; rfl))
  | @createJob t payload row r =>
      show Did env w _ _ _ (w.commit _ a).2
      rcases commit_cases w [.insertJob (jobWithVector row)] a with
        ⟨hsame, -⟩ | ⟨db, hdb, hsame⟩
      · rw [hsame]
        exact .alike (.refl w) (fun h => by cases h)
      · rw [writeAll_one] at hdb
        obtain ⟨tab, ht, rfl⟩ := write_insertJob hdb
        rw [hsame]
        exact .job rfl ht
  | @keep t file row r =>
      show Did env w _ _ _ (w.write _ a).2
      rw [write_snd]
      obtain ⟨t', file', now, hop, hrow, hmem⟩ := hslot
      split
      · exact .put rfl rfl hmem (by rw [hrow]; rfl)
      · exact .alike (.refl w) (fun h => by cases h)
  | @send t file row r =>
      show Did env w _ _ _ (w.write _ a).2
      rw [write_snd]
      obtain ⟨t', file', hop, ht, -⟩ := hslot
      cases hop
      split
      · exact .publish rfl rfl ht
      · exact .alike (.refl w) (fun h => by cases h)
  | @mark k row r =>
      by_cases hs : row.status = .processing
      · have hq : quiet (.commit (processingWrites row)) = true := by
          rw [show processingWrites row = [] from if_pos hs]
          rfl
        exact .alike (quiet_same hq a w).alike (fun h => by cases h)
      · have hone : processingWrites row
            = [.updateCandidate row.id { status := some .processing }] :=
          if_neg hs
        have hgoal : ∀ pending (r : Except Exn Unit),
            pending = [.updateCandidate row.id { status := some .processing }] →
            Did env w .worker (.loaded k row) ⟨.commit pending, r⟩
              (w.commit pending a).2 := by
          rintro pending r rfl
          exact did_commit a r hslot.1 hslot.2.1 hslot.2.2 (.processing hs)
        exact hgoal _ r hone
  | @discardFile k row r hnone =>
      exact did_commit a r hslot.1 hslot.2.1 hslot.2.2 (.unreadable hnone)
  | @discardAnswer k row text r =>
      exact did_commit a r hslot.1 hslot.2.1 hslot.2.2 .refused
  | @finish k row text p r =>
      exact did_commit a r hslot.1 hslot.2.1 hslot.2.2.1
        (.indexed hslot.2.2.2.1)

end ResumeScreening.Pipeline
