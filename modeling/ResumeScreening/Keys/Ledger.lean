/-
The key table against the log of what was committed.

`Issued` and `Revoked` read the log: a call drew a key and its INSERT
took effect; a call's revocation took effect. `Ledger` ties them to the
rows, for every interleaving: a row is there exactly if it was issued, and
is revoked exactly if its revocation was committed. `Changed` says once
what a step does to the rows; each part of the ledger follows from it.
-/
import ResumeScreening.Keys.Rights

namespace ResumeScreening.Accounts

open Effect
open Relational (Table)

variable {env : Env} {op : Op} {w w' : World} {log : Log sig} {ops : List Op}
  {i j : Nat} {ev ev' : Event sig} {id : UUID} {r r' : String} {t : UUID}

-- ========================================================= reading the log

/-- The statements an event made part of the database. -/
def committed : Event sig → List Write
  | ⟨.commit pending, .ok _⟩ => pending
  | ⟨.commit pending, .error (.replyLost _)⟩ => pending
  | _ => []

/-- The row of `api_keys` an event showed. -/
def shows : Event sig → Option ApiKey
  | ⟨.getApiKey _, .ok k⟩ => k
  | ⟨.findApiKey _, .ok k⟩ => k
  | ⟨.refreshApiKey _, .ok k⟩ => some k
  | _ => none

/-- Thread `j` drew the key. -/
def Drew (log : Log sig) (j : Nat) (r : String) : Prop :=
  (j, ⟨.tokenUrlsafe, .ok r⟩) ∈ log

/-- A `create_api_key` call for `t` drew the key and its row, under `id`,
has been committed. -/
def Issued (log : Log sig) (ops : List Op) (t : UUID) (r : String) (id : UUID) :
    Prop :=
  ∃ j, ops[j]? = some (.createApiKey t) ∧ Drew log j r
    ∧ ∃ ev row, (j, ev) ∈ log ∧ .insertApiKey row ∈ committed ev ∧ row.id = id

/-- A `revoke_api_key` call for the key has been committed. -/
def Revoked (log : Log sig) (ops : List Op) (id : UUID) : Prop :=
  ∃ j, ops[j]? = some (.revokeApiKey id)
    ∧ ∃ ev set, (j, ev) ∈ log ∧ .updateApiKey id set ∈ committed ev

theorem Issued.cons (h : Issued log ops t r id) (x : Nat × Event sig) :
    Issued (x :: log) ops t r id := by
  obtain ⟨j, hop, hdrew, ev, row, hev, hrow, hid⟩ := h
  exact ⟨j, hop, List.mem_cons_of_mem _ hdrew, ev, row,
    List.mem_cons_of_mem _ hev, hrow, hid⟩

theorem Issued.spawn (h : Issued log ops t r id) (op : Op) :
    Issued log (ops ++ [op]) t r id := by
  obtain ⟨j, hop, hrest⟩ := h
  exact ⟨j, roster_append_old hop, hrest⟩

theorem revoked_cons : Revoked ((i, ev) :: log) ops id ↔ Revoked log ops id
    ∨ (ops[i]? = some (.revokeApiKey id)
        ∧ ∃ set, .updateApiKey id set ∈ committed ev) := by
  constructor
  · intro h
    obtain ⟨j, hop, ev', set, hmem, hset⟩ := h
    rcases List.mem_cons.mp hmem with heq | hmem
    · cases heq
      exact .inr ⟨hop, set, hset⟩
    · exact .inl ⟨j, hop, ev', set, hmem, hset⟩
  · intro h
    rcases h with ⟨j, hop, ev', set, hmem, hset⟩ | ⟨hop, set, hset⟩
    · exact ⟨j, hop, ev', set, List.mem_cons_of_mem _ hmem, hset⟩
    · exact ⟨i, hop, ev, set, List.mem_cons_self .., hset⟩

/-- A call that has not started has revoked nothing. -/
theorem revoked_spawn (hb : ∀ x ∈ log, x.1 < ops.length) (op : Op) :
    Revoked log (ops ++ [op]) id ↔ Revoked log ops id := by
  constructor
  · intro h
    obtain ⟨j, hop, ev, set, hmem, hset⟩ := h
    have hlt : j < ops.length := hb _ hmem
    rw [List.getElem?_append_left hlt] at hop
    exact ⟨j, hop, ev, set, hmem, hset⟩
  · intro h
    obtain ⟨j, hop, hrest⟩ := h
    exact ⟨j, roster_append_old hop, hrest⟩

-- ================================================================ one action

/-- What an entitled action does to the key table. -/
inductive Changed (env : Env) (op : Op) (K : List (Event sig)) (w : World)
    (ev : Event sig) (w' : World) : Prop
  | same : (∀ x ∈ committed ev, ∃ row, x = .insertTenant row) →
      w'.db.apiKeys = w.db.apiKeys → Changed env op K w ev w'
  | inserted {row : ApiKey} : committed ev = [.insertApiKey row] →
      MayWrite env op K (.insertApiKey row) →
      w.db.apiKeys.insert? row = some w'.db.apiKeys → Changed env op K w ev w'
  | updated {id : UUID} {set : ApiKeyPatch} :
      committed ev = [.updateApiKey id set] →
      MayWrite env op K (.updateApiKey id set) →
      w.db.apiKeys.update? (fun k => k.id == id) set.apply
        = some w'.db.apiKeys → Changed env op K w ev w'

/-- A commit's fate: nothing happened, or its statements took effect. -/
theorem commit_fate (w : World) (pending : List Write) (a : Fate) :
    (committed ⟨.commit pending, (w.commit pending a).1⟩ = []
        ∧ (w.commit pending a).2 = w)
      ∨ ∃ db, w.db.writeAll pending = some db
        ∧ committed ⟨.commit pending, (w.commit pending a).1⟩ = pending
        ∧ (w.commit pending a).2 = { w with db := db } := by
  unfold World.commit
  cases hdb : w.db.writeAll pending with
  | none => exact .inl ⟨rfl, rfl⟩
  | some db =>
      cases a with
      | ok => exact .inr ⟨db, rfl, rfl, rfl⟩
      | failed msg => exact .inl ⟨rfl, rfl⟩
      | lostReply msg => exact .inr ⟨db, rfl, rfl, rfl⟩

theorem writeAll_one {db db' : Db} {x : Write}
    (h : db.writeAll [x] = some db') : db.write x = some db' := by
  simp only [Db.writeAll] at h
  split at h
  · next heq => rw [heq, h]
  · cases h

theorem changed {K : List (Event sig)} {e : Act} {a : e.Ans}
    (hallow : Allows env op K e) :
    Changed env op K w ⟨e, (perform e a w).1⟩ (perform e a w).2 := by
  cases e with
  | commit pending =>
      obtain ⟨x, rfl, hmay⟩ := hallow
      show Changed env op K w ⟨.commit [x], (w.commit [x] a).1⟩
        (w.commit [x] a).2
      rcases commit_fate w [x] a with ⟨hev, hw⟩ | ⟨db, hdb, hev, hw⟩
      · rw [hw]
        refine .same (fun y hy => ?_) rfl
        rw [hev] at hy
        cases hy
      · rw [hw]
        have hwrite := writeAll_one hdb
        cases x with
        | insertTenant row =>
            refine .same (fun y hy => ?_) ?_
            · rw [hev, List.mem_singleton] at hy
              exact ⟨row, hy⟩
            · simp only [Db.write, Option.map_eq_some_iff] at hwrite
              obtain ⟨tenants, -, rfl⟩ := hwrite
              rfl
        | insertApiKey row =>
            refine .inserted hev hmay ?_
            simp only [Db.write] at hwrite
            split at hwrite
            · simp only [Option.map_eq_some_iff] at hwrite
              obtain ⟨keys, hkeys, rfl⟩ := hwrite
              exact hkeys
            · cases hwrite
        | updateApiKey id set =>
            refine .updated hev hmay ?_
            simp only [Db.write, Option.map_eq_some_iff] at hwrite
            obtain ⟨keys, hkeys, rfl⟩ := hwrite
            exact hkeys
  | transactionNow =>
      cases (a : Except String Py.DateTime) <;>
        exact .same (fun y hy => nomatch hy) rfl
  | verifyOauth2Token token clientId =>
      cases (a : Except GoogleError GoogleClaims) <;>
        exact .same (fun y hy => nomatch hy) rfl
  | _ => exact .same (fun y hy => nomatch hy) rfl

-- ==================================================================== rows

/-- A row later: its identity, tenant and hash stay, and a revocation is
not undone. -/
structure Continues (k row : ApiKey) : Prop where
  id : row.id = k.id
  tenantId : row.tenantId = k.tenantId
  hashedKey : row.hashedKey = k.hashedKey
  revoked : k.revokedAt.isSome → row.revokedAt.isSome

theorem Continues.refl (k : ApiKey) : Continues k k :=
  ⟨rfl, rfl, rfl, fun h => h⟩

theorem Continues.trans {a b c : ApiKey} (h : Continues a b)
    (h' : Continues b c) : Continues a c :=
  ⟨h'.id.trans h.id, h'.tenantId.trans h.tenantId,
    h'.hashedKey.trans h.hashedKey, fun hr => h'.revoked (h.revoked hr)⟩

/-- What an entitled assignment makes of `revoked_at`: a time, or what it
was. -/
theorem MayWrite.revokedAt {K : List (Event sig)} {set : ApiKeyPatch}
    (h : MayWrite env op K (.updateApiKey id set)) :
    set.revokedAt = none ∨ ∃ now, set.revokedAt = some (some now) := by
  rcases h with ⟨-, -, k, now, -, -, hset⟩ | ⟨r, -, hset, -⟩
  · rw [hset]
    unfold assign
    split
    · exact .inl rfl
    · exact .inr ⟨now, rfl⟩
  · exact .inl hset

theorem apply_continues {set : ApiKeyPatch}
    (h : set.revokedAt = none ∨ ∃ now, set.revokedAt = some (some now))
    (k : ApiKey) : Continues k (set.apply k) := by
  refine ⟨rfl, rfl, rfl, fun hr => ?_⟩
  show (set.revokedAt.getD k.revokedAt).isSome = true
  rcases h with hset | ⟨now, hset⟩
  · rw [hset]
    exact hr
  · rw [hset]
    rfl

/-- No row is lost. -/
theorem Changed.continues {K : List (Event sig)}
    (h : Changed env op K w ev w') {k : ApiKey}
    (hk : k ∈ w.db.apiKeys.rows) :
    ∃ row ∈ w'.db.apiKeys.rows, Continues k row := by
  cases h with
  | same _ hsame => exact ⟨k, by rw [hsame]; exact hk, .refl k⟩
  | inserted _ _ ht =>
      exact ⟨k, (Table.mem_insert? ht).mpr (.inl hk), .refl k⟩
  | @updated id set _ hmay ht =>
      refine ⟨_, (Table.mem_update? ht).mpr ⟨k, hk, rfl⟩, ?_⟩
      split
      · exact apply_continues hmay.revokedAt k
      · exact .refl k

/-- What a lookup shows is a row of the table. -/
theorem shown_row {e : Act} {a : e.Ans} {k : ApiKey}
    (h : shows ⟨e, (perform e a w).1⟩ = some k) :
    k ∈ w.db.apiKeys.rows ∧ (perform e a w).2 = w := by
  cases e with
  | getApiKey id =>
      cases a with
      | error msg => cases h
      | ok u => exact ⟨(Table.find?_mem h).1, rfl⟩
  | findApiKey hashed =>
      cases a with
      | error msg => cases h
      | ok u => exact ⟨(Table.find?_mem h).1, rfl⟩
  | refreshApiKey id =>
      cases a with
      | error msg => cases h
      | ok u =>
          simp only [perform, replyOr] at h
          cases hfind : w.db.apiKeys.find? fun k => k.id == id with
          | none =>
              rw [hfind] at h
              cases h
          | some k' =>
              rw [hfind] at h
              cases h
              exact ⟨(Table.find?_mem hfind).1, rfl⟩
  | commit pending =>
      exfalso
      revert h
      show shows ⟨.commit pending, (w.commit pending a).1⟩ ≠ some k
      cases (w.commit pending a).1 <;> nofun
  | transactionNow => cases (a : Except String Py.DateTime) <;> cases h
  | verifyOauth2Token token clientId =>
      cases (a : Except GoogleError GoogleClaims) <;> cases h
  | _ => cases h

-- ================================================================== ledger

/-- The log and the rows agree. -/
structure Ledger (env : Env) (w : World) (log : Log sig) (ops : List Op) :
    Prop where
  /-- A thread draws one key. -/
  drew : ∀ {j r r'}, Drew log j r → Drew log j r' → r = r'
  /-- A row once shown is still there. -/
  shown : ∀ {j ev k}, (j, ev) ∈ log → shows ev = some k →
    ∃ row ∈ w.db.apiKeys.rows, Continues k row
  /-- A committed row is there, and was its call's to insert. -/
  kept : ∀ {j ev row}, (j, ev) ∈ log → .insertApiKey row ∈ committed ev →
    ops[j]? = some (.createApiKey row.tenantId)
      ∧ (∃ r, Drew log j r ∧ row.hashedKey = hashKey env r)
      ∧ ∃ row' ∈ w.db.apiKeys.rows, Continues row row'
  /-- A row was issued. -/
  issued : ∀ {row}, row ∈ w.db.apiKeys.rows → ∃ r,
    Issued log ops row.tenantId r row.id ∧ row.hashedKey = hashKey env r
  /-- A row is revoked exactly if its revocation was committed. -/
  revoked : ∀ {row}, row ∈ w.db.apiKeys.rows →
    (row.revokedAt.isSome ↔ Revoked log ops row.id)
  /-- What was revoked is a row. -/
  named : ∀ {id}, Revoked log ops id → ∃ row ∈ w.db.apiKeys.rows, row.id = id

theorem ledger_start : Ledger env World.empty [] [] where
  drew h := nomatch h
  shown h := nomatch h
  kept h := nomatch h
  issued h := nomatch h
  revoked h := nomatch h
  named h := by
    obtain ⟨j, -, ev, set, hmem, -⟩ := h
    cases hmem

theorem Ledger.spawn (h : Ledger env w log ops)
    (hb : ∀ x ∈ log, x.1 < ops.length) (op : Op) :
    Ledger env w log (ops ++ [op]) where
  drew := h.drew
  shown := h.shown
  kept hmem hrow := by
    obtain ⟨hop, hrest⟩ := h.kept hmem hrow
    exact ⟨roster_append_old hop, hrest⟩
  issued hrow := by
    obtain ⟨r, hiss, hhash⟩ := h.issued hrow
    exact ⟨r, hiss.spawn op, hhash⟩
  revoked hrow := by
    rw [revoked_spawn hb]
    exact h.revoked hrow
  named hrev := h.named ((revoked_spawn hb op).mp hrev)

section

variable {e : Act} {a : e.Ans}

theorem Ledger.act_drew (h : Ledger env w log ops)
    (hallow : Allows env op (own i log) e)
    (hr : Drew ((i, ⟨e, (perform e a w).1⟩) :: log) j r)
    (hr' : Drew ((i, ⟨e, (perform e a w).1⟩) :: log) j r') : r = r' := by
  -- a thread that draws has not drawn before
  have hfirst : ∀ {r r'}, (j, ⟨.tokenUrlsafe, .ok r⟩)
      = (i, (⟨e, (perform e a w).1⟩ : Event sig)) → ¬ Drew log j r' := by
    intro r r' heq hdrew
    cases e with
    | tokenUrlsafe =>
        cases heq
        exact hallow r' (mem_own.mpr hdrew)
    | _ => cases heq
  rcases List.mem_cons.mp hr with hnew | hold
  · rcases List.mem_cons.mp hr' with hnew' | hold'
    · have heq := hnew.trans hnew'.symm
      cases heq
      rfl
    · exact absurd hold' (hfirst hnew)
  · rcases List.mem_cons.mp hr' with hnew' | hold'
    · exact absurd hold (hfirst hnew')
    · exact h.drew hold hold'

end

/-- An entitled revocation leaves its row revoked: where nothing is
assigned, the row was revoked when it was loaded. -/
theorem Ledger.revokes_isSome (h : Ledger env w log ops)
    {set : ApiKeyPatch} {k : ApiKey} (hset : Revokes (own i log) k.id set)
    (hk : k ∈ w.db.apiKeys.rows) :
    (set.apply k).revokedAt.isSome = true := by
  obtain ⟨-, loaded, now, hmem, hid, hassign⟩ := hset
  show (set.revokedAt.getD k.revokedAt).isSome = true
  rw [hassign]
  by_cases hsame : some now = loaded.revokedAt
  · obtain ⟨row, hrow, hcont⟩ := h.shown (mem_own.mp hmem) rfl
    obtain rfl := apiKey_unique hrow hk (hcont.id.trans hid)
    have hnone : assign loaded.revokedAt (some now) = none := by
      simp [assign, hsame]
    rw [hnone]
    exact hcont.revoked (by rw [← hsame]; rfl)
  · have hsome : assign loaded.revokedAt (some now) = some (some now) := by
      simp [assign, hsame]
    rw [hsome]
    rfl

section

variable (h : Ledger env w log ops) (hop : ops[i]? = some op)
  (hch : Changed env op (own i log) w ev w')

include h hop hch

theorem Ledger.act_kept {row : ApiKey} (hmem : (j, ev') ∈ (i, ev) :: log)
    (hrow : .insertApiKey row ∈ committed ev') :
    ops[j]? = some (.createApiKey row.tenantId)
      ∧ (∃ r, Drew ((i, ev) :: log) j r ∧ row.hashedKey = hashKey env r)
      ∧ ∃ row' ∈ w'.db.apiKeys.rows, Continues row row' := by
  rcases List.mem_cons.mp hmem with heq | hold
  · cases heq
    cases hch with
    | same hnone _ =>
        obtain ⟨row', heq⟩ := hnone _ hrow
        cases heq
    | @inserted row' hev hmay ht =>
        rw [hev, List.mem_singleton] at hrow
        cases hrow
        obtain ⟨rfl, -, r, hr, hhash⟩ := hmay
        refine ⟨hop, ⟨r, List.mem_cons_of_mem _ (mem_own.mp hr), hhash⟩, ?_⟩
        exact ⟨row, (Table.mem_insert? ht).mpr (.inr rfl), .refl row⟩
    | updated hev _ _ =>
        rw [hev, List.mem_singleton] at hrow
        cases hrow
  · obtain ⟨hop', ⟨r, hr, hhash⟩, row', hrow', hcont⟩ := h.kept hold hrow
    obtain ⟨row'', hrow'', hcont'⟩ := hch.continues hrow'
    exact ⟨hop', ⟨r, List.mem_cons_of_mem _ hr, hhash⟩, row'', hrow'',
      hcont.trans hcont'⟩

theorem Ledger.act_issued {row : ApiKey} (hrow : row ∈ w'.db.apiKeys.rows) :
    ∃ r, Issued ((i, ev) :: log) ops row.tenantId r row.id
      ∧ row.hashedKey = hashKey env r := by
  have hold : ∀ {k}, k ∈ w.db.apiKeys.rows → Continues k row → ∃ r,
      Issued ((i, ev) :: log) ops row.tenantId r row.id
        ∧ row.hashedKey = hashKey env r := by
    intro k hk hcont
    obtain ⟨r, hiss, hhash⟩ := h.issued hk
    rw [hcont.id, hcont.tenantId, hcont.hashedKey]
    exact ⟨r, hiss.cons _, hhash⟩
  cases hch with
  | same _ hsame =>
      rw [hsame] at hrow
      exact hold hrow (.refl row)
  | @inserted row' hev hmay ht =>
      rcases (Table.mem_insert? ht).mp hrow with hin | rfl
      · exact hold hin (.refl row)
      · obtain ⟨rfl, -, r, hr, hhash⟩ := hmay
        refine ⟨r, ⟨i, hop, List.mem_cons_of_mem _ (mem_own.mp hr), ev, row,
          List.mem_cons_self .., ?_, rfl⟩, hhash⟩
        rw [hev]
        exact List.mem_singleton.mpr rfl
  | updated _ hmay ht =>
      obtain ⟨k, hk, rfl⟩ := (Table.mem_update? ht).mp hrow
      refine hold hk ?_
      split
      · exact apply_continues hmay.revokedAt k
      · exact .refl k

/-- A revocation names a row that was shown. -/
theorem Ledger.act_named (hrev : Revoked ((i, ev) :: log) ops id) :
    ∃ row ∈ w'.db.apiKeys.rows, row.id = id := by
  have hrow : ∃ row ∈ w.db.apiKeys.rows, row.id = id := by
    rcases revoked_cons.mp hrev with hold | ⟨hop', set, hset⟩
    · exact h.named hold
    · rw [hop, Option.some.injEq] at hop'
      subst hop'
      cases hch with
      | same hnone _ =>
          obtain ⟨row, heq⟩ := hnone _ hset
          cases heq
      | inserted hev _ _ =>
          rw [hev, List.mem_singleton] at hset
          cases hset
      | updated hev hmay _ =>
          rw [hev, List.mem_singleton] at hset
          cases hset
          rcases hmay with ⟨-, -, k, now, hk, hid, -⟩ | ⟨r, heq, -⟩
          · obtain ⟨row, hrow, hcont⟩ := h.shown (mem_own.mp hk) rfl
            exact ⟨row, hrow, hcont.id.trans hid⟩
          · cases heq
  obtain ⟨row, hrow, rfl⟩ := hrow
  obtain ⟨row', hrow', hcont⟩ := hch.continues hrow
  exact ⟨row', hrow', hcont.id⟩

theorem Ledger.act_revoked {row : ApiKey} (hrow : row ∈ w'.db.apiKeys.rows) :
    row.revokedAt.isSome ↔ Revoked ((i, ev) :: log) ops row.id := by
  rw [revoked_cons]
  cases hch with
  | same hnone hsame =>
      rw [hsame] at hrow
      have hno : ¬ ∃ set, .updateApiKey row.id set ∈ committed ev := by
        intro hset
        obtain ⟨set, hset⟩ := hset
        obtain ⟨row', heq⟩ := hnone _ hset
        cases heq
      rw [h.revoked hrow]
      simp [hno]
  | @inserted row' hev hmay ht =>
      have hno : ¬ ∃ set, .updateApiKey row.id set ∈ committed ev := by
        simp [hev]
      rcases (Table.mem_insert? ht).mp hrow with hin | rfl
      · rw [h.revoked hin]
        simp [hno]
      · -- a new row: no revocation can name it yet
        have hnew : ¬ Revoked log ops row.id := by
          intro hrev
          obtain ⟨k, hk, hid⟩ := h.named hrev
          have hclash := (Table.insert?_valid ht).2 k hk
          simp [apiKeySchema, hid] at hclash
        have hnone : row.revokedAt = none := hmay.2.1
        simp [hnew, hno, hnone]
  | @updated id set hev hmay ht =>
      obtain ⟨k, hk, rfl⟩ := (Table.mem_update? ht).mp hrow
      split
      next hid =>
        rw [beq_iff_eq] at hid
        subst hid
        have hin : ∃ set', .updateApiKey (set.apply k).id set' ∈ committed ev :=
          ⟨set, by rw [hev]; exact List.mem_singleton.mpr rfl⟩
        rcases hmay with ⟨rfl, hset⟩ | ⟨r, rfl, hnone, -⟩
        · have hsome := h.revokes_isSome hset hk
          exact ⟨fun _ => .inr ⟨hop, hin⟩, fun _ => hsome⟩
        · have hsame : (set.apply k).revokedAt = k.revokedAt := by
            show set.revokedAt.getD k.revokedAt = k.revokedAt
            rw [hnone]
            rfl
          have hother : ops[i]? ≠ some (.revokeApiKey (set.apply k).id) := by
            rw [hop]
            intro heq
            cases heq
          rw [hsame, h.revoked hk]
          simp only [hother, false_and, or_false]
          rfl
      next hid =>
        have hno : ¬ ∃ set', .updateApiKey k.id set' ∈ committed ev := by
          rw [hev]
          intro hset
          obtain ⟨set', hset⟩ := hset
          rw [List.mem_singleton] at hset
          cases hset
          simp at hid
        rw [h.revoked hk]
        simp [hno]

end

/-- An issued key has a row. -/
theorem Ledger.row_of_issued (h : Ledger env w log ops)
    (hiss : Issued log ops t r id) : ∃ row ∈ w.db.apiKeys.rows,
      row.id = id ∧ row.tenantId = t ∧ row.hashedKey = hashKey env r := by
  obtain ⟨j, hop, hdrew, ev, inserted, hev, hins, rfl⟩ := hiss
  obtain ⟨hop', ⟨r', hdrew', hhash⟩, row, hrow, hcont⟩ := h.kept hev hins
  obtain rfl := h.drew hdrew hdrew'
  rw [hop, Option.some.injEq] at hop'
  cases hop'
  exact ⟨row, hrow, hcont.id, hcont.tenantId, hcont.hashedKey.trans hhash⟩

/-- Every entitled action keeps the ledger. -/
theorem Ledger.act {e : Act} {a : e.Ans} (h : Ledger env w log ops)
    (hop : ops[i]? = some op) (hallow : Allows env op (own i log) e) :
    Ledger env (perform e a w).2 ((i, ⟨e, (perform e a w).1⟩) :: log) ops := by
  have hch := changed (w := w) (a := a) hallow
  exact {
    drew := h.act_drew hallow
    shown := by
      intro j ev k hmem hk
      rcases List.mem_cons.mp hmem with heq | hold
      · cases heq
        obtain ⟨hrow, hw⟩ := shown_row hk
        exact ⟨k, by rw [hw]; exact hrow, .refl k⟩
      · obtain ⟨row, hrow, hcont⟩ := h.shown hold hk
        obtain ⟨row', hrow', hcont'⟩ := hch.continues hrow
        exact ⟨row', hrow', hcont.trans hcont'⟩
    kept := fun hmem hrow => h.act_kept hop hch hmem hrow
    issued := fun hrow => h.act_issued hop hch hrow
    revoked := fun hrow => h.act_revoked hop hch hrow
    named := fun hrev => h.act_named hop hch hrev }

theorem ledger_keeps : (rights env).Keeps (Ledger env) where
  spawn op h hb := h.spawn hb op
  act h hop _ hallow := h.act hop hallow
  env k := nomatch k

/-- In every reachable state the log and the rows agree, and every thread
is within its rights. -/
theorem reachable_holds {s : Sys (service env)} (hs : Reachable env s) :
    (rights env).Holds (Ledger env) s :=
  Rights.invariant respected (fun _ => rfl) ledger_keeps ledger_start hs

end ResumeScreening.Accounts
