/-
How a tenant comes into the table.

The admin route, the password registration and the Google sign-up end
alike: a row is drawn, committed and read back (`storeTenant`). `Stores`
says once how that can go, from any table and under any failures: no row
is stored, a row is stored and not answered, or it is the answer. What
keeps a row out of the table is named: a failed action, or a constraint.
-/
import ResumeScreening.Lib.Recorded
import ResumeScreening.Model.Auth

namespace ResumeScreening.Accounts.SignUp

open Effect Prog
open Py (DateTime)

variable {env : Env} {w w' : World} {as : List (Given machine)}
  {row : UUID → DateTime → TenantRow}

-- ================================================================= answers

/-- The commit took effect, whatever it replied. -/
def lands (db : Db) : Given machine → Bool
  | ⟨.commit pending, (a : Fate)⟩ =>
      a.applied && (db.writeAll pending).isSome
  | _ => false

/-- The row was read back. -/
abbrev readsBack (id : UUID) : Given machine :=
  ⟨.refreshTenant id, (.ok () : Except String Unit)⟩

/-- An action of a store, or Google's verification, that failed. -/
def fails : Given machine → Bool
  | ⟨.commit _, (a : Fate)⟩ => decide (a ≠ .ok)
  | ⟨.transactionNow, (a : Except String DateTime)⟩ => !a.isOk
  | ⟨.verifyOauth2Token .., (a : Except GoogleError GoogleClaims)⟩ => !a.isOk
  | ⟨.getTenant _, (a : Except String Unit)⟩ => !a.isOk
  | ⟨.selectTenantByEmail _, (a : Except String Unit)⟩ => !a.isOk
  | ⟨.selectTenantByGoogleSub _, (a : Except String Unit)⟩ => !a.isOk
  | ⟨.getApiKey _, (a : Except String Unit)⟩ => !a.isOk
  | ⟨.findApiKey _, (a : Except String Unit)⟩ => !a.isOk
  | ⟨.refreshTenant _, (a : Except String Unit)⟩ => !a.isOk
  | ⟨.refreshApiKey _, (a : Except String Unit)⟩ => !a.isOk
  | _ => false

-- ================================================================ the program

/-- Draw a row, commit it, read it back. -/
def storeTenant (row : UUID → DateTime → TenantRow) : Py TenantRow := do
  let now ← call .transactionNow
  let id ← call .uuid4
  call (.commit [.insertTenant (row id now)])
  call (.refreshTenant id)

theorem createTenant_eq (name : String) :
    createTenant name
      = storeTenant fun id now => { id := id, name := name, createdAt := now } :=
  rfl

theorem registerWithPassword_eq (email password : String) :
    registerWithPassword env email password
      = (call (.selectTenantByEmail email)).bind fun
        | some _ => raise
            (.resourceConflict "An account with this email already exists.")
        | none => (call .gensalt).bind fun salt =>
            (library (env.hashpw password salt)).bind fun hashedPassword =>
              storeTenant (registeredTenant email hashedPassword) := rfl

/-- Password sign-in once the row is looked up. -/
def checkTenant (env : Env) (password : String) :
    Option TenantRow → Py TenantRow
  | none => raise invalidLogin
  | some tenant =>
      match tenant.hashedPassword with
      | none => raise invalidLogin
      | some hashedPassword =>
          (library (env.checkpw password hashedPassword)).bind fun verified =>
            if verified then ret tenant else raise invalidLogin

theorem authenticateWithPassword_eq (email password : String) :
    authenticateWithPassword env email password
      = (call (.selectTenantByEmail email)).bind (checkTenant env password) := by
  unfold authenticateWithPassword
  refine congrArg (Prog.bind _) (funext fun found => ?_)
  cases found with
  | none => rfl
  | some tenant => rfl

/-- Google sign-in once the claims' `sub` is read. -/
def findOrStore (googleSub email : String) : Py TenantRow :=
  (call (.selectTenantByGoogleSub googleSub)).bind fun
    | some tenant => ret tenant
    | none => storeTenant (googleTenant googleSub email)

theorem registerOrLoginWithGoogle_eq (googleIdToken : String) :
    registerOrLoginWithGoogle env googleIdToken
      = if env.googleOauthClientId = "" then raise
          (.resourceNotFound "Google sign-in is not configured on this server.")
        else (call (.verifyOauth2Token googleIdToken
          env.googleOauthClientId)).bind fun claims =>
            match claims.sub with
            | none => raise (.keyError "sub")
            | some googleSub => findOrStore googleSub (claims.email.getD "") := by
  unfold registerOrLoginWithGoogle findOrStore storeTenant
  rfl

theorem uses_library {α : Type} (q : Act → Prop) (r : Except LibraryError α) :
    (library r).Uses q := by
  cases r <;> trivial

theorem uses_storeTenant {q : Act → Prop} (hclock : q .transactionNow)
    (hid : q .uuid4) (hcommit : ∀ pending, q (.commit pending))
    (hread : ∀ id, q (.refreshTenant id))
    (row : UUID → DateTime → TenantRow) : (storeTenant row).Uses q := by
  refine uses_bind ((uses_perform _ _).mpr hclock) fun now => ?_
  refine uses_bind ((uses_perform _ _).mpr hid) fun id => ?_
  refine uses_bind ((uses_perform _ _).mpr (hcommit _)) fun _ => ?_
  exact (uses_perform _ _).mpr (hread id)

/-- The check performs nothing. -/
theorem uses_checkTenant (q : Act → Prop) (password : String)
    (found : Option TenantRow) : (checkTenant env password found).Uses q := by
  cases found with
  | none => trivial
  | some tenant =>
      simp only [checkTenant]
      split
      · trivial
      · refine uses_bind (uses_library _ _) fun verified => ?_
        cases verified <;> trivial

-- ===================================================================== reads

/-- A read in front: it is not answered, and nothing is returned, or the
rest goes on with the value read. -/
theorem went_read {β : Type} {e : Act} {R : e.Ans → e.Ret → Prop}
    {f : e.Ret → Py β} {r : Option (Except Exn β)}
    (hread : ∀ a, (fails ⟨e, a⟩ = true
        ∧ ∃ x, machine.perform e a w = (.error x, w))
      ∨ ∃ v, R a v ∧ machine.perform e a w = (.ok v, w))
    (h : Went machine ((call e).bind f) w as r w') :
    ((r = none ∨ Saw fails as) ∧ (∀ b, r ≠ some (.ok b)) ∧ w' = w)
      ∨ ∃ a v as', R a v ∧ as = ⟨e, a⟩ :: as'
        ∧ Went machine (f v) w as' r w' := by
  rcases h.call with ⟨rfl, rfl, rfl⟩ | ⟨a, as', -, rfl, hafter⟩
  · exact .inl ⟨.inl rfl, by simp, rfl⟩
  rcases hread a with ⟨hfails, x, hstep⟩ | ⟨v, hv, hstep⟩
  · rw [hstep] at hafter
    obtain ⟨y, -, rfl, rfl, rfl⟩ | ⟨v, hv, -⟩ := hafter
    · exact .inl ⟨.inr (by simp [hfails]), by simp, rfl⟩
    · cases hv
  · rw [hstep] at hafter
    obtain ⟨y, hy, -⟩ | ⟨v', hv', h⟩ := hafter
    · cases hy
    · cases hv'
      exact .inr ⟨a, v, as', hv, rfl, h⟩

/-- A lookup by email reads what the table has. -/
theorem went_byEmail {β : Type} {email : String}
    {f : Option TenantRow → Py β} {r : Option (Except Exn β)}
    (h : Went machine ((call (.selectTenantByEmail email)).bind f) w as r w') :
    ((r = none ∨ Saw fails as) ∧ (∀ b, r ≠ some (.ok b)) ∧ w' = w)
      ∨ ∃ a as', as = ⟨.selectTenantByEmail email, a⟩ :: as'
        ∧ Went machine (f (w.db.tenants.find? fun t => t.email == some email))
          w as' r w' := by
  have hread : ∀ a : Except String Unit,
      (fails ⟨.selectTenantByEmail email, a⟩ = true ∧ ∃ x,
        machine.perform (.selectTenantByEmail email) a w = (.error x, w))
      ∨ ∃ v, v = (w.db.tenants.find? fun t => t.email == some email)
        ∧ machine.perform (.selectTenantByEmail email) a w = (.ok v, w) := by
    intro a
    cases a with
    | ok u => exact .inr ⟨_, rfl, rfl⟩
    | error msg => exact .inl ⟨rfl, _, rfl⟩
  rcases went_read hread h with hno | ⟨a, v, as', rfl, has, h⟩
  · exact .inl hno
  · exact .inr ⟨a, as', has, h⟩

-- =================================================================== its ends

/-- The row came into the table under a fresh identifier. -/
structure Inserted (row : UUID → DateTime → TenantRow) (w : World) (id : UUID)
    (now : DateTime) (w' : World) : Prop where
  fresh : id ∉ w.usedIds
  inserted : w.db.tenants.insert? (row id now) = some w'.db.tenants
  used : w'.usedIds = id :: w.usedIds

/-- Why nothing was stored: the process died, an action failed, or the
table does not take the row. -/
def Refused (row : UUID → DateTime → TenantRow) (w : World)
    (as : List (Given machine)) (r : Option (Except Exn TenantRow)) : Prop :=
  r = none ∨ Saw fails as ∨ ∃ id now, id ∉ w.usedIds
    ∧ w.db.tenants.insert? (row id now) = none
    ∧ r = some (.error (.commitFailed "IntegrityError or DataError"))

/-- How storing a row goes. -/
inductive Stores (row : UUID → DateTime → TenantRow) (w : World)
    (as : List (Given machine)) :
    Option (Except Exn TenantRow) → World → Prop
  | kept {r w'} : ¬ Saw (lands w.db) as → w'.db = w.db →
      w.usedIds ⊆ w'.usedIds → (∀ t, r ≠ some (.ok t)) →
      Refused row w as r → Stores row w as r w'
  | unread {id now r w'} : Saw (lands w.db) as → Inserted row w id now w' →
      (∀ id', readsBack id' ∉ as) → (∀ t, r ≠ some (.ok t)) →
      r = none ∨ Saw fails as → Stores row w as r w'
  | stored {id now w'} : Saw (lands w.db) as → Inserted row w id now w' →
      (∀ id', readsBack id' ∈ as ↔ id' = id) →
      Stores row w as (some (.ok (row id now))) w'

/-- What is answered in front without a commit or a read. -/
theorem Stores.behind {r : Option (Except Exn TenantRow)}
    (h : Stores row w as r w') {as₀ : List (Given machine)}
    (hland : ¬ Saw (lands w.db) as₀) (hread : ∀ id, readsBack id ∉ as₀) :
    Stores row w (as₀ ++ as) r w' := by
  have hfails : Saw fails as → Saw fails (as₀ ++ as) := by
    intro hf
    simp [hf]
  cases h with
  | kept hno hdb hused hr hwhy =>
      refine .kept (by simp [hland, hno]) hdb hused hr ?_
      exact hwhy.imp_right fun hwhy => hwhy.imp_left hfails
  | unread hyes hnew hno hr hwhy =>
      exact .unread (by simp [hyes]) hnew (by simp [hread, hno]) hr
        (hwhy.imp_right hfails)
  | stored hyes hnew hback =>
      exact .stored (by simp [hyes]) hnew (by simp [hread, hback])

theorem writeAll_insertTenant {db : Db} {t : TenantRow} :
    db.writeAll [.insertTenant t]
      = (db.tenants.insert? t).map fun table => { db with tenants := table } := by
  simp only [Db.writeAll, Db.write]
  cases db.tenants.insert? t <;> rfl

/-- The commit of a row: a constraint rejects it, it fails, it takes effect
and its reply is lost, or it takes effect. -/
theorem commit_row (w : World) (t : TenantRow) (a : Fate) :
    (w.db.tenants.insert? t = none
        ∧ lands w.db ⟨.commit [.insertTenant t], a⟩ = false
        ∧ w.commit [.insertTenant t] a
          = (.error (.commitFailed "IntegrityError or DataError"), w))
      ∨ ∃ table, w.db.tenants.insert? t = some table
        ∧ ((∃ x, a ≠ .ok ∧ lands w.db ⟨.commit [.insertTenant t], a⟩ = false
              ∧ w.commit [.insertTenant t] a = (.error x, w))
          ∨ (∃ x, a ≠ .ok ∧ lands w.db ⟨.commit [.insertTenant t], a⟩ = true
              ∧ w.commit [.insertTenant t] a
                = (.error x, { w with db := { w.db with tenants := table } }))
          ∨ lands w.db ⟨.commit [.insertTenant t], a⟩ = true
              ∧ w.commit [.insertTenant t] a
                = (.ok (), { w with db := { w.db with tenants := table } })) := by
  unfold World.commit lands
  simp only [writeAll_insertTenant]
  cases w.db.tenants.insert? t with
  | none => exact .inl ⟨rfl, by simp, rfl⟩
  | some table =>
      refine .inr ⟨table, rfl, ?_⟩
      cases a with
      | ok => exact .inr (.inr ⟨rfl, rfl⟩)
      | failed msg => exact .inl ⟨_, nofun, rfl, rfl⟩
      | lostReply msg => exact .inr (.inl ⟨_, nofun, rfl, rfl⟩)

/-- A row just inserted is the one read back. -/
theorem Inserted.found (hid : ∀ id now, (row id now).id = id) {id : UUID}
    {now : DateTime} (h : Inserted row w id now w') :
    (w'.db.tenants.find? fun t => t.id == id) = some (row id now) := by
  have hmem : row id now ∈ w'.db.tenants.rows :=
    (Relational.Table.mem_insert? h.inserted).mpr (.inr rfl)
  cases hf : w'.db.tenants.find? fun t => t.id == id with
  | none =>
      rw [Relational.Table.find?, List.find?_eq_none] at hf
      exact absurd (hid id now) (by simpa using hf _ hmem)
  | some t =>
      obtain ⟨ht, hp⟩ := Relational.Table.find?_mem hf
      rw [beq_iff_eq] at hp
      refine congrArg some (w'.db.tenants.eq_of_clash ht hmem ?_)
      simp [tenantSchema, hp, hid]

section

variable {id : UUID} {now : DateTime} {r : Option (Except Exn TenantRow)}

/-- From the read on: the row is the answer, or it is not read. -/
theorem reading_ends (hid : ∀ id now, (row id now).id = id) {a : Fate}
    {w₁ : World}
    (hland : lands w.db ⟨.commit [.insertTenant (row id now)], a⟩ = true)
    (hnew : Inserted row w id now w₁)
    (h : Went machine (call (.refreshTenant id)) w₁ as r w') :
    Stores row w (⟨.commit [.insertTenant (row id now)], a⟩ :: as) r w' := by
  rcases h.perform with ⟨rfl, rfl, rfl⟩ | ⟨b, -, rfl, rfl, rfl⟩
  · exact .unread (by simp [hland]) hnew (by simp) (fun _ => nofun) (.inl rfl)
  · cases hb : (b : Except String Unit) with
    | error msg =>
        refine .unread (by simp [hland]) hnew ?_ ?_ (.inr ?_)
        · simp
        · intro t ht
          cases ht
        · simp [fails, Except.isOk, Except.toBool]
    | ok u =>
        show Stores row w _
          (some (replyOr (w'.db.tenants.find? fun t => t.id == id) (.ok u))) _
        rw [hnew.found hid]
        exact .stored (by simp [hland]) hnew (by simp)

/-- From the commit on. -/
theorem committing_ends (hid : ∀ id now, (row id now).id = id)
    (hfresh : id ∉ w.usedIds)
    (h : Went machine ((call (.commit [.insertTenant (row id now)])).bind
      fun _ => call (.refreshTenant id))
      { w with usedIds := id :: w.usedIds } as r w') :
    Stores row w as r w' := by
  have hkeep : w.usedIds ⊆ id :: w.usedIds := List.subset_cons_self _ _
  rcases h.call with ⟨rfl, rfl, rfl⟩ | ⟨a, as₂, -, rfl, hrest⟩
  · exact .kept (by simp) rfl hkeep (fun _ => nofun) (.inl rfl)
  have hstep : machine.perform (.commit [.insertTenant (row id now)]) a
      { w with usedIds := id :: w.usedIds }
      = World.commit { w with usedIds := id :: w.usedIds }
        [.insertTenant (row id now)] a := rfl
  have hfails : a ≠ Fate.ok → ∀ as, Saw fails
      (⟨.commit [.insertTenant (row id now)], a⟩ :: as : List (Given machine)) := by
    intro ha as
    simp [fails, ha]
  rw [hstep] at hrest
  rcases commit_row { w with usedIds := id :: w.usedIds } (row id now) a with
    ⟨hins, hland, hcommit⟩ | ⟨table, hins, ⟨x, ha, hland, hcommit⟩
      | ⟨x, ha, hland, hcommit⟩ | ⟨hland, hcommit⟩⟩ <;>
    rw [hcommit] at hrest <;> replace hland : lands w.db _ = _ := hland
  · obtain ⟨x, hx, rfl, rfl, rfl⟩ | ⟨v, hv, -⟩ := hrest
    · cases hx
      refine .kept (by simp [hland]) rfl hkeep (fun _ => nofun) ?_
      exact .inr (.inr ⟨id, now, hfresh, hins, rfl⟩)
    · cases hv
  · obtain ⟨y, hy, rfl, rfl, rfl⟩ | ⟨v, hv, -⟩ := hrest
    · exact .kept (by simp [hland]) rfl hkeep (fun _ => nofun)
        (.inr (.inl (hfails ha _)))
    · cases hv
  · obtain ⟨y, hy, rfl, rfl, rfl⟩ | ⟨v, hv, -⟩ := hrest
    · exact .unread (by simp [hland]) ⟨hfresh, hins, rfl⟩ (by simp)
        (fun _ => nofun) (.inr (hfails ha _))
    · cases hv
  · obtain ⟨y, hy, -⟩ | ⟨v, -, hread⟩ := hrest
    · cases hy
    · exact reading_ends hid hland ⟨hfresh, hins, rfl⟩ hread

/-- Storing a row ends one of three ways. -/
theorem storeTenant_ends (hid : ∀ id now, (row id now).id = id)
    (h : Went machine (storeTenant row) w as r w') : Stores row w as r w' := by
  have hsame : ∀ a : Except String DateTime,
      (machine.perform .transactionNow a w).2 = w := by
    intro a
    cases a <;> rfl
  rcases h.call with ⟨rfl, rfl, rfl⟩ | ⟨a, as₁, -, rfl, hrest⟩
  · exact .kept (by simp) rfl (List.Subset.refl _) (fun _ => nofun) (.inl rfl)
  rw [hsame] at hrest
  obtain ⟨x, hx, rfl, rfl, rfl⟩ | ⟨now, hnow, h⟩ := hrest
  · refine .kept (by simp [lands]) rfl (List.Subset.refl _) (fun _ => nofun)
      (.inr (.inl ?_))
    cases (a : Except String DateTime) with
    | ok now => cases hx
    | error msg => simp [fails, Except.isOk, Except.toBool]
  rcases h.call with ⟨rfl, rfl, rfl⟩ | ⟨id, as₂, hadm, rfl, hrest⟩
  · exact .kept (by simp [lands]) rfl (List.Subset.refl _) (fun _ => nofun)
      (.inl rfl)
  have hfresh : (id : UUID) ∉ w.usedIds := by simpa [admits] using hadm
  obtain ⟨x, hx, -⟩ | ⟨v, hv, h⟩ := hrest
  · cases hx
  cases hv
  show Stores row w ([⟨.transactionNow, a⟩, ⟨.uuid4, id⟩] ++ as₂) r w'
  exact (committing_ends hid hfresh h).behind (by simp [lands]) (by simp)

end

-- ================================================================ an outside

def sampleSalt : String := "$2b$12$abcdefghijklmnopqrstuu"

/-- The hash of `correct horse` under the sample salt. -/
def sampleHash : String :=
  "$2b$12$abcdefghijklmnopqrstuuFDJRuYeKkCzo3Wy7h8SxhBSHBAHiPK2"

/-- The choices of an outside where, unless said otherwise, nothing
fails. -/
structure Choices where
  id : UUID := UUID.ofNat 0
  commit : Fate := .ok
  claims : GoogleClaims := ⟨none, none⟩

def Choices.answer (c : Choices) : (e : Act) → e.Ans
  | .getTenant .. => .ok ()
  | .selectTenantByEmail .. => .ok ()
  | .selectTenantByGoogleSub .. => .ok ()
  | .getApiKey .. => .ok ()
  | .findApiKey .. => .ok ()
  | .transactionNow => .ok DateTime.epoch
  | .commit .. => c.commit
  | .refreshTenant .. => .ok ()
  | .refreshApiKey .. => .ok ()
  | .uuid4 => c.id
  | .utcNow => DateTime.epoch
  | .tokenUrlsafe => "key"
  | .gensalt => sampleSalt
  | .verifyOauth2Token .. => .ok c.claims

/-- The same choices for every action. -/
def Choices.oracle (c : Choices) : Oracle machine := fun _ e =>
  some (c.answer e)

/-- Google sign-in is configured, and no token secret. The one password
that is registered is `correct horse`. -/
def unsigned : Env where
  jwtExpiryMinutes_pos := dayMinutes_pos
  googleOauthClientId := "client"
  sha256Hex rawKey := rawKey
  jwtDecode _ _ _ := .error (.invalidToken "Not enough segments")
  jwtEncode _ _ := .error (.other "InvalidKeyError")
  hashpw _ _ := .ok sampleHash
  checkpw password hashed :=
    .ok (password == "correct horse" && hashed == sampleHash)

end ResumeScreening.Accounts.SignUp
