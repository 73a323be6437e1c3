/-
Accounts and the calls that opened them.

A row of `tenants` is never changed and never removed, so the table is
exactly what the calls of the log have committed to it. `Books` ties the
two: a row was opened by one call, a call opens one row, and what a call
was shown is a row still. The credential a token was answered to is then
a column of its account's row, and the row says who stored it.
-/
import ResumeScreening.Sessions.Rights

namespace ResumeScreening.Accounts.Sessions

open Effect
open Relational (Table)

variable {env : Env} {op : Op} {w w' : World} {log : Log sig} {ops : List Op}
  {i j : Nat} {ev ev' : Event sig} {t t' : TenantRow}

-- ========================================================= reading the log

/-- The row of `tenants` an event showed. -/
def showsTenant : Event sig → Option TenantRow
  | ⟨.getTenant _, .ok t⟩ => t
  | ⟨.selectTenantByEmail _, .ok t⟩ => t
  | ⟨.selectTenantByGoogleSub _, .ok t⟩ => t
  | ⟨.refreshTenant _, .ok t⟩ => some t
  | _ => none

/-- Call `i` has committed the row. -/
def Stored (log : Log sig) (i : Nat) (t : TenantRow) : Prop :=
  ∃ ev, (i, ev) ∈ log ∧ .insertTenant t ∈ committed ev

theorem Stored.cons (h : Stored log i t) (x : Nat × Event sig) :
    Stored (x :: log) i t := by
  obtain ⟨ev, hmem, hrow⟩ := h
  exact ⟨ev, List.mem_cons_of_mem _ hmem, hrow⟩

theorem stored_cons (h : Stored ((i, ev) :: log) j t) :
    (j = i ∧ .insertTenant t ∈ committed ev) ∨ Stored log j t := by
  obtain ⟨ev', hmem, hrow⟩ := h
  rcases List.mem_cons.mp hmem with heq | hold
  · cases heq
    exact .inl ⟨rfl, hrow⟩
  · exact .inr ⟨ev', hold, hrow⟩

/-- What an event committed is its commit's. -/
theorem committed_act {x : Write} (h : x ∈ committed ev) :
    ∃ pending, ev.act = .commit pending ∧ x ∈ pending := by
  obtain ⟨e, r⟩ := ev
  cases e with
  | commit pending =>
      refine ⟨pending, rfl, ?_⟩
      cases r with
      | ok u => exact h
      | error y =>
          cases y with
          | replyLost msg => exact h
          | _ => cases h
  | _ => cases h

-- ================================================================ one action

/-- What an entitled action does to the tables. -/
inductive Did (env : Env) (op : Op) (K : List (Event sig)) (w : World)
    (ev : Event sig) (w' : World) : Prop
  | same : committed ev = [] → w'.db = w.db → Did env op K w ev w'
  | opened {row : TenantRow} {rows : Table tenantSchema} :
      committed ev = [.insertTenant row] → Opens env K op row →
      w.db.tenants.insert? row = some rows →
      w'.db = { w.db with tenants := rows } → Did env op K w ev w'
  | keys {x : Write} {rows : Table apiKeySchema} : committed ev = [x] →
      (∀ row, x ≠ .insertTenant row) →
      (∀ k ∈ rows.rows, (∃ k₀ ∈ w.db.apiKeys.rows, k₀.tenantId = k.tenantId)
        ∨ ∃ t ∈ w.db.tenants.rows, t.id = k.tenantId) →
      w'.db = { w.db with apiKeys := rows } → Did env op K w ev w'

theorem did_write {K : List (Event sig)} {db : Db} {x : Write}
    (hopens : ∀ row, x = .insertTenant row → Opens env K op row)
    (hev : committed ev = [x]) (hdb : w.db.write x = some db) :
    Did env op K w ev { w with db := db } := by
  cases x with
  | insertTenant row =>
      obtain ⟨rows, hrows, rfl⟩ := Option.map_eq_some_iff.mp hdb
      exact .opened hev (hopens row rfl) hrows rfl
  | insertApiKey row =>
      simp only [Db.write] at hdb
      split at hdb
      next htenant =>
        obtain ⟨rows, hrows, rfl⟩ := Option.map_eq_some_iff.mp hdb
        refine .keys hev (fun row h => by cases h) (fun k hk => ?_) rfl
        rcases (Table.mem_insert? hrows).mp hk with hold | rfl
        · exact .inl ⟨k, hold, rfl⟩
        · obtain ⟨t, ht⟩ := Option.isSome_iff_exists.mp htenant
          obtain ⟨hmem, hid⟩ := Table.find?_mem ht
          exact .inr ⟨t, hmem, by simpa using hid⟩
      next => cases hdb
  | updateApiKey id set =>
      obtain ⟨rows, hrows, rfl⟩ := Option.map_eq_some_iff.mp hdb
      refine .keys hev (fun row h => by cases h) (fun k hk => ?_) rfl
      obtain ⟨k₀, hk₀, rfl⟩ := (Table.mem_update? hrows).mp hk
      refine .inl ⟨k₀, hk₀, ?_⟩
      split <;> rfl

theorem did {K : List (Event sig)} {e : Act} {a : e.Ans}
    (hallow : Allows env op K e) :
    Did env op K w ⟨e, (perform e a w).1⟩ (perform e a w).2 := by
  cases e with
  | commit pending =>
      obtain ⟨-, x, rfl, hopens⟩ := hallow
      show Did env op K w ⟨.commit [x], (w.commit [x] a).1⟩ (w.commit [x] a).2
      rcases commit_fate w [x] a with ⟨hev, hw⟩ | ⟨db, hdb, hev, hw⟩
      · rw [hw]
        exact .same hev rfl
      · rw [hw]
        exact did_write hopens hev (writeAll_one hdb)
  | transactionNow => cases (a : Except String Py.DateTime) <;> exact .same rfl rfl
  | verifyOauth2Token token clientId =>
      cases (a : Except GoogleError GoogleClaims) <;> exact .same rfl rfl
  | _ => exact .same rfl rfl

/-- What a lookup shows is a row of the table. -/
theorem shown_tenant {e : Act} {a : e.Ans}
    (h : showsTenant ⟨e, (perform e a w).1⟩ = some t) :
    t ∈ w.db.tenants.rows ∧ (perform e a w).2 = w := by
  cases e with
  | getTenant id =>
      cases a with
      | error msg => cases h
      | ok u => exact ⟨(Table.find?_mem h).1, rfl⟩
  | selectTenantByEmail email =>
      cases a with
      | error msg => cases h
      | ok u => exact ⟨(Table.find?_mem h).1, rfl⟩
  | selectTenantByGoogleSub sub =>
      cases a with
      | error msg => cases h
      | ok u => exact ⟨(Table.find?_mem h).1, rfl⟩
  | refreshTenant id =>
      cases a with
      | error msg => cases h
      | ok u =>
          simp only [perform, replyOr] at h
          cases hfind : w.db.tenants.find? fun t => t.id == id with
          | none =>
              rw [hfind] at h
              cases h
          | some row =>
              rw [hfind] at h
              cases h
              exact ⟨(Table.find?_mem hfind).1, rfl⟩
  | commit pending =>
      exfalso
      revert h
      show showsTenant ⟨.commit pending, (w.commit pending a).1⟩ ≠ some t
      cases (w.commit pending a).1 <;> simp [showsTenant]
  | transactionNow => cases (a : Except String Py.DateTime) <;> cases h
  | verifyOauth2Token token clientId =>
      cases (a : Except GoogleError GoogleClaims) <;> cases h
  | _ => cases h

section

variable {K : List (Event sig)} (h : Did env op K w ev w')

include h

/-- No row is changed or lost. -/
theorem Did.kept (ht : t ∈ w.db.tenants.rows) : t ∈ w'.db.tenants.rows := by
  cases h with
  | same _ hdb => rw [hdb]; exact ht
  | opened _ _ hrows hdb =>
      rw [hdb]
      exact (Table.mem_insert? hrows).mpr (.inl ht)
  | keys _ _ _ hdb => rw [hdb]; exact ht

/-- A row there is an old one, or the one the action committed. -/
theorem Did.rows (ht : t ∈ w'.db.tenants.rows) : t ∈ w.db.tenants.rows
    ∨ (.insertTenant t ∈ committed ev ∧ Opens env K op t) := by
  cases h with
  | same _ hdb =>
      rw [hdb] at ht
      exact .inl ht
  | opened hev hopens hrows hdb =>
      rw [hdb] at ht
      rcases (Table.mem_insert? hrows).mp ht with hold | rfl
      · exact .inl hold
      · exact .inr ⟨by rw [hev]; exact List.mem_singleton.mpr rfl, hopens⟩
  | keys _ _ _ hdb =>
      rw [hdb] at ht
      exact .inl ht

/-- A row the action committed is there now, and its id was on none. -/
theorem Did.inserted (ht : .insertTenant t ∈ committed ev) :
    t ∈ w'.db.tenants.rows ∧ ∀ t' ∈ w.db.tenants.rows, t'.id ≠ t.id := by
  cases h with
  | same hev _ =>
      rw [hev] at ht
      cases ht
  | opened hev _ hrows hdb =>
      rw [hev, List.mem_singleton] at ht
      cases ht
      refine ⟨by rw [hdb]; exact (Table.mem_insert? hrows).mpr (.inr rfl), ?_⟩
      intro t' ht' hid
      have hclash := (Table.insert?_valid hrows).2 t' ht'
      simp [tenantSchema, hid] at hclash
  | keys hev hne _ _ =>
      rw [hev, List.mem_singleton] at ht
      exact absurd ht.symm (hne t)

theorem Did.tenants_of_keys
    (hkeys : ∀ k ∈ w.db.apiKeys.rows, ∃ t ∈ w.db.tenants.rows, t.id = k.tenantId)
    {k : ApiKey} (hk : k ∈ w'.db.apiKeys.rows) :
    ∃ t ∈ w'.db.tenants.rows, t.id = k.tenantId := by
  have hold : (∃ t ∈ w.db.tenants.rows, t.id = k.tenantId) →
      ∃ t ∈ w'.db.tenants.rows, t.id = k.tenantId := by
    intro ht
    obtain ⟨t, ht, hid⟩ := ht
    exact ⟨t, h.kept ht, hid⟩
  cases h with
  | same _ hdb =>
      rw [hdb] at hk
      exact hold (hkeys k hk)
  | opened _ _ _ hdb =>
      rw [hdb] at hk
      exact hold (hkeys k hk)
  | keys _ _ hfrom hdb =>
      rw [hdb] at hk
      rcases hfrom k hk with ⟨k₀, hk₀, heq⟩ | ht
      · rw [← heq] at hold ⊢
        exact hold (hkeys k₀ hk₀)
      · exact hold ht

end

-- ==================================================================== books

/-- The tables and the log agree. -/
structure Books (env : Env) (w : World) (log : Log sig) (ops : List Op) :
    Prop where
  /-- A row was opened by a call. -/
  opened : ∀ {t}, t ∈ w.db.tenants.rows → ∃ i op, ops[i]? = some op
    ∧ Opens env (own i log) op t ∧ Stored log i t
  /-- What a call committed is there. -/
  stored : ∀ {i t}, Stored log i t → t ∈ w.db.tenants.rows
  /-- What a call was shown is there. -/
  shown : ∀ {i ev t}, (i, ev) ∈ log → showsTenant ev = some t →
    t ∈ w.db.tenants.rows
  /-- A call opens one row. -/
  one : ∀ {i t t'}, Stored log i t → Stored log i t' → t = t'
  /-- A row was opened by no other. -/
  apart : ∀ {i j t t'}, Stored log i t → Stored log j t' → t.id = t'.id → i = j
  /-- A key's tenant is there. -/
  keys : ∀ k ∈ w.db.apiKeys.rows, ∃ t ∈ w.db.tenants.rows, t.id = k.tenantId

theorem books_start : Books env World.empty [] [] where
  opened h := by cases h
  stored h := by
    obtain ⟨ev, hmem, -⟩ := h
    cases hmem
  shown h := by cases h
  one h := by
    obtain ⟨ev, hmem, -⟩ := h
    cases hmem
  apart h := by
    obtain ⟨ev, hmem, -⟩ := h
    cases hmem
  keys k hk := by cases hk

theorem Books.spawn (h : Books env w log ops) (op : Op) :
    Books env w log (ops ++ [op]) where
  opened ht := by
    obtain ⟨i, op', hop, hrest⟩ := h.opened ht
    exact ⟨i, op', roster_append_old hop, hrest⟩
  stored := h.stored
  shown := h.shown
  one := h.one
  apart := h.apart
  keys := h.keys

theorem Books.act {e : Act} {a : e.Ans} (h : Books env w log ops)
    (hop : ops[i]? = some op) (hallow : Allows env op (own i log) e) :
    Books env (perform e a w).2 ((i, ⟨e, (perform e a w).1⟩) :: log) ops := by
  have hdid := did (w := w) (a := a) hallow
  have hmore : ∀ j, own j log
      ⊆ own j ((i, (⟨e, (perform e a w).1⟩ : Event sig)) :: log) :=
    fun j x hx => mem_own.mpr (List.mem_cons_of_mem _ (mem_own.mp hx))
  -- a call that commits has not committed before
  have hfirst : ∀ {t t'}, .insertTenant t
      ∈ committed (⟨e, (perform e a w).1⟩ : Event sig) → ¬ Stored log i t' := by
    intro t t' ht hold
    obtain ⟨pending, rfl, -⟩ := committed_act ht
    obtain ⟨ev, hmem, hrow⟩ := hold
    obtain ⟨pending', hact, -⟩ := committed_act hrow
    obtain ⟨e', r⟩ := ev
    cases hact
    exact hallow.1 pending' r (mem_own.mpr hmem)
  refine ⟨fun ht => ?_, fun hst => ?_, fun hmem hshow => ?_,
    fun hst hst' => ?_, fun hst hst' hid => ?_,
    fun k hk => hdid.tenants_of_keys h.keys hk⟩
  · rcases hdid.rows ht with hold | ⟨hnew, hopens⟩
    · obtain ⟨j, op', hop', hopens, hst⟩ := h.opened hold
      exact ⟨j, op', hop', hopens.mono (hmore j), hst.cons _⟩
    · exact ⟨i, op, hop, hopens.mono (hmore i), _, List.mem_cons_self, hnew⟩
  · rcases stored_cons hst with ⟨-, hnew⟩ | hold
    · exact (hdid.inserted hnew).1
    · exact hdid.kept (h.stored hold)
  · rcases List.mem_cons.mp hmem with heq | hold
    · cases heq
      obtain ⟨hrow, -⟩ := shown_tenant hshow
      exact hdid.kept hrow
    · exact hdid.kept (h.shown hold hshow)
  · rcases stored_cons hst with ⟨rfl, hnew⟩ | hold
    · rcases stored_cons hst' with ⟨-, hnew'⟩ | hold'
      · obtain ⟨pending, rfl, hin⟩ := committed_act hnew
        obtain ⟨pending', heq, hin'⟩ := committed_act hnew'
        cases heq
        obtain ⟨-, x, rfl, -⟩ := hallow
        rw [List.mem_singleton] at hin hin'
        cases hin.trans hin'.symm
        rfl
      · exact absurd hold' (hfirst hnew)
    · rcases stored_cons hst' with ⟨rfl, hnew'⟩ | hold'
      · exact absurd hold (hfirst hnew')
      · exact h.one hold hold'
  · rcases stored_cons hst with ⟨rfl, hnew⟩ | hold
    · rcases stored_cons hst' with ⟨rfl, -⟩ | hold'
      · rfl
      · exact absurd hid.symm ((hdid.inserted hnew).2 _ (h.stored hold'))
    · rcases stored_cons hst' with ⟨rfl, hnew'⟩ | hold'
      · exact absurd hid ((hdid.inserted hnew').2 _ (h.stored hold))
      · exact h.apart hold hold' hid

theorem books_keeps : (rights env).Keeps (Books env) where
  spawn op h _ := h.spawn op
  act h hop _ hallow := h.act hop hallow
  env k := by cases k

/-- In every reachable state the tables and the log agree, and every thread
is within its rights. -/
theorem reachable_books {s : Sys (service env)} (hs : Reachable env s) :
    (rights env).Holds (Books env) s :=
  Rights.invariant respected (fun _ => rfl) books_keeps books_start hs

-- ================================================================= accounts

variable {s : Sys (service env)}

/-- Call `i` opened the account. -/
structure OpenedBy (s : Sys (service env)) (i : Nat) (t : TenantRow) :
    Prop where
  opens : ∃ op, s.op? i = some op ∧ Opens env (own i s.log) op t
  stored : Stored s.log i t

/-- The credential an account signs in with, by the kind of call that
opened it. -/
def CredentialOf (t : TenantRow) : Op → Prop
  | .createTenant _ =>
      t.email = none ∧ t.hashedPassword = none ∧ t.googleSub = none
  | .register payload => t.email = some payload.email
      ∧ t.hashedPassword.isSome ∧ t.googleSub = none
  | .googleAuth _ => t.hashedPassword = none ∧ t.googleSub.isSome
  | _ => False

theorem Opens.credential {K : List (Event sig)} (h : Opens env K op t) :
    CredentialOf t op := by
  cases h with
  | admin => exact ⟨rfl, rfl, rfl⟩
  | password => exact ⟨rfl, rfl, rfl⟩
  | google => exact ⟨rfl, rfl⟩

theorem openedBy_of_row (hs : Reachable env s)
    (ht : t ∈ s.world.db.tenants.rows) : ∃ i, OpenedBy s i t := by
  obtain ⟨i, op, hop, hopens, hst⟩ := (reachable_books hs).kept.opened ht
  exact ⟨i, ⟨op, (Sys.op?_eq s i).trans hop, hopens⟩, hst⟩

-- ================================================== a deployment to try out

/-- The claims of a day's session of the first tenant, from the epoch. -/
def sampleClaims : JwtClaims where
  sub := (UUID.ofNat 0).str
  iat := .epoch
  exp := ⟨86400000000, by decide, by decide⟩

def sampleToken : String := "eyJhbGciOiJIUzI1NiJ9"

/-- Sign-in is configured, and the library signs these claims alone. -/
def signing : Env := { SignUp.unsigned with
  jwtSecret := "secret"
  jwtEncode := fun claims _ =>
    if claims = sampleClaims then .ok sampleToken
    else .error (.other "PyJWTError")
  jwtDecode := fun token _ now =>
    if token = sampleToken ∧ 0 ≤ now.micros ∧ now.micros < 86400000000 then
      .ok ⟨some (.text sampleClaims.sub)⟩
    else .error (.invalidToken "Signature has expired") }

theorem sample_password_min : 8 ≤ "correct horse".length := by decide

def sampleRegistration : RegisterRequest :=
  ⟨"ada@example.com", "correct horse", sample_password_min⟩

def sampleLogin : LoginRequest := ⟨"ada@example.com", "correct horse"⟩

def sampleResponse : TokenResponse where
  accessToken := sampleToken
  tenantId := .ofNat 0

/-- A registration, and a sign-in with its password. -/
def sampleSessions : List (Label (service signing)) :=
  .spawn (.register sampleRegistration)
    :: List.replicate 7 (.act 0 (SignUp.Choices.answer {}))
    ++ .spawn (.login sampleLogin)
      :: List.replicate 2 (.act 1 (SignUp.Choices.answer {}))

/-- Both calls have returned a token. -/
def bothSignedIn (s : Sys (service signing)) : Bool :=
  decide (s.op? 0 = some (.register sampleRegistration)
    ∧ s.result? 0 = some (.ok (.token sampleResponse))
    ∧ s.op? 1 = some (.login sampleLogin)
    ∧ s.result? 1 = some (.ok (.token sampleResponse))
    ∧ s.world.db.tenants.rows.isEmpty = false)

theorem sampleSessions_run : ∃ s : Sys (service signing), Reachable signing s
    ∧ s.Ended 0 (.register sampleRegistration) (.ok (.token sampleResponse))
    ∧ s.Ended 1 (.login sampleLogin) (.ok (.token sampleResponse))
    ∧ ∃ t, t ∈ s.world.db.tenants.rows := by
  have hrun : ((Sys.start (service signing) World.empty).exec
      (fun _ _ => True) sampleSessions).map bothSignedIn = some true := by
    decide +kernel
  obtain ⟨s, hs, h⟩ := Run.exists_of_exec hrun
  simp only [bothSignedIn, decide_eq_true_eq] at h
  obtain ⟨hop₀, hres₀, hop₁, hres₁, hrows⟩ := h
  exact ⟨s, hs, Sys.ended_iff.mpr ⟨hop₀, hres₀⟩, Sys.ended_iff.mpr ⟨hop₁, hres₁⟩,
    List.exists_mem_of_ne_nil _ (List.isEmpty_eq_false_iff.mp hrows)⟩

/-- In every reachable state the accounts are exactly those the calls of
the run have opened, one for each such call, with the credential of its
kind: a registration's password hash, a Google sign-up's `sub`, an
operator's none. Every key is one of an account. -/
theorem accounts_opened (hs : Reachable env s) :
    (∀ t, t ∈ s.world.db.tenants.rows ↔ ∃ i, OpenedBy s i t)
      ∧ (∀ i j t t', OpenedBy s i t → OpenedBy s j t' → (i = j ↔ t = t'))
      ∧ (∀ i t, OpenedBy s i t → ∃ op, s.op? i = some op ∧ CredentialOf t op)
      ∧ ∀ k ∈ s.world.db.apiKeys.rows,
        ∃ t ∈ s.world.db.tenants.rows, t.id = k.tenantId := by
  have hbooks := (reachable_books hs).kept
  refine ⟨fun t => ⟨openedBy_of_row hs, ?_⟩, fun i j t t' hi hj => ?_,
    fun i t hi => ?_, hbooks.keys⟩
  · intro h
    obtain ⟨i, hi⟩ := h
    exact hbooks.stored hi.stored
  · constructor
    · intro heq
      subst heq
      exact hbooks.one hi.stored hj.stored
    · intro heq
      subst heq
      exact hbooks.apart hi.stored hj.stored rfl
  · obtain ⟨op, hop, hopens⟩ := hi.opens
    exact ⟨op, hop, hopens.credential⟩

/-- The account the registration opened. -/
theorem accounts_opened_sample : ∃ s : Sys (service signing),
    ∃ t i, OpenedBy s i t ∧ ∃ op, s.op? i = some op ∧ CredentialOf t op := by
  obtain ⟨s, hs, -, -, t, ht⟩ := sampleSessions_run
  obtain ⟨hrows, -, hcred, -⟩ := accounts_opened hs
  obtain ⟨i, hi⟩ := (hrows t).mp ht
  exact ⟨s, t, i, hi, hcred i t hi⟩

-- =================================================================== tokens

/-- Google has verified a token of call `i` with this `sub`. -/
def Verified (s : Sys (service env)) (i : Nat) (sub : String) : Prop :=
  ∃ idToken claims, s.op? i = some (.googleAuth idToken)
    ∧ (i, ⟨.verifyOauth2Token idToken env.googleOauthClientId, .ok claims⟩)
      ∈ s.log ∧ claims.sub = some sub

/-- What entitles call `i` to a session of an account: it opened it, it
showed a password that checks against the hash of the one the account was
registered with, or Google vouched for both. -/
inductive Entitled (s : Sys (service env)) (i : Nat) (t : TenantRow) :
    Op → Prop
  | registered {payload} : OpenedBy s i t → t.email = some payload.email →
      Entitled s i t (.register payload)
  | checked {payload j registration salt hashed} : OpenedBy s j t →
      s.op? j = some (.register registration) →
      registration.email = payload.email →
      env.hashpw registration.password salt = .ok hashed →
      env.checkpw payload.password hashed = .ok true →
      Entitled s i t (.login payload)
  | vouched {idToken j sub} : OpenedBy s j t → t.googleSub = some sub →
      Verified s j sub → Verified s i sub → Entitled s i t (.googleAuth idToken)

/-- A row opened with a `sub` was opened with one Google verified. -/
theorem OpenedBy.verified {sub : String} (h : OpenedBy s i t)
    (hsub : t.googleSub = some sub) : Verified s i sub := by
  obtain ⟨op, hop, hopens⟩ := h.opens
  cases hopens with
  | admin => cases hsub
  | password => cases hsub
  | google hclaims hsub' =>
      cases hsub
      exact ⟨_, _, hop, mem_own.mp hclaims, hsub'⟩

/-- A row opened with a password hash was registered with it. -/
theorem OpenedBy.registration {hashed : String} (h : OpenedBy s i t)
    (hhash : t.hashedPassword = some hashed) :
    ∃ payload salt, s.op? i = some (.register payload)
      ∧ t.email = some payload.email
      ∧ env.hashpw payload.password salt = .ok hashed := by
  obtain ⟨op, hop, hopens⟩ := h.opens
  cases hopens with
  | admin => cases hhash
  | password _ hpw =>
      cases hhash
      exact ⟨_, _, hop, rfl, hpw⟩
  | google => cases hhash

/-- A token is answered for an account in the table, one with a credential
the call is entitled to. -/
theorem account_of_token (hs : Reachable env s) {r : TokenResponse}
    (h : s.Ended i op (.ok (.token r))) :
    ∃ t ∈ s.world.db.tenants.rows, t.id = r.tenantId ∧ Entitled s i t op
      ∧ (t.hashedPassword.isSome ∨ t.googleSub.isSome) := by
  have hbooks := (reachable_books hs).kept
  have hop : s.op? i = some op := (Sys.ended_iff.mp h).1
  generalize hid : r.tenantId = id
  have hends : Answers env (own i s.log) op id := by
    have hends : Ends env op (own i s.log) (.token r) :=
      (reachable_books hs).ended h
    exact hid ▸ hends.1
  cases hends with
  | @registered payload row hcommit hopens =>
      have hst : Stored s.log i row :=
        ⟨_, mem_own.mp hcommit, List.mem_singleton.mpr rfl⟩
      obtain ⟨hemail, hpw, -⟩ := hopens.credential
      exact ⟨row, hbooks.stored hst, rfl,
        .registered ⟨⟨_, hop, hopens⟩, hst⟩ hemail, .inl hpw⟩
  | @checked payload row hashed hrow hemail hhash hcheck =>
      have hmem := hbooks.shown (mem_own.mp hrow) rfl
      obtain ⟨j, hj⟩ := openedBy_of_row hs hmem
      obtain ⟨registration, salt, hreg, hemail', hpw⟩ := hj.registration hhash
      rw [hemail, Option.some.injEq] at hemail'
      exact ⟨row, hmem, rfl, .checked hj hreg hemail'.symm hpw hcheck,
        .inl (by rw [hhash]; rfl)⟩
  | @found idToken claims sub row hclaims hsub hrow hrowsub =>
      have hmem := hbooks.shown (mem_own.mp hrow) rfl
      obtain ⟨j, hj⟩ := openedBy_of_row hs hmem
      exact ⟨row, hmem, rfl, .vouched hj hrowsub (hj.verified hrowsub)
        ⟨_, _, hop, mem_own.mp hclaims, hsub⟩, .inr (by rw [hrowsub]; rfl)⟩
  | @signedUp idToken row hcommit hopens =>
      have hst : Stored s.log i row :=
        ⟨_, mem_own.mp hcommit, List.mem_singleton.mpr rfl⟩
      have hj : OpenedBy s i row := ⟨⟨_, hop, hopens⟩, hst⟩
      obtain ⟨-, hsome⟩ := hopens.credential
      obtain ⟨sub, hsub⟩ := Option.isSome_iff_exists.mp hsome
      exact ⟨row, hbooks.stored hst, rfl,
        .vouched hj hsub (hj.verified hsub) (hj.verified hsub), .inr hsome⟩

/-- In every reachable state, a call that returned a token has it for an
account in the table, one it is entitled to and that no operator
opened. -/
theorem tokens_name_accounts (hs : Reachable env s) {r : TokenResponse}
    (h : s.Ended i op (.ok (.token r))) :
    ∃ t ∈ s.world.db.tenants.rows, t.id = r.tenantId ∧ Entitled s i t op
      ∧ ∀ j, OpenedBy s j t → ∀ name, s.op? j ≠ some (.createTenant name) := by
  obtain ⟨t, ht, hid, hentitled, hcred⟩ := account_of_token hs h
  refine ⟨t, ht, hid, hentitled, fun j hj name hname => ?_⟩
  -- whoever opened an account with a credential is no operator
  obtain ⟨op', hop', hopens⟩ := hj.opens
  rw [hname, Option.some.injEq] at hop'
  subst hop'
  obtain ⟨-, hpw, hsub⟩ := hopens.credential
  simp [hpw, hsub] at hcred

/-- One account for both calls, and the second one's password is the one it
was registered with. -/
theorem tokens_name_accounts_sample : ∃ s : Sys (service signing),
    ∃ t ∈ s.world.db.tenants.rows, t.id = .ofNat 0
      ∧ Entitled s 1 t (.login sampleLogin)
      ∧ ∀ j, OpenedBy s j t → ∀ name, s.op? j ≠ some (.createTenant name) := by
  obtain ⟨s, hs, -, hend, -⟩ := sampleSessions_run
  exact ⟨s, tokens_name_accounts hs hend⟩

end ResumeScreening.Accounts.Sessions
