/-
What each operation may do to the tenant table, given its own past, and
what stands behind its answers.

A row is inserted by the operation it is about: an operator's bare one,
a registration's with the hash it computed, a Google sign-up's with the
claims Google verified. A token is signed for the tenant such a row, or a
row the operation was shown, names. `respected` reads this off every
program.
-/
import ResumeScreening.Keys.Ledger
import ResumeScreening.SignUp.Store

namespace ResumeScreening.Accounts.Sessions

open Effect Effect.Discipline
open Py (DateTime)

variable {env : Env} {op : Op} {K K' : List (Event sig)} {α β : Type}

-- =================================================================== rights

/-- How the row an operation inserts came about. -/
inductive Opens (env : Env) (K : List (Event sig)) : Op → TenantRow → Prop
  | admin {name id now} : Opens env K (.createTenant name)
      { id := id, name := name, createdAt := now }
  | password {payload salt hashed id now} : ⟨.gensalt, .ok salt⟩ ∈ K →
      env.hashpw payload.password salt = .ok hashed →
      Opens env K (.register payload)
        (registeredTenant payload.email hashed id now)
  | google {idToken claims sub id now} :
      ⟨.verifyOauth2Token idToken env.googleOauthClientId, .ok claims⟩ ∈ K →
      claims.sub = some sub →
      Opens env K (.googleAuth idToken)
        (googleTenant sub (claims.email.getD "") id now)

theorem Opens.mono {row : TenantRow} (h : Opens env K op row) (hK : K ⊆ K') :
    Opens env K' op row := by
  cases h with
  | admin => exact .admin
  | password hsalt hhash => exact .password (hK hsalt) hhash
  | google hclaims hsub => exact .google (hK hclaims) hsub

/-- An operation commits once, one statement, and a row of its own. -/
def Allows (env : Env) (op : Op) (K : List (Event sig)) : Act → Prop
  | .commit pending => (∀ p r, (⟨.commit p, r⟩ : Event sig) ∉ K)
      ∧ ∃ x, pending = [x] ∧ ∀ row, x = .insertTenant row → Opens env K op row
  | _ => True

/-- The rows a token's tenant may come from: the one the operation
inserted, or the one it found under the address or the `sub` shown. -/
inductive Answers (env : Env) (K : List (Event sig)) : Op → UUID → Prop
  | registered {payload row} : ⟨.commit [.insertTenant row], .ok ()⟩ ∈ K →
      Opens env K (.register payload) row →
      Answers env K (.register payload) row.id
  | checked {payload row hashed} :
      ⟨.selectTenantByEmail payload.email, .ok (some row)⟩ ∈ K →
      row.email = some payload.email → row.hashedPassword = some hashed →
      env.checkpw payload.password hashed = .ok true →
      Answers env K (.login payload) row.id
  | found {idToken claims sub row} :
      ⟨.verifyOauth2Token idToken env.googleOauthClientId, .ok claims⟩ ∈ K →
      claims.sub = some sub →
      ⟨.selectTenantByGoogleSub sub, .ok (some row)⟩ ∈ K →
      row.googleSub = some sub → Answers env K (.googleAuth idToken) row.id
  | signedUp {idToken row} : ⟨.commit [.insertTenant row], .ok ()⟩ ∈ K →
      Opens env K (.googleAuth idToken) row →
      Answers env K (.googleAuth idToken) row.id

theorem Answers.mono {t : UUID} (h : Answers env K op t) (hK : K ⊆ K') :
    Answers env K' op t := by
  cases h with
  | registered hcommit hopens =>
      exact .registered (hK hcommit) (hopens.mono hK)
  | checked hrow hemail hhash hcheck =>
      exact .checked (hK hrow) hemail hhash hcheck
  | found hclaims hsub hrow hrowsub =>
      exact .found (hK hclaims) hsub (hK hrow) hrowsub
  | signedUp hcommit hopens => exact .signedUp (hK hcommit) (hopens.mono hK)

/-- The token is signed for its tenant, for a span from when the clock was
read. -/
def Signed (env : Env) (K : List (Event sig)) (r : TokenResponse) : Prop :=
  env.jwtSecret ≠ "" ∧ ∃ now exp, ⟨.utcNow, .ok now⟩ ∈ K
    ∧ expiry env now = .ok exp
    ∧ env.jwtEncode ⟨r.tenantId.str, now, exp⟩ env.jwtSecret
      = .ok r.accessToken

/-- The header bears a token that names the tenant when the clock is
read. -/
def Bears (env : Env) (K : List (Event sig)) (header : String) (t : UUID) :
    Prop :=
  env.jwtSecret ≠ "" ∧ ∃ now payload s, ⟨.utcNow, .ok now⟩ ∈ K
    ∧ env.jwtDecode (partition header).2 env.jwtSecret now = .ok payload
    ∧ payload.sub = some (.text s) ∧ UUID.parse s = some t

/-- The key is in the table, unrevoked, under the tenant. -/
def Keyed (env : Env) (K : List (Event sig)) (key : String) (t : UUID) :
    Prop :=
  ∃ k k', ⟨.findApiKey (hashKey env key), .ok (some k)⟩ ∈ K
    ∧ k.hashedKey = hashKey env key
    ∧ ⟨.refreshApiKey k.id, .ok k'⟩ ∈ K ∧ k'.id = k.id ∧ k'.tenantId = t

/-- What a request lets a tenant in for. An Authorization header, if there
is one, decides. -/
def Enters (env : Env) (K : List (Event sig)) : Op → UUID → Prop
  | .requireTenant (some header) _, t => Bears env K header t
  | .requireTenant none xApiKey, t => ∃ key, xApiKey = some key
      ∧ Keyed env K key t
  | _, _ => False

def Ends (env : Env) (op : Op) (K : List (Event sig)) : Resp → Prop
  | .token r => Answers env K op r.tenantId ∧ Signed env K r
  | .resolved t => Enters env K op t
  | _ => True

def rights (env : Env) : Rights (service env) where
  allows := Allows env
  ends := Ends env

-- ================================================== what a lookup's reply is

theorem possible_selectTenantByEmail {email : String} {row : TenantRow}
    (h : machine.Possible (.selectTenantByEmail email) (.ok (some row))) :
    row.email = some email := by
  obtain ⟨w, a, -, hr⟩ := h
  cases a with
  | error msg => cases hr
  | ok u =>
      have hfind := Except.ok.inj hr
      simpa using (Relational.Table.find?_mem hfind).2

theorem possible_selectTenantByGoogleSub {sub : String} {row : TenantRow}
    (h : machine.Possible (.selectTenantByGoogleSub sub) (.ok (some row))) :
    row.googleSub = some sub := by
  obtain ⟨w, a, -, hr⟩ := h
  cases a with
  | error msg => cases hr
  | ok u =>
      have hfind := Except.ok.inj hr
      simpa using (Relational.Table.find?_mem hfind).2

theorem possible_refreshTenant {id : UUID} {row : TenantRow}
    (h : machine.Possible (.refreshTenant id) (.ok row)) : row.id = id := by
  obtain ⟨w, a, -, hr⟩ := h
  cases a with
  | error msg => cases hr
  | ok u =>
      replace hr : replyOr (w.db.tenants.find? fun t => t.id == id) (.ok u)
          = .ok row := hr
      cases hfind : w.db.tenants.find? fun t => t.id == id with
      | none =>
          rw [hfind] at hr
          cases hr
      | some row' =>
          rw [hfind] at hr
          cases hr
          simpa using (Relational.Table.find?_mem hfind).2

-- ================================================================= programs

/-- A program that stays within an operation's rights, and what is known
of its events where it returns. -/
abbrev Within (env : Env) (op : Op) (K : List (Event sig)) (p : Py α)
    (T : α → List (Event sig) → Prop := fun _ _ => True) : Prop :=
  ((rights env).discipline op).Obeys machine K p T

/-- Nothing has been committed. -/
def Fresh (K : List (Event sig)) : Prop :=
  ∀ p r, (⟨.commit p, r⟩ : Event sig) ∉ K

theorem fresh_nil : Fresh [] := fun _ _ h => nomatch h

theorem Fresh.cons {ev : Event sig} (h : Fresh K)
    (hev : ∀ p, ev.act ≠ .commit p) : Fresh (ev :: K) := by
  intro p r hmem
  rcases List.mem_cons.mp hmem with heq | hold
  · exact hev p (congrArg Event.act heq).symm
  · exact h p r hold

/-- An action other than a commit, in front of the rest. -/
theorem within_call {e : Act} {f : e.Ret → Py β}
    {T : β → List (Event sig) → Prop} (he : ∀ p, e ≠ .commit p) (hK : Fresh K)
    (hok : ∀ v, machine.Possible e (.ok v) →
      Fresh (⟨e, .ok v⟩ :: K) → Within env op (⟨e, .ok v⟩ :: K) (f v) T) :
    Within env op K ((call e).bind f) T := by
  refine obeys_call ?_ fun v hv => hok v hv (hK.cons he)
  show Allows env op K e
  cases e with
  | commit p => exact absurd rfl (he p)
  | _ => trivial

/-- A computing library, in front of the rest. -/
theorem within_library {x : Except LibraryError α} {f : α → Py β}
    {T : β → List (Event sig) → Prop}
    (hok : ∀ a, x = .ok a → Within env op K (f a) T) :
    Within env op K ((library x).bind f) T := by
  cases x with
  | ok a => exact hok a rfl
  | error y => exact obeys_raise

/-- A handler that only raises. -/
theorem within_route {p : Py α} {f : Exn → Py α}
    {T : α → List (Event sig) → Prop} (h : Within env op K p T)
    (hf : ∀ x, ∃ y, f x = raise y) : Within env op K (p.handle f) T := by
  refine obeys_handle h fun x K' _ => ?_
  obtain ⟨y, hy⟩ := hf x
  rw [hy]
  exact obeys_raise

/-- A token's answer, whatever has been done before. -/
theorem within_tokenResponse (t : UUID) :
    Within env op K (tokenResponse env t) fun r K' =>
      r.tenantId = t ∧ Signed env K' r := by
  unfold tokenResponse
  refine obeys_bind
    (T := fun token K' => Signed env K' { accessToken := token, tenantId := t })
    (within_route ?_ fun x => ?_) fun token K' _ h => obeys_ret ⟨rfl, h⟩
  · unfold createAccessToken
    split
    next => exact obeys_raise
    next hsecret =>
      refine obeys_call trivial fun now _ => ?_
      refine within_library fun exp hexp => ?_
      cases htoken : env.jwtEncode ⟨t.str, now, exp⟩ env.jwtSecret with
      | error y => exact obeys_raise
      | ok token =>
          exact obeys_ret ⟨hsecret, now, exp, List.mem_cons_self, hexp, htoken⟩
  · cases x <;> exact ⟨_, rfl⟩

/-- The end of a sign-up: the row is inserted and loaded. -/
theorem within_storeTenant {row : UUID → DateTime → TenantRow}
    (hid : ∀ id now, (row id now).id = id)
    (hopens : ∀ id now, Opens env K op (row id now)) (hK : Fresh K) :
    Within env op K (SignUp.storeTenant row) fun t K' => ∃ opened,
      ⟨.commit [.insertTenant opened], .ok ()⟩ ∈ K' ∧ Opens env K' op opened
        ∧ t.id = opened.id := by
  unfold SignUp.storeTenant
  refine within_call (fun p h => by cases h) hK fun now _ hK => ?_
  refine within_call (fun p h => by cases h) hK fun id _ hK => ?_
  refine obeys_call ⟨hK, _, rfl, fun row' hrow => ?_⟩ fun _ _ => ?_
  · cases hrow
    exact (hopens id now).mono (fun _ h =>
      List.mem_cons_of_mem _ (List.mem_cons_of_mem _ h))
  refine obeys_perform trivial fun t ht => ?_
  refine ⟨row id now, List.mem_cons_of_mem _ List.mem_cons_self, ?_,
    (possible_refreshTenant ht).trans (hid id now).symm⟩
  exact (hopens id now).mono fun _ h => List.mem_cons_of_mem _
    (List.mem_cons_of_mem _ (List.mem_cons_of_mem _
      (List.mem_cons_of_mem _ h)))

theorem within_registerWithPassword (payload : RegisterRequest) :
    Within env (.register payload) []
      (registerWithPassword env payload.email payload.password) fun t K' =>
        Answers env K' (.register payload) t.id := by
  rw [SignUp.registerWithPassword_eq]
  refine within_call (fun p h => by cases h) fresh_nil fun found _ hK => ?_
  cases found with
  | some _ => exact obeys_raise
  | none =>
      refine within_call (fun p h => by cases h) hK fun salt _ hK => ?_
      refine within_library fun hashed hhash => ?_
      refine (within_storeTenant (fun _ _ => rfl)
        (fun _ _ => .password List.mem_cons_self hhash) hK).mono ?_
      intro t K' _ h
      obtain ⟨row, hcommit, hopens, hid⟩ := h
      rw [hid]
      exact .registered hcommit hopens

theorem within_authenticateWithPassword (payload : LoginRequest) :
    Within env (.login payload) []
      (authenticateWithPassword env payload.email payload.password) fun t K' =>
        Answers env K' (.login payload) t.id := by
  rw [SignUp.authenticateWithPassword_eq]
  refine within_call (fun p h => by cases h) fresh_nil fun found hfound _ => ?_
  cases found with
  | none => exact obeys_raise
  | some row =>
      unfold SignUp.checkTenant
      cases hhash : row.hashedPassword with
      | none => simpa only [hhash] using obeys_raise
      | some hashed =>
          simp only [hhash]
          refine within_library fun verified hverified => ?_
          cases verified with
          | false => exact obeys_raise
          | true =>
              exact obeys_ret (.checked List.mem_cons_self
                (possible_selectTenantByEmail hfound) hhash hverified)

theorem within_registerOrLoginWithGoogle (idToken : String) :
    Within env (.googleAuth idToken) [] (registerOrLoginWithGoogle env idToken)
      fun t K' => Answers env K' (.googleAuth idToken) t.id := by
  rw [SignUp.registerOrLoginWithGoogle_eq]
  split
  · exact obeys_raise
  · refine within_call (fun p h => by cases h) fresh_nil fun claims _ hK => ?_
    cases hsub : claims.sub with
    | none => exact obeys_raise
    | some sub =>
        refine within_call (fun p h => by cases h) hK fun found hfound hK => ?_
        cases found with
        | some row =>
            exact obeys_ret (.found (List.mem_cons_of_mem _ List.mem_cons_self)
              hsub List.mem_cons_self (possible_selectTenantByGoogleSub hfound))
        | none =>
            refine (within_storeTenant (fun _ _ => rfl) (fun _ _ => .google
              (List.mem_cons_of_mem _ List.mem_cons_self) hsub) hK).mono ?_
            intro t K' _ h
            obtain ⟨row, hcommit, hopens, hid⟩ := h
            rw [hid]
            exact .signedUp hcommit hopens

theorem within_decodeAccessToken (token : String) :
    Within env op K (decodeAccessToken env token) fun found K' =>
      ∀ t, found = some t → env.jwtSecret ≠ "" ∧ ∃ now payload s,
        ⟨.utcNow, .ok now⟩ ∈ K'
          ∧ env.jwtDecode token env.jwtSecret now = .ok payload
          ∧ payload.sub = some (.text s) ∧ UUID.parse s = some t := by
  unfold decodeAccessToken
  split
  next => exact obeys_ret fun t h => by cases h
  next hsecret =>
    refine obeys_call trivial fun now _ => ?_
    split
    next => exact obeys_ret fun t h => by cases h
    next => exact obeys_raise
    next payload hdecode =>
      unfold subject
      cases hsub : payload.sub with
      | none => exact obeys_ret fun t h => by cases h
      | some v =>
          cases v with
          | other => exact obeys_raise
          | text s =>
              exact obeys_ret fun t ht => ⟨hsecret, now, payload, s,
                List.mem_cons_self, hdecode, hsub, ht⟩

theorem within_requireApiKey (x : Option String) :
    Within env op [] (requireApiKey env x) fun t K' =>
      ∃ key, x = some key ∧ Keyed env K' key t := by
  unfold requireApiKey
  cases hkey : Py.optTruthy x with
  | none => exact obeys_raise
  | some key =>
      obtain rfl := Py.optTruthy_some hkey
      refine within_call (fun p h => by cases h) fresh_nil
        fun found hfound hK => ?_
      cases found with
      | none => exact obeys_raise
      | some k =>
          have hhash := possible_findApiKey hfound
          refine within_call (fun p h => by cases h) hK fun now _ hK => ?_
          refine obeys_call ⟨hK, _, rfl, fun row h => by cases h⟩ fun _ _ => ?_
          refine obeys_call trivial fun k' hk' => obeys_ret ⟨key, rfl, k, k', ?_⟩
          simp [rights, Rights.discipline, possible_refreshApiKey hk', hhash]

theorem within_requireTenant (authorization xApiKey : Option String) :
    Within env (.requireTenant authorization xApiKey) []
      (requireTenant env authorization xApiKey) fun t K' =>
        Enters env K' (.requireTenant authorization xApiKey) t := by
  unfold requireTenant
  cases authorization with
  | none => exact within_requireApiKey xApiKey
  | some header =>
      dsimp only
      split
      · exact obeys_raise
      · refine obeys_bind (within_decodeAccessToken _) fun found K' _ hfound => ?_
        cases found with
        | none => exact obeys_raise
        | some t => exact obeys_ret (hfound t rfl)

/-- A row looked up and another statement committed. -/
theorem within_revokeApiKey (id : UUID) :
    Within env op [] (revokeApiKey id) := by
  unfold revokeApiKey
  refine within_call (fun p h => by cases h) fresh_nil fun found _ hK => ?_
  cases found with
  | none => exact obeys_raise
  | some k =>
      refine within_call (fun p h => by cases h) hK fun now _ hK => ?_
      refine obeys_call ⟨hK, _, rfl, fun row h => by cases h⟩ fun _ _ => ?_
      exact obeys_perform trivial fun _ _ => trivial

theorem within_createApiKey (t : UUID) :
    Within env op [] (createApiKey env t) := by
  unfold createApiKey
  refine within_call (fun p h => by cases h) fresh_nil fun found _ hK => ?_
  cases found with
  | none => exact obeys_raise
  | some tenant =>
      refine within_call (fun p h => by cases h) hK fun rawKey _ hK => ?_
      refine within_call (fun p h => by cases h) hK fun now _ hK => ?_
      refine within_call (fun p h => by cases h) hK fun id _ hK => ?_
      refine obeys_call ⟨hK, _, rfl, fun row h => by cases h⟩ fun _ _ => ?_
      exact obeys_call trivial fun row _ => obeys_ret trivial

/-- A sign-in and its token. -/
theorem within_signIn {p : Py TenantRow} {f : Exn → Py TenantRow}
    (h : Within env op [] p fun t K' => Answers env K' op t.id)
    (hf : ∀ x, ∃ y, f x = raise y) :
    Within env op [] ((p.handle f).bind fun tenant => tokenResponse env tenant.id)
      fun r K' => Answers env K' op r.tenantId ∧ Signed env K' r := by
  refine obeys_bind (within_route h hf) fun t K' _ ht => ?_
  refine Prog.Follows.mono (within_tokenResponse t.id) fun K'' r hq => ?_
  refine ⟨hq.1, fun response hr => ?_⟩
  obtain ⟨hid, hsigned⟩ := hq.2 response hr
  rw [hid]
  exact ⟨ht.mono hq.1, hsigned⟩

/-- Every operation stays within its rights. -/
theorem respected : (rights env).Respected := by
  intro op
  cases op with
  | createTenant name =>
      refine obeys_bind (T := fun _ _ => True) ?_ fun _ _ _ _ => obeys_ret trivial
      rw [SignUp.createTenant_eq]
      exact (within_storeTenant (fun _ _ => rfl) (fun _ _ => .admin)
        fresh_nil).mono fun _ _ _ _ => trivial
  | createApiKey t =>
      exact obeys_bind (within_createApiKey t) fun _ _ _ _ => obeys_ret trivial
  | revokeApiKey id =>
      exact obeys_bind (within_revokeApiKey id) fun _ _ _ _ => obeys_ret trivial
  | requireTenant authorization xApiKey =>
      exact obeys_bind (within_requireTenant authorization xApiKey)
        fun _ _ _ h => obeys_ret h
  | register payload =>
      refine obeys_bind (within_signIn (within_registerWithPassword payload)
        fun x => ?_) fun _ _ _ h => obeys_ret h
      cases x <;> exact ⟨_, rfl⟩
  | login payload =>
      refine obeys_bind (within_signIn (within_authenticateWithPassword payload)
        fun x => ?_) fun _ _ _ h => obeys_ret h
      cases x <;> exact ⟨_, rfl⟩
  | googleAuth idToken =>
      refine obeys_bind (within_signIn
        (within_registerOrLoginWithGoogle idToken) fun x => ?_)
        fun _ _ _ h => obeys_ret h
      cases x <;> exact ⟨_, rfl⟩

end ResumeScreening.Accounts.Sessions
