/-
A sign-up or sign-in that fails.

The services commit the new tenant before the router asks for a token,
and nothing undoes the commit. So what a failed request leaves depends on
what follows its commit: once the row is in the table, only its read and
the token's encoding make the request a success, and any other end leaves
an account that a retry finds (`failed_sign_ins`).
-/
import ResumeScreening.SignUp.Store

namespace ResumeScreening.Accounts.SignUp

open Effect Prog
open Py (DateTime)

variable {env : Env} {w w' : World} {as : List (Given machine)}

-- ============================================================ the statement

/-- The three endpoints. -/
inductive Endpoint : Op → Prop
  | register (payload : RegisterRequest) : Endpoint (.register payload)
  | login (payload : LoginRequest) : Endpoint (.login payload)
  | google (idToken : String) : Endpoint (.googleAuth idToken)

/-- A request that is not answered with a token leaves the table alone. -/
def LeavesNothing (w : World) (r : Option (Except Exn Resp)) (w' : World) :
    Prop :=
  (∀ response, r ≠ some (.ok (.token response))) →
    w'.db.tenants.rows = w.db.tenants.rows

/-- The outside's answers are those under which a token for the tenant is
issued: the secret is set, the clock's reading has an expiry and the
claims are encoded. -/
def Issues (env : Env) (id : UUID) (as : List (Given machine)) : Prop :=
  env.jwtSecret ≠ "" ∧ ∃ (now exp : DateTime) (token : String),
    (⟨.utcNow, now⟩ : Given machine) ∈ as ∧ expiry env now = .ok exp
      ∧ env.jwtEncode ⟨id.str, now, exp⟩ env.jwtSecret = .ok token

/-- A row is read back and a token for it is issued. -/
def TokenDue (env : Env) (as : List (Given machine)) : Prop :=
  ∃ id, readsBack id ∈ as ∧ Issues env id as

-- ================================================================= the token

theorem uses_tokenResponse (id : UUID) :
    (tokenResponse env id).Uses fun e : Act => e = .utcNow := by
  unfold tokenResponse createAccessToken
  refine uses_bind (uses_handle ?_ fun x => ?_) fun _ => trivial
  · split
    · trivial
    · refine uses_bind ((uses_perform _ _).mpr rfl) fun _ => ?_
      exact uses_bind (uses_library _ _) fun _ => uses_library _ _
  · cases x <;> trivial

theorem not_issues_nil {id : UUID} : ¬ Issues env id [] := by
  rintro ⟨-, now, exp, token, hmem, -⟩
  cases hmem

/-- What one reading of the clock leads to. -/
theorem issues_at {id : UUID} {now : DateTime} (hsecret : env.jwtSecret ≠ "") :
    Issues env id [⟨.utcNow, now⟩] ↔ ∃ exp token, expiry env now = .ok exp
      ∧ env.jwtEncode ⟨id.str, now, exp⟩ env.jwtSecret = .ok token := by
  constructor
  · rintro ⟨-, now', exp, token, hmem, hexp, henc⟩
    cases List.mem_singleton.mp hmem
    exact ⟨exp, token, hexp, henc⟩
  · rintro ⟨exp, token, hexp, henc⟩
    exact ⟨hsecret, now, exp, token, List.mem_singleton.mpr rfl, hexp, henc⟩

theorem createAccessToken_went {id : UUID} {r : Option (Except Exn String)}
    (h : Went machine (createAccessToken env id) w as r w') :
    w' = w ∧ ((∃ token, r = some (.ok token)) ↔ Issues env id as) := by
  unfold createAccessToken at h
  by_cases hsecret : env.jwtSecret = ""
  · rw [if_pos hsecret] at h
    obtain ⟨rfl, rfl, rfl⟩ := Went.raise_iff.mp h
    exact ⟨rfl, by simp [not_issues_nil]⟩
  rw [if_neg hsecret] at h
  rcases h.call with
    ⟨rfl, rfl, rfl⟩ | ⟨now, as₂, -, rfl, ⟨x, hx, -⟩ | ⟨v, hv, h⟩⟩
  · exact ⟨rfl, by simp [not_issues_nil]⟩
  · cases hx
  cases hv
  cases hexp : expiry env now with
  | error x =>
      rw [hexp] at h
      obtain ⟨rfl, rfl, rfl⟩ := Went.raise_iff.mp h
      exact ⟨rfl, by simp [issues_at hsecret, hexp]⟩
  | ok exp =>
      rw [hexp] at h
      simp only [library, bind_eq, ret_bind] at h
      cases henc : env.jwtEncode ⟨id.str, now, exp⟩ env.jwtSecret with
      | error x =>
          rw [henc] at h
          obtain ⟨rfl, rfl, rfl⟩ := Went.raise_iff.mp h
          exact ⟨rfl, by simp [issues_at hsecret, hexp, henc]⟩
      | ok token =>
          rw [henc] at h
          obtain ⟨rfl, rfl, rfl⟩ := Went.ret_iff.mp h
          exact ⟨rfl, by simp [issues_at hsecret, hexp, henc]⟩

/-- A handler that raises. -/
def Reraises {α : Type} (f : Exn → Py α) : Prop := ∀ x, ∃ y, f x = raise y

/-- It lets values through and turns exceptions into exceptions. -/
theorem Reraises.went {α : Type} {p : Py α} {f : Exn → Py α}
    (hf : Reraises f) {r : Option (Except Exn α)}
    (h : Went machine (p.handle f) w as r w') :
    ∃ r₀, Went machine p w as r₀ w'
      ∧ ∀ v, r = some (.ok v) ↔ r₀ = some (.ok v) := by
  rcases h.handle with ⟨a, rfl, hp⟩ | ⟨x, as₁, w₁, as₂, rfl, hp, hq⟩ | ⟨rfl, hp⟩
  · exact ⟨_, hp, fun v => Iff.rfl⟩
  · obtain ⟨y, hy⟩ := hf x
    rw [hy] at hq
    obtain ⟨rfl, rfl, rfl⟩ := Went.raise_iff.mp hq
    rw [List.append_nil]
    exact ⟨_, hp, fun v => by simp⟩
  · exact ⟨_, hp, fun v => Iff.rfl⟩

/-- The token part is a token behind a handler. -/
theorem tokenResponse_behind (env : Env) (id : UUID) :
    ∃ f, Reraises f ∧ tokenResponse env id
      = ((createAccessToken env id).handle f).bind fun token =>
        ret { accessToken := token, tenantId := id } :=
  ⟨_, fun x => by cases x <;> exact ⟨_, rfl⟩, rfl⟩

/-- The token part changes nothing and answers where a token is issued. -/
theorem tokenResponse_went {id : UUID} {r : Option (Except Exn TokenResponse)}
    (h : Went machine (tokenResponse env id) w as r w') :
    w' = w ∧ ((∃ response, r = some (.ok response)) ↔ Issues env id as) := by
  obtain ⟨f, hraise, heq⟩ := tokenResponse_behind env id
  rw [heq] at h
  rcases h.bind with
    ⟨token, as₁, w₁, as₂, rfl, hp, hret⟩ | ⟨x, rfl, hp⟩ | ⟨rfl, hp⟩
  · obtain ⟨r₀, hcreate, hr⟩ := hraise.went hp
    obtain ⟨rfl, hiff⟩ := createAccessToken_went hcreate
    obtain ⟨rfl, rfl, rfl⟩ := Went.ret_iff.mp hret
    rw [List.append_nil]
    exact ⟨rfl, fun _ => hiff.mp ⟨token, (hr token).mp rfl⟩, fun _ => ⟨_, rfl⟩⟩
  all_goals
    obtain ⟨r₀, hcreate, hr⟩ := hraise.went hp
    obtain ⟨rfl, hiff⟩ := createAccessToken_went hcreate
    refine ⟨rfl, fun hv => ?_, fun hdue => ?_⟩
    · obtain ⟨v, hv⟩ := hv
      cases hv
    · obtain ⟨token, htoken⟩ := hiff.mpr hdue
      cases (hr token).mpr htoken

-- =============================================================== the account

/-- How the service's part of a request ends: the table is as it was, a
row is in it that was not read back, or it was. -/
inductive Opens (w : World) (as : List (Given machine)) :
    Option (Except Exn TenantRow) → World → Prop
  | same {r w'} : ¬ Saw (lands w.db) as → w'.db = w.db → Opens w as r w'
  | left {r w'} : Saw (lands w.db) as →
      w'.db.tenants.rows ≠ w.db.tenants.rows → (∀ id, readsBack id ∉ as) →
      (∀ t, r ≠ some (.ok t)) → Opens w as r w'
  | opened {t : TenantRow} {w'} : Saw (lands w.db) as →
      w'.db.tenants.rows ≠ w.db.tenants.rows →
      (∀ id, readsBack id ∈ as ↔ id = t.id) → Opens w as (some (.ok t)) w'

theorem Inserted.more {row : UUID → DateTime → TenantRow} {id : UUID}
    {now : DateTime} (h : Inserted row w id now w') :
    w'.db.tenants.rows ≠ w.db.tenants.rows := by
  rw [Relational.Table.insert?_rows h.inserted]
  simp

theorem Stores.opens {row : UUID → DateTime → TenantRow}
    {r : Option (Except Exn TenantRow)} (hid : ∀ id now, (row id now).id = id)
    (h : Stores row w as r w') : Opens w as r w' := by
  cases h with
  | kept hno hdb _ _ _ => exact .same hno hdb
  | unread hyes hnew hread hr _ => exact .left hyes hnew.more hread hr
  | @stored id now _ hyes hnew hread =>
      exact .opened hyes hnew.more (by simpa [hid] using hread)

/-- The actions in front of a commit: they leave the tables alone. -/
def quiet : Act → Bool
  | .commit _ => false
  | .refreshTenant _ => false
  | _ => true

theorem quiet_db {e : Act} (h : quiet e = true) (a : e.Ans) (w : World) :
    (machine.perform e a w).2.db = w.db := by
  cases e with
  | commit pending => cases h
  | refreshTenant id => cases h
  | transactionNow => cases (a : Except String DateTime) <;> rfl
  | verifyOauth2Token token clientId =>
      cases (a : Except GoogleError GoogleClaims) <;> rfl
  | _ => rfl

theorem quiet_answers {e : Act} (h : quiet e = true) (a : e.Ans) (db : Db) :
    lands db ⟨e, a⟩ = false ∧ ∀ id, readsBack id ≠ ⟨e, a⟩ := by
  cases e with
  | commit pending => cases h
  | refreshTenant id => cases h
  | _ => exact ⟨rfl, fun id heq => by cases heq⟩

theorem Opens.call {e : Act} {f : e.Ret → Py TenantRow}
    {r : Option (Except Exn TenantRow)} (hquiet : quiet e = true)
    (hrest : ∀ v w₁ as₂, Went machine (f v) w₁ as₂ r w' → Opens w₁ as₂ r w')
    (h : Went machine ((Accounts.call e).bind f) w as r w') :
    Opens w as r w' := by
  rcases h.call with ⟨rfl, rfl, rfl⟩ | ⟨a, as₂, -, rfl, hafter⟩
  · exact .same (by simp) rfl
  have hdb := quiet_db hquiet a w
  obtain ⟨hland, hread⟩ := quiet_answers hquiet a w.db
  obtain ⟨x, -, rfl, rfl, rfl⟩ | ⟨v, -, h⟩ := hafter
  · exact .same (by simp [hland]) hdb
  have hends := hrest v _ _ h
  cases hends with
  | same hno hsame =>
      rw [hdb] at hno hsame
      exact .same (by simp [hland, hno]) hsame
  | left hyes hmore hno hr =>
      rw [hdb] at hyes hmore
      exact .left (by simp [hyes]) hmore (by simp [hread, hno]) hr
  | opened hyes hmore hback =>
      rw [hdb] at hyes hmore
      exact .opened (by simp [hyes]) hmore (by simp [hread, hback])

theorem registerWithPassword_opens {email password : String}
    {r : Option (Except Exn TenantRow)}
    (h : Went machine (registerWithPassword env email password) w as r w') :
    Opens w as r w' := by
  rw [registerWithPassword_eq] at h
  refine Opens.call rfl ?_ h
  rintro (_ | t) w₁ as₁ h
  · refine Opens.call rfl ?_ h
    intro salt w₂ as₂ h
    cases hhash : env.hashpw password salt with
    | error x =>
        rw [hhash] at h
        obtain ⟨rfl, rfl, rfl⟩ := Went.raise_iff.mp h
        exact .same (by simp) rfl
    | ok hashed =>
        rw [hhash] at h
        exact (storeTenant_ends (fun _ _ => rfl) h).opens fun _ _ => rfl
  · obtain ⟨rfl, rfl, rfl⟩ := Went.raise_iff.mp h
    exact .same (by simp) rfl

theorem authenticateWithPassword_opens {email password : String}
    {r : Option (Except Exn TenantRow)}
    (h : Went machine (authenticateWithPassword env email password) w as r
      w') : Opens w as r w' := by
  rw [authenticateWithPassword_eq] at h
  refine Opens.call rfl ?_ h
  rintro found w₁ as₁ h
  have huses : (checkTenant env password found).Uses fun _ => False :=
    uses_checkTenant _ password found
  obtain rfl : w' = w₁ := h.same_world huses fun e a w hf => hf.elim
  exact .same (h.not_saw huses fun g hf => hf.elim) rfl

theorem registerOrLoginWithGoogle_opens {idToken : String}
    {r : Option (Except Exn TenantRow)}
    (h : Went machine (registerOrLoginWithGoogle env idToken) w as r w') :
    Opens w as r w' := by
  rw [registerOrLoginWithGoogle_eq] at h
  split at h
  · obtain ⟨rfl, rfl, rfl⟩ := Went.raise_iff.mp h
    exact .same (by simp) rfl
  refine Opens.call rfl ?_ h
  intro claims w₁ as₁ h
  cases hsub : claims.sub with
  | none =>
      rw [hsub] at h
      obtain ⟨rfl, rfl, rfl⟩ := Went.raise_iff.mp h
      exact .same (by simp) rfl
  | some googleSub =>
      rw [hsub] at h
      refine Opens.call rfl ?_ h
      rintro (_ | t) w₂ as₂ h
      · exact (storeTenant_ends (fun _ _ => rfl) h).opens fun _ _ => rfl
      · obtain ⟨rfl, rfl, rfl⟩ := Went.ret_iff.mp h
        exact .same (by simp) rfl

-- ============================================================= the endpoints

/-- A service call, its handler, and the token of the tenant it returned:
what each endpoint is. -/
def signIn (env : Env) (p : Py TenantRow) (f : Exn → Py TenantRow) : Py Resp :=
  ((p.handle f).bind fun tenant => tokenResponse env tenant.id).bind
    fun response => ret (.token response)

/-- What a token part behind an account adds up to. -/
theorem tokenDue_append {t : TenantRow} {as₂ : List (Given machine)}
    (hclock : ∀ g ∈ as, g.act ≠ .utcNow) (htoken : ∀ g ∈ as₂, g.act = .utcNow)
    (hread : ∀ id, readsBack id ∈ as ↔ id = t.id) :
    TokenDue env (as ++ as₂) ↔ Issues env t.id as₂ := by
  constructor
  · rintro ⟨id, hback, hsecret, now, exp, token, hnow, hexp, henc⟩
    rcases List.mem_append.mp hback with hback | hback
    · obtain rfl := (hread id).mp hback
      rcases List.mem_append.mp hnow with hnow | hnow
      · exact absurd rfl (hclock _ hnow)
      · exact ⟨hsecret, now, exp, token, hnow, hexp, henc⟩
    · exact nomatch htoken _ hback
  · rintro ⟨hsecret, now, exp, token, hnow, hexp, henc⟩
    refine ⟨t.id, ?_, hsecret, now, exp, token, ?_, hexp, henc⟩
    · exact List.mem_append_left _ ((hread t.id).mpr rfl)
    · exact List.mem_append_right _ hnow

/-- The token part commits nothing. -/
theorem tokenResponse_silent {id : UUID} (db : Db)
    {r : Option (Except Exn TokenResponse)}
    (h : Went machine (tokenResponse env id) w as r w') :
    ¬ Saw (lands db) as := by
  refine h.not_saw (uses_tokenResponse id) fun g hg => ?_
  obtain ⟨e, a⟩ := g
  cases (hg : e = .utcNow)
  rfl

/-- Without an answer the account decides alone. -/
theorem Opens.leaves_iff {r₀ : Option (Except Exn TenantRow)}
    {r : Option (Except Exn Resp)} (h : Opens w as r₀ w')
    (hr₀ : ∀ t, r₀ ≠ some (.ok t))
    (hr : ∀ response, r ≠ some (.ok (.token response))) :
    LeavesNothing w r w' ↔ ¬ Saw (lands w.db) as ∨ TokenDue env as := by
  cases h with
  | same hno hdb =>
      exact ⟨fun _ => .inl hno, fun _ _ => by rw [hdb]⟩
  | left hyes hmore hread _ =>
      constructor
      · exact fun hleaves => absurd (hleaves hr) hmore
      · rintro (hno | ⟨id, hback, -⟩)
        · exact absurd hyes hno
        · exact absurd hback (hread id)
  | opened => exact absurd rfl (hr₀ _)

/-- The response is the answer of the token part. -/
theorem signIn_went {p : Py TenantRow} {f : Exn → Py TenantRow}
    {r : Option (Except Exn Resp)} (h : Went machine (signIn env p f) w as r w') :
    ∃ rA, Went machine
      ((p.handle f).bind fun tenant => tokenResponse env tenant.id) w as rA w'
      ∧ ((∃ response, r = some (.ok (.token response)))
        ↔ ∃ response, rA = some (.ok response)) := by
  rcases h.bind with
    ⟨response, as₁, w₁, as₂, rfl, hA, hret⟩ | ⟨x, rfl, hA⟩ | ⟨rfl, hA⟩
  · obtain ⟨rfl, rfl, rfl⟩ := Went.ret_iff.mp hret
    rw [List.append_nil]
    exact ⟨_, hA, by simp⟩
  · exact ⟨_, hA, by simp⟩
  · exact ⟨_, hA, by simp⟩

theorem signIn_leaves_iff {p : Py TenantRow} {f : Exn → Py TenantRow}
    {r : Option (Except Exn Resp)} (hf : Reraises f)
    (hclock : p.Uses fun e : Act => e ≠ .utcNow)
    (hopens : ∀ {as r w'}, Went machine p w as r w' → Opens w as r w')
    (h : Went machine (signIn env p f) w as r w') :
    LeavesNothing w r w' ↔ ¬ Saw (lands w.db) as ∨ TokenDue env as := by
  obtain ⟨rA, hA, hr⟩ := signIn_went h
  have hnot : (∀ response, rA ≠ some (.ok response)) →
      ∀ response, r ≠ some (.ok (.token response)) := by
    intro hrA response heq
    obtain ⟨response', heq'⟩ := hr.mp ⟨response, heq⟩
    exact hrA response' heq'
  rcases hA.bind with
    ⟨t, as₁, w₁, as₂, rfl, hp, htoken⟩ | ⟨x, rfl, hp⟩ | ⟨rfl, hp⟩
  · obtain ⟨r₀, hp, hr₀⟩ := hf.went hp
    obtain rfl := (hr₀ t).mp rfl
    obtain ⟨rfl, hissues⟩ := tokenResponse_went htoken
    have hno₂ := tokenResponse_silent w.db htoken
    generalize hr₁ : some (Except.ok t) = r₁ at hp
    cases hopens hp with
    | same hno hdb =>
        exact ⟨fun _ => .inl (by simp [hno, hno₂]), fun _ _ => by rw [hdb]⟩
    | left _ _ _ hnever => exact absurd hr₁.symm (hnever t)
    | opened hyes hmore hread =>
        cases hr₁
        rw [tokenDue_append (hp.uses hclock) (htoken.uses (uses_tokenResponse _))
          hread, ← hissues, ← hr]
        constructor
        · intro hleaves
          by_contra hneither
          exact hmore (hleaves fun response heq =>
            hneither (.inr ⟨response, heq⟩))
        · rintro (hno | ⟨response, heq⟩)
          · exact absurd (by simp [hyes]) hno
          · exact fun hnever => absurd heq (hnever response)
  all_goals
    obtain ⟨r₀, hp, hr₀⟩ := hf.went hp
    refine (hopens hp).leaves_iff (fun t ht => ?_)
      (hnot fun response heq => by cases heq)
    cases (hr₀ t).mpr ht

theorem storeTenant_clockless (row : UUID → DateTime → TenantRow) :
    (storeTenant row).Uses fun e : Act => e ≠ .utcNow :=
  uses_storeTenant nofun nofun (fun _ => nofun) (fun _ => nofun) row

/-- Each endpoint is a service call that does not read the clock, behind a
handler, and the token. -/
theorem serve_signIn (env : Env) {op : Op} (hop : Endpoint op) :
    ∃ p f, Reraises f
    ∧ serve env op = signIn env p f
    ∧ p.Uses (fun e : Act => e ≠ .utcNow)
    ∧ ∀ {w as r w'}, Went machine p w as r w' → Opens w as r w' := by
  cases hop with
  | register payload =>
      refine ⟨registerWithPassword env payload.email payload.password, _, ?_,
        rfl, ?_, registerWithPassword_opens⟩
      · intro x
        cases x <;> exact ⟨_, rfl⟩
      · rw [registerWithPassword_eq]
        refine uses_bind ((uses_perform _ _).mpr nofun) fun found => ?_
        cases found with
        | some t => trivial
        | none =>
            refine uses_bind ((uses_perform _ _).mpr nofun) fun salt => ?_
            exact uses_bind (uses_library _ _) fun _ => storeTenant_clockless _
  | login payload =>
      refine ⟨authenticateWithPassword env payload.email payload.password, _,
        ?_, rfl, ?_, authenticateWithPassword_opens⟩
      · intro x
        cases x <;> exact ⟨_, rfl⟩
      · rw [authenticateWithPassword_eq]
        refine uses_bind ((uses_perform _ _).mpr nofun) fun found => ?_
        exact uses_checkTenant _ _ found
  | google idToken =>
      refine ⟨registerOrLoginWithGoogle env idToken, _, ?_, rfl, ?_,
        registerOrLoginWithGoogle_opens⟩
      · intro x
        cases x <;> exact ⟨_, rfl⟩
      · rw [registerOrLoginWithGoogle_eq]
        split
        · trivial
        refine uses_bind ((uses_perform _ _).mpr nofun) fun claims => ?_
        cases claims.sub with
        | none => trivial
        | some googleSub =>
            refine uses_bind ((uses_perform _ _).mpr nofun) fun found => ?_
            cases found with
            | some t => trivial
            | none => exact storeTenant_clockless _

/-- A register, login or Google request that is not answered with a token
leaves the table as it was, unless its row came into it and was not read
back or got no token. -/
theorem failed_sign_ins {op : Op} (hop : Endpoint op)
    {r : Option (Except Exn Resp)}
    (h : Went machine (serve env op) w as r w') :
    LeavesNothing w r w' ↔ ¬ Saw (lands w.db) as ∨ TokenDue env as := by
  obtain ⟨p, f, hf, heq, hclock, hopens⟩ := serve_signIn env hop
  rw [heq] at h
  exact signIn_leaves_iff hf hclock hopens h

-- ================================================================== samples

def samplePayload : RegisterRequest :=
  ⟨"ada@example.com", "correct horse", by decide⟩

/-- An outside where every commit fails. -/
def noCommit : Choices where
  commit := .failed "connection lost"

/-- An outside to register again in. -/
def again : Choices where
  id := .ofNat 1

/-- The commit of a registration fails: no account is left. -/
theorem failed_sign_ins_sample : ∃ as w',
    Went machine (serve unsigned (.register samplePayload)) World.empty as
      (some (.error (.commitFailed "connection lost"))) w'
    ∧ w'.db.tenants.rows = [] := by
  have hwent := Went.of_run (M := machine) (O := noCommit.oracle) (n := 0)
    (p := serve unsigned (.register samplePayload)) (w := World.empty)
    (r := some (.error (.commitFailed "connection lost")))
    (by decide +kernel) (by decide +kernel)
  have hno : ¬ Saw (lands World.empty.db)
      ((serve unsigned (.register samplePayload)).run
        (M := machine.recorded) noCommit.oracle 0 (World.empty, [])).2.2 := by
    unfold Saw
    decide +kernel
  have hleaves := (failed_sign_ins (.register samplePayload) hwent).mpr
    (.inl hno)
  exact ⟨_, _, hwent, hleaves nofun⟩

/-- Without a token secret a registration answers 503 with the account
stored, and the same request again is a conflict. -/
theorem failed_sign_in_leaves : ∃ as detail w',
    Went machine (serve unsigned (.register samplePayload)) World.empty as
      (some (.error (.http 503 detail))) w'
    ∧ ¬ LeavesNothing World.empty
      (some (.error (.http 503 detail)) : Option (Except Exn Resp)) w'
    ∧ ((serve unsigned (.register samplePayload)).run
        again.oracle 0 w').1
      = some (.error (.http 409
        "An account with this email already exists.")) := by
  have hwent := Went.of_run (M := machine) (O := Choices.oracle {}) (n := 0)
    (p := serve unsigned (.register samplePayload)) (w := World.empty)
    (r := some (.error (.http 503
      "JWT_SECRET is not configured on the server.")))
    (by decide +kernel) (by decide +kernel)
  refine ⟨_, _, _, hwent, fun hleaves => ?_, by decide +kernel⟩
  have hrows := congrArg List.length (hleaves fun response => nofun)
  exact absurd hrows (by decide +kernel)

end ResumeScreening.Accounts.SignUp
