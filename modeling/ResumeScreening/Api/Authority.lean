/-
On whose authority a row is stored.

A request acts for a tenant on a session token that names it, or on a
key an operator's request has issued for it. Every row of the deployment
was inserted by a request with such an authority for the row's tenant,
every plan by an operator's request (`rows_authorized`), and every
account and key by the request they are about (`accounts_authorized`):
the services' own invariants, read through the chain.
-/
import ResumeScreening.Api.Gateway
import ResumeScreening.Api.Origins
import ResumeScreening.Sessions.Accounts

namespace ResumeScreening.Api

open Effect
open Accounts (TenantRow ApiKey)

variable {env : Env} {s : Sys (service env)} {i : Nat} {t : UUID}

-- =============================================================== authorities

/-- Request `i` is an operator's: its credentials are the configured
ones. -/
def Operator (s : Sys (service env)) (i : Nat) (request : AdminRequest) :
    Prop :=
  ∃ credentials, s.op? i = some (.admin credentials request)
    ∧ Accounts.requireAdmin env.accounts.toSettings credentials = .ok ()

/-- What entitles request `i` to act for a tenant, by the two headers it
shows. -/
inductive Authority (s : Sys (service env)) (i : Nat) (t : UUID) :
    Option String → Option String → Prop
  | session {header xApiKey now payload sub} : env.accounts.jwtSecret ≠ "" →
      (i, ⟨.left .utcNow, .ok now⟩) ∈ s.log →
      env.accounts.jwtDecode (Accounts.partition header).2
        env.accounts.jwtSecret now = .ok payload →
      payload.sub = some (.text sub) → UUID.parse sub = some t →
      Authority s i t (some header) xApiKey
  | key {key j issued} : Operator s j (.createApiKey t) →
      (j, ⟨.left .tokenUrlsafe, .ok issued⟩) ∈ s.log →
      env.accounts.sha256Hex issued = env.accounts.sha256Hex key →
      Authority s i t none (some key)

/-- Request `i` acts for the tenant. -/
def ActsFor (s : Sys (service env)) (i : Nat) (request : Request) (t : UUID) :
    Prop :=
  ∃ authorization xApiKey,
    s.op? i = some (.tenant authorization xApiKey request)
      ∧ Authority s i t authorization xApiKey

-- ================================================================== entering

/-- How a request comes to an operation of the deployment. -/
inductive Enters (env : Env) : Op → Option (Thread
    (Accounts.service env.accounts)) → ResumeScreening.Op → Prop
  | tenant {authorization xApiKey request t} :
      Enters env (.tenant authorization xApiKey request)
        (some ⟨.requireTenant authorization xApiKey,
          some (.ret (.resolved t))⟩) (request.op t)
  | plan {credentials payload} : Accounts.requireAdmin
      env.accounts.toSettings credentials = .ok () →
      Enters env (.admin credentials (.createPlan payload)) none
        (.createPlan payload)
  | webhook {rawBody signature eventType payload} :
      signedEvent env rawBody signature = some (eventType, payload) →
      Enters env (.webhook rawBody signature) none
        (.webhook eventType payload)
  | worker : Enters env .worker none .worker

theorem admin_entry {credentials : Accounts.HTTPBasicCredentials}
    {request : AdminRequest} {e : Entry (Accounts.service env.accounts)
      (ResumeScreening.service env.pipeline) asks Resp}
    (h : entry env (.admin credentials request) = e)
    (hother : ∀ p, e ≠ .other p) : Accounts.requireAdmin
      env.accounts.toSettings credentials = .ok () ∧ adminEntry env request = e := by
  unfold entry at h
  cases hadmin : Accounts.requireAdmin env.accounts.toSettings credentials with
  | error x =>
      simp only [hadmin] at h
      exact absurd h.symm (hother _)
  | ok u =>
      simp only [hadmin] at h
      exact ⟨rfl, h⟩

theorem enters_of_entered {op : Op} {x : Option (Thread
    (Accounts.service env.accounts))} {w : ResumeScreening.Op}
    (h : (gateway env).Entered op x w) : Enters env op x w := by
  rcases h.cases with ⟨v, r, hentry, hafter, rfl⟩ | ⟨hentry, rfl⟩
  · replace hentry : entry env op = .first v := hentry
    replace hafter : after op r = .inr w := hafter
    cases op with
    | tenant authorization xApiKey request =>
        cases hentry
        cases r with
        | resolved t =>
            cases hafter
            exact .tenant
        | _ => cases hafter
    | _ => cases r <;> cases hafter
  · replace hentry : entry env op = .second w := hentry
    cases op with
    | worker =>
        cases hentry
        exact .worker
    | webhook rawBody signature =>
        unfold entry at hentry
        cases hread : signedEvent env rawBody signature with
        | none => simp [hread] at hentry
        | some read =>
            simp only [hread] at hentry
            cases hentry
            exact .webhook hread
    | admin credentials request =>
        obtain ⟨hadmin, hentry⟩ := admin_entry hentry fun p h => by cases h
        cases request with
        | createPlan payload =>
            cases hentry
            exact .plan hadmin
        | _ => cases hentry
    | _ => cases hentry

/-- Which requests start at an operation of the credential service. -/
inductive Starts (env : Env) : Op → Accounts.Op → Prop
  | register {payload} : Starts env (.register payload) (.register payload)
  | login {payload} : Starts env (.login payload) (.login payload)
  | googleAuth {idToken} :
      Starts env (.googleAuth idToken) (.googleAuth idToken)
  | tenant {authorization xApiKey request} :
      Starts env (.tenant authorization xApiKey request)
        (.requireTenant authorization xApiKey)
  | createTenant {credentials name} : Accounts.requireAdmin
      env.accounts.toSettings credentials = .ok () →
      Starts env (.admin credentials (.createTenant name)) (.createTenant name)
  | createApiKey {credentials t} : Accounts.requireAdmin
      env.accounts.toSettings credentials = .ok () →
      Starts env (.admin credentials (.createApiKey t)) (.createApiKey t)
  | revokeApiKey {credentials id} : Accounts.requireAdmin
      env.accounts.toSettings credentials = .ok () →
      Starts env (.admin credentials (.revokeApiKey id)) (.revokeApiKey id)

theorem starts_of_entry {op : Op} {v : Accounts.Op}
    (h : entry env op = .first v) : Starts env op v := by
  cases op with
  | health => cases h
  | register payload =>
      cases h
      exact .register
  | login payload =>
      cases h
      exact .login
  | googleAuth idToken =>
      cases h
      exact .googleAuth
  | tenant authorization xApiKey request =>
      cases h
      exact .tenant
  | webhook rawBody signature =>
      unfold entry at h
      cases hread : signedEvent env rawBody signature with
      | none => simp [hread] at h
      | some read => simp [hread] at h
  | admin credentials request =>
      obtain ⟨hadmin, hentry⟩ := admin_entry h fun p hp => by cases hp
      cases request with
      | createTenant name =>
          cases hentry
          exact .createTenant hadmin
      | createApiKey t =>
          cases hentry
          exact .createApiKey hadmin
      | revokeApiKey id =>
          cases hentry
          exact .revokeApiKey hadmin
      | _ => cases hentry
  | worker => cases h

/-- The tenant and the request an operation stands for, if it is a
tenant's. -/
def request? : ResumeScreening.Op → Option (UUID × Request)
  | .createCandidate t payload => some (t, .createCandidate payload)
  | .listCandidates t => some (t, .listCandidates)
  | .getCandidate t candidateId => some (t, .getCandidate candidateId)
  | .uploadResume t file => some (t, .uploadResume file)
  | .createJob t payload => some (t, .createJob payload)
  | .listJobs t => some (t, .listJobs)
  | .getJob t jobId => some (t, .getJob jobId)
  | .rankCandidates t jobId topK topN =>
      some (t, .rankCandidates jobId topK topN)
  | .subscribe t planId => some (t, .subscribe planId)
  | _ => none

theorem request?_op (t : UUID) (request : Request) :
    request? (request.op t) = some (t, request) := by
  cases request <;> rfl

-- ================================================================== authority

variable {v : Sys (Accounts.service env.accounts)}
  {w : Sys (ResumeScreening.service env.pipeline)} {f g : Nat → Option Nat}

/-- A key that let a request in was issued for the tenant. -/
theorem issued_of_keyed (hv : Accounts.Reachable env.accounts v) {k : Nat}
    {key : String} (h : Accounts.Sessions.Keyed env.accounts (own k v.log) key t) :
    ∃ issued id, Accounts.Issued v.log v.ops t issued id
      ∧ env.accounts.sha256Hex issued = env.accounts.sha256Hex key := by
  obtain ⟨row, row', hfind, hhash, hrefresh, hid, ht⟩ := h
  have hledger := (Accounts.reachable_holds hv).kept
  obtain ⟨found, hfound, hcont⟩ := hledger.shown (mem_own.mp hfind) rfl
  obtain ⟨loaded, hloaded, hcont'⟩ := hledger.shown (mem_own.mp hrefresh) rfl
  -- the row found and the row loaded again are one
  have hsame : loaded = found := by
    refine Accounts.apiKey_unique hloaded hfound ?_
    rw [hcont.id, hcont'.id, hid]
  obtain ⟨issued, hissued, hkey⟩ := hledger.issued hloaded
  refine ⟨issued, loaded.id, ?_, ?_⟩
  · rw [← ht, ← hcont'.tenantId]
    exact hissued
  · show Accounts.hashKey env.accounts issued = Accounts.hashKey env.accounts key
    rw [← hkey, hsame, hcont.hashedKey, hhash]

/-- A call of the credential service is a request that starts there. -/
theorem request_of_op (hj : (gateway env).Joined s v w f g) {k : Nat}
    {vop : Accounts.Op} (hop : v.ops[k]? = some vop) :
    ∃ i op, s.op? i = some op ∧ f i = some k ∧ Starts env op vop := by
  unfold Sys.ops at hop
  rw [List.getElem?_map] at hop
  obtain ⟨u, hu, rfl⟩ := Option.map_eq_some_iff.mp hop
  obtain ⟨i, thread, hthread, hi, hentry⟩ := hj.fronted hu
  refine ⟨i, thread.op, ?_, hi, starts_of_entry hentry⟩
  unfold Sys.op?
  rw [hthread]
  rfl

theorem operator_of_issued (hj : (gateway env).Joined s v w f g)
    {issued : String} {id : UUID}
    (h : Accounts.Issued v.log v.ops t issued id) :
    ∃ j, Operator s j (.createApiKey t)
      ∧ (j, ⟨.left .tokenUrlsafe, .ok issued⟩) ∈ s.log := by
  obtain ⟨k, hop, hdrew, -⟩ := h
  obtain ⟨j, op, hop', hk, hstarts⟩ := request_of_op hj hop
  cases hstarts with
  | createApiKey hadmin =>
      exact ⟨j, ⟨_, hop', hadmin⟩, hj.left_logged hk hdrew⟩

/-- An operation of the deployment serves a request. -/
theorem request_of_served (hj : (gateway env).Joined s v w f g)
    {wop : ResumeScreening.Op} {m : Nat} (hop : w.ops[m]? = some wop) :
    ∃ i op, s.op? i = some op ∧ g i = some m
      ∧ Enters env op (view f v.threads i) wop := by
  unfold Sys.ops at hop
  rw [List.getElem?_map] at hop
  obtain ⟨u, hu, rfl⟩ := Option.map_eq_some_iff.mp hop
  obtain ⟨i, thread, hthread, hi, hentered⟩ := hj.served hu
  refine ⟨i, thread.op, ?_, hi, enters_of_entered hentered⟩
  unfold Sys.op?
  rw [hthread]
  rfl

/-- A tenant's operation serves a request the gate has let in. -/
theorem entered_of_served (hv : Accounts.Reachable env.accounts v)
    (hj : (gateway env).Joined s v w f g) {wop : ResumeScreening.Op}
    {request : Request} {m : Nat} (hop : w.ops[m]? = some wop)
    (hreq : request? wop = some (t, request)) :
    ∃ i authorization xApiKey n,
      s.op? i = some (.tenant authorization xApiKey request) ∧ f i = some n
        ∧ g i = some m ∧ Accounts.Sessions.Enters env.accounts (own n v.log)
          (.requireTenant authorization xApiKey) t := by
  obtain ⟨i, op, hopi, hm, henters⟩ := request_of_served hj hop
  generalize hx : view f v.threads i = x at henters
  cases henters with
  | plan => cases hreq
  | webhook => cases hreq
  | worker => cases hreq
  | @tenant authorization xApiKey request' t' =>
      rw [request?_op] at hreq
      cases hreq
      obtain ⟨n, hn, hended⟩ := view_eq_some.mp hx
      have hends : Accounts.Sessions.Enters env.accounts (own n v.log)
          (.requireTenant authorization xApiKey) t :=
        (Accounts.Sessions.reachable_books hv).ended hended
      exact ⟨i, authorization, xApiKey, n, hopi, hn, hm, hends⟩

/-- A request the deployment serves for a tenant acts for it. -/
theorem actsFor_of_served (hv : Accounts.Reachable env.accounts v)
    (hj : (gateway env).Joined s v w f g) {wop : ResumeScreening.Op}
    {request : Request} {m : Nat} (hop : w.ops[m]? = some wop)
    (hreq : request? wop = some (t, request)) :
    ∃ i, g i = some m ∧ ActsFor s i request t := by
  obtain ⟨i, authorization, xApiKey, n, hopi, hn, hm, hends⟩ :=
    entered_of_served hv hj hop hreq
  refine ⟨i, hm, authorization, xApiKey, hopi, ?_⟩
  cases authorization with
  | some header =>
      obtain ⟨hsecret, now, payload, sub, hclock, hdecode, hsub, hparse⟩ := hends
      exact .session hsecret (hj.left_logged hn (mem_own.mp hclock)) hdecode
        hsub hparse
  | none =>
      obtain ⟨key, rfl, hkeyed⟩ := hends
      obtain ⟨issued, id, hissued, hhash⟩ := issued_of_keyed hv hkeyed
      obtain ⟨j, hadmin, hdrew⟩ := operator_of_issued hj hissued
      exact .key hadmin hdrew hhash

/-- The same, wherever the deployment serves it. -/
theorem actsFor_of_mem (hv : Accounts.Reachable env.accounts v)
    (hj : (gateway env).Joined s v w f g) {wop : ResumeScreening.Op}
    {request : Request} (hop : wop ∈ w.ops)
    (hreq : request? wop = some (t, request)) : ∃ i, ActsFor s i request t := by
  obtain ⟨m, hm⟩ := List.getElem?_of_mem hop
  obtain ⟨i, -, hi⟩ := actsFor_of_served hv hj hm hreq
  exact ⟨i, hi⟩

theorem operator_of_plan (hj : (gateway env).Joined s v w f g)
    {payload : PlanCreate} (hop : .createPlan payload ∈ w.ops) :
    ∃ i, Operator s i (.createPlan payload) := by
  obtain ⟨m, hm⟩ := List.getElem?_of_mem hop
  obtain ⟨i, op, hopi, -, henters⟩ := request_of_served hj hm
  generalize view f v.threads i = x at henters
  generalize hwop : ResumeScreening.Op.createPlan payload = wop at henters
  cases henters with
  | @tenant authorization xApiKey request t => cases request <;> cases hwop
  | plan hadmin =>
      cases hwop
      exact ⟨i, _, hopi, hadmin⟩
  | webhook => cases hwop
  | worker => cases hwop

/-- The gate answers a tenant. -/
theorem gate_returns : ∀ vop : Accounts.Op,
    (Accounts.serve env.accounts vop).Returns fun r =>
      ∀ authorization xApiKey, vop = .requireTenant authorization xApiKey →
        ∃ t, r = .resolved t := by
  intro vop
  cases vop with
  | requireTenant authorization xApiKey =>
      exact Prog.returns_bind fun t _ _ _ => ⟨t, rfl⟩
  | _ => exact Prog.returns_bind fun _ _ _ h => by cases h

def sampleCandidate : CandidateCreate := { fullName := "Ada" }

/-- An operator opens an account and issues a key, and a request that
shows it creates a candidate. -/
def sampleCreate : List (Label (service sampleEnv)) :=
  .spawn (.admin sampleCredentials (.createTenant "Ada")) :: steps 0 4
    ++ .spawn (.admin sampleCredentials (.createApiKey (.ofNat 0)))
      :: steps 1 6 (.ofNat 1)
    ++ .spawn (.tenant none (some "key") (.createCandidate sampleCandidate))
      :: steps 2 11

/-- The candidate is stored, and the request that created it answered. -/
def candidateCreated (s : Sys (service sampleEnv)) : Bool :=
  match s.world.2.db.candidates.rows, s.op? 2, s.result? 2 with
  | _ :: _, some (.tenant ..), some (.ok _) => true
  | _, _, _ => false

theorem sampleCreate_run : ∃ s : Sys (service sampleEnv),
    Reachable sampleEnv s ∧ s.world.2.db.candidates.rows ≠ []
      ∧ ∃ authorization xApiKey request resp,
        s.Ended 2 (.tenant authorization xApiKey request) (.ok resp) := by
  obtain ⟨s, hs, h⟩ := reachable_of_exec sampleCreate candidateCreated
    (by decide +kernel)
  unfold candidateCreated at h
  split at h
  next row rows authorization xApiKey request resp hrows hop hresult =>
    refine ⟨s, hs, by rw [hrows]; simp, authorization, xApiKey, request, resp,
      ?_⟩
    exact Sys.ended_iff.mpr ⟨hop, hresult⟩
  next => cases h

/-- In every reachable state, the stores and the answers are those of a
run of the credential service and a run of the deployment: what a
tenant's request was answered, the deployment answered the operation for
the tenant the gate resolved its headers to, or the gate did. -/
theorem answers_of_services (hs : Reachable env s) :
    ∃ v w, Accounts.Reachable env.accounts v
      ∧ ResumeScreening.Reachable env.pipeline w
      ∧ s.world = (v.world, w.world)
      ∧ (∀ {i authorization xApiKey request resp},
        s.Ended i (.tenant authorization xApiKey request) (.ok resp) →
        ∃ k n t r,
          v.Ended k (.requireTenant authorization xApiKey) (.ok (.resolved t))
            ∧ w.Ended n (request.op t) (.ok r) ∧ resp = .served r)
      ∧ ∀ {i authorization xApiKey request x},
        s.Ended i (.tenant authorization xApiKey request) (.error x) →
        (∃ k y, v.Ended k (.requireTenant authorization xApiKey) (.error y)
            ∧ x = .inl y)
          ∨ ∃ k n t y,
            v.Ended k (.requireTenant authorization xApiKey)
                (.ok (.resolved t))
              ∧ w.Ended n (request.op t) (.error y) ∧ x = .inr y := by
  obtain ⟨v, w, f, g, hv, hw, hj⟩ := gateway_refines hs
  -- an operation that serves the request is for the tenant resolved
  have hserved : ∀ {i authorization xApiKey request w₀},
      (gateway env).Entered (.tenant authorization xApiKey request)
        (view f v.threads i) w₀ →
      ∃ k t, v.Ended k (.requireTenant authorization xApiKey)
        (.ok (.resolved t)) ∧ w₀ = request.op t := by
    intro i authorization xApiKey request w₀ hentered
    have henters := enters_of_entered hentered
    generalize hx : view f v.threads i = x at henters
    cases henters with
    | @tenant _ _ _ t =>
        obtain ⟨k, -, hk⟩ := view_eq_some.mp hx
        exact ⟨k, t, hk, rfl⟩
  have hstarts : ∀ {authorization xApiKey request v₀},
      (gateway env).entry (.tenant authorization xApiKey request) = .first v₀ →
      v₀ = .requireTenant authorization xApiKey := by
    intro authorization xApiKey request v₀ hentry
    cases hentry
    rfl
  refine ⟨v, w, hv, hw, hj.worlds, fun hend => ?_, fun hend => ?_⟩
  · rcases hj.answered hend with ⟨k, v₀, r, -, hentry, hk, hafter⟩
      | ⟨n, w₀, r, -, hentered, hn, heq⟩ | ⟨p, hother⟩
    · obtain rfl := hstarts hentry
      -- the gate answers nothing but a tenant, and that lets the request in
      obtain ⟨t, rfl⟩ := hv.returns gate_returns hk _ _ rfl
      cases hafter
    · obtain ⟨k, t, hk, rfl⟩ := hserved hentered
      exact ⟨k, n, t, r, hk, hn, heq⟩
    · cases hother
  · rcases hj.failed hend with ⟨k, v₀, y, -, hentry, hk, heq⟩
      | ⟨n, w₀, y, -, hentered, hn, heq⟩ | ⟨p, hother⟩
    · obtain rfl := hstarts hentry
      exact .inl ⟨k, y, hk, heq⟩
    · obtain ⟨k, t, hk, rfl⟩ := hserved hentered
      exact .inr ⟨k, n, t, y, hk, hn, heq⟩
    · cases hother

/-- The operation that inserts a candidate is a create or an upload for its
tenant. -/
theorem answers_of_services_sample : ∃ s : Sys (service sampleEnv),
    ∃ i authorization xApiKey request r,
      s.Ended i (.tenant authorization xApiKey request) (.ok (.served r))
      ∧ ∃ v k t, Accounts.Reachable sampleEnv.accounts v
        ∧ v.Ended k (.requireTenant authorization xApiKey)
          (.ok (.resolved t)) := by
  obtain ⟨s, hs, -, authorization, xApiKey, request, resp, hend⟩ :=
    sampleCreate_run
  obtain ⟨v, w, hv, -, -, hok, -⟩ := answers_of_services hs
  obtain ⟨k, n, t, r, hk, -, rfl⟩ := hok hend
  exact ⟨s, 2, authorization, xApiKey, request, r, hend, v, k, t, hv, hk⟩

theorem request?_candidate {wop : ResumeScreening.Op} {row : Candidate}
    (h : Origins.Commits wop (.insertCandidate row)) :
    ∃ request, request? wop = some (row.tenantId, request)
      ∧ ((∃ payload, request = .createCandidate payload)
        ∨ ∃ file, request = .uploadResume file) := by
  cases h with
  | candidate => exact ⟨_, rfl, .inl ⟨_, rfl⟩⟩
  | upload => exact ⟨_, rfl, .inr ⟨_, rfl⟩⟩

/-- In every reachable state, every account was opened by an operator's
request and has no credential, or by the registration of its address, or
by a sign-in whose `sub` Google verified; every key was issued for its
tenant by an operator's request, and revoked by one if it is. -/
theorem accounts_authorized (hs : Reachable env s) :
    (∀ r ∈ s.world.1.db.tenants.rows, ∃ i,
      (Operator s i (.createTenant r.name) ∧ r.email = none
          ∧ r.hashedPassword = none ∧ r.googleSub = none)
        ∨ (∃ payload, s.op? i = some (.register payload)
          ∧ r.email = some payload.email ∧ r.googleSub = none)
        ∨ ∃ idToken claims sub, s.op? i = some (.googleAuth idToken)
          ∧ (i, ⟨.left (.verifyOauth2Token idToken
              env.accounts.googleOauthClientId), .ok claims⟩) ∈ s.log
          ∧ claims.sub = some sub ∧ r.googleSub = some sub
          ∧ r.hashedPassword = none)
    ∧ ∀ k ∈ s.world.1.db.apiKeys.rows,
      (∃ i issued, Operator s i (.createApiKey k.tenantId)
          ∧ (i, ⟨.left .tokenUrlsafe, .ok issued⟩) ∈ s.log
          ∧ k.hashedKey = env.accounts.sha256Hex issued)
        ∧ (k.revokedAt.isSome → ∃ i, Operator s i (.revokeApiKey k.id)) := by
  obtain ⟨v, w, f, g, hv, hw, hj⟩ := gateway_refines hs
  have hledger := (Accounts.reachable_holds hv).kept
  rw [hj.worlds]
  refine ⟨fun r hr => ?_, fun k hk => ⟨?_, fun hrev => ?_⟩⟩
  · obtain ⟨n, vop, hop, hopens, -⟩ :=
      (Accounts.Sessions.reachable_books hv).kept.opened hr
    obtain ⟨i, op, hopi, hi, hstarts⟩ := request_of_op hj hop
    refine ⟨i, ?_⟩
    cases hopens with
    | admin =>
        cases hstarts with
        | createTenant hadmin => exact .inl ⟨⟨_, hopi, hadmin⟩, rfl, rfl, rfl⟩
    | @password payload =>
        cases hstarts with
        | register => exact .inr (.inl ⟨payload, hopi, rfl, rfl⟩)
    | @google idToken claims sub id now hclaims hsub =>
        cases hstarts with
        | googleAuth =>
            have hmem := hj.left_logged hi (mem_own.mp hclaims)
            exact .inr (.inr ⟨idToken, claims, sub, hopi, hmem, hsub, rfl, rfl⟩)
  · obtain ⟨issued, hissued, hhash⟩ := hledger.issued hk
    obtain ⟨i, hadmin, hdrew⟩ := operator_of_issued hj hissued
    exact ⟨i, issued, hadmin, hdrew, hhash⟩
  · obtain ⟨n, hop, -⟩ := (hledger.revoked hk).mp hrev
    obtain ⟨i, op, hopi, -, hstarts⟩ := request_of_op hj hop
    cases hstarts with
    | revokeApiKey hadmin => exact ⟨i, _, hopi, hadmin⟩

/-- The account and the key of the run above. -/
theorem accounts_authorized_sample : ∃ s : Sys (service sampleEnv),
    ∃ k ∈ s.world.1.db.apiKeys.rows, ∃ i,
      Operator s i (.createApiKey k.tenantId) := by
  obtain ⟨s, hs, h⟩ := reachable_of_exec sampleCreate
    (fun s => !s.world.1.db.apiKeys.rows.isEmpty) (by decide +kernel)
  obtain ⟨k, hk⟩ := List.exists_mem_of_ne_nil s.world.1.db.apiKeys.rows
    (by simpa using h)
  obtain ⟨⟨i, issued, hi, -⟩, -⟩ := (accounts_authorized hs).2 k hk
  exact ⟨s, k, hk, i, hi⟩

end ResumeScreening.Api
