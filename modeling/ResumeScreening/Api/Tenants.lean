/-
The tenants the stored rows name.

Three tables of the deployment refer to `tenants.id`, which its half of
the model does not hold, so nothing there checks the foreign key. It
needs no check: a request gets in on a key of the `api_keys` table,
whose own foreign key is checked, or on a session token, which was
signed for an account; and accounts stay. What has to be assumed is that
nobody else signs tokens (`Unforged`).
-/
import ResumeScreening.Api.Authority
import ResumeScreening.Sessions.Tokens

namespace ResumeScreening.Api

open Effect

variable {env : Env} {s s' : Sys (service env)} {i : Nat} {t : UUID}
  {v : Sys (Accounts.service env.accounts)}
  {w : Sys (ResumeScreening.service env.pipeline)} {f g : Nat → Option Nat}

-- ================================================================== sessions

/-- The requests that answer a token. -/
def SignsIn : Op → Prop
  | .register _ | .login _ | .googleAuth _ => True
  | _ => False

/-- The token was answered to a sign-in of the run. -/
def Answered (s : Sys (service env)) (token : String) : Prop :=
  ∃ i op r, SignsIn op ∧ s.Ended i op (.ok (.token r)) ∧ r.accessToken = token

/-- Nobody forges a token: one that decodes was answered to a sign-in
before it is shown. -/
def Unforged (env : Env) : Guard (service env) := fun s l =>
  ∀ header xApiKey request now payload,
    l = .spawn (.tenant (some header) xApiKey request) →
    env.accounts.jwtDecode (Accounts.partition header).2
      env.accounts.jwtSecret now = .ok payload →
    Answered s (Accounts.partition header).2

theorem Answered.step {token : String} (h : Answered s token)
    {l : Label (service env)} (hstep : s.step l = some s') :
    Answered s' token := by
  obtain ⟨i, op, r, hop, hended, htoken⟩ := h
  have hloop : (service env).loops op = false := by
    cases op with
    | worker => exact hop.elim
    | _ => rfl
  exact ⟨i, op, r, hop, (hended.step hloop hstep).1, htoken⟩

/-- Every token a request shows that decodes was answered to a sign-in. -/
theorem shown_answered (hs : Run (fun s l => Whole env s l ∧ Unforged env s l)
      (Sys.start (service env) (Accounts.World.empty, World.empty)) s) :
    ∀ {i header xApiKey request now payload},
      s.op? i = some (.tenant (some header) xApiKey request) →
      env.accounts.jwtDecode (Accounts.partition header).2
        env.accounts.jwtSecret now = .ok payload →
      Answered s (Accounts.partition header).2 := by
  induction hs with
  | refl =>
      intro i header xApiKey request now payload hop
      cases hop
  | step l _ hok hstep ih =>
      intro i header xApiKey request now payload hop hdecode
      rcases Sys.op?_step hstep hop with hold | hnew
      · exact (ih hold hdecode).step hstep
      · have hanswered := hok.2 _ _ _ _ _ hnew hdecode
        exact hanswered.step hstep

/-- A token is answered to a sign-in as it was to the request's. -/
theorem after_token {op : Op} {vr : Accounts.Resp} {r : Accounts.TokenResponse}
    (hop : SignsIn op) (h : after op vr = .inl (.token r)) : vr = .token r := by
  cases vr with
  | token r' =>
      cases op <;> first
        | exact hop.elim
        | exact congrArg Accounts.Resp.token (Resp.token.inj (Sum.inl.inj h))
  | _ =>
      cases op <;> first
        | exact hop.elim
        | cases h

/-- A token answered to a sign-in decodes to the tenant of an account. -/
theorem account_of_answered (hjwt : Accounts.Sessions.PyJwt env.accounts)
    (hv : Accounts.Reachable env.accounts v)
    (hj : (gateway env).Joined s v w f g) {token : String}
    (h : Answered s token) {now : Py.DateTime} {payload : Accounts.JwtPayload}
    {sub : String} (hdecode : env.accounts.jwtDecode token
      env.accounts.jwtSecret now = .ok payload)
    (hsub : payload.sub = some (.text sub)) (hparse : UUID.parse sub = some t) :
    ∃ r ∈ v.world.db.tenants.rows, r.id = t := by
  obtain ⟨i, op, r, hop, hended, rfl⟩ := h
  rcases hj.answered hended with ⟨k, v₀, vr, -, -, hvended, hafter⟩
    | ⟨_, _, r', -, -, -, heq⟩ | ⟨p, hother⟩
  · replace hafter : after op vr = .inl (.token r) := hafter
    obtain rfl := after_token hop hafter
    obtain ⟨row, hrow, hid, -⟩ :=
      Accounts.Sessions.account_of_token hv hvended
    have hends : Accounts.Sessions.Ends env.accounts v₀ (own k v.log)
        (.token r) := (Accounts.Sessions.reachable_books hv).ended hvended
    obtain ⟨-, -, signed, exp, -, -, hsigned⟩ := hends
    refine ⟨row, hrow, ?_⟩
    by_cases hin : Accounts.Sessions.InForce ⟨r.tenantId.str, signed, exp⟩ now
    · rw [hjwt.accepts hsigned hin] at hdecode
      cases hdecode
      cases hsub
      rw [UUID.parse_str] at hparse
      cases hparse
      exact hid
    · obtain ⟨msg, hmsg⟩ := hjwt.refuses hsigned hin
      rw [hmsg] at hdecode
      cases hdecode
  · cases heq
  · replace hother : entry env op = .other p := hother
    cases op with
    | register payload => cases hother
    | login payload => cases hother
    | googleAuth idToken => cases hother
    | _ => exact hop.elim

-- =================================================================== tenants

/-- What lets a request in as a tenant is a key or a session of an
account. -/
theorem account_of_enters (hjwt : Accounts.Sessions.PyJwt env.accounts)
    (hv : Accounts.Reachable env.accounts v)
    (hj : (gateway env).Joined s v w f g) {k : Nat}
    {authorization xApiKey : Option String}
    (hshown : ∀ {header now payload}, authorization = some header →
      env.accounts.jwtDecode (Accounts.partition header).2
        env.accounts.jwtSecret now = .ok payload →
      Answered s (Accounts.partition header).2)
    (h : Accounts.Sessions.Enters env.accounts (own k v.log)
      (.requireTenant authorization xApiKey) t) :
    ∃ r ∈ v.world.db.tenants.rows, r.id = t := by
  cases authorization with
  | some header =>
      obtain ⟨-, now, payload, sub, -, hdecode, hsub, hparse⟩ := h
      exact account_of_answered hjwt hv hj (hshown rfl hdecode) hdecode hsub
        hparse
  | none =>
      obtain ⟨key, -, row, row', -, -, hrefresh, -, ht⟩ := h
      -- the row loaded again is a row of the table, whose tenant is there
      have hledger := (Accounts.reachable_holds hv).kept
      obtain ⟨loaded, hloaded, hcont⟩ :=
        hledger.shown (mem_own.mp hrefresh) rfl
      obtain ⟨r, hr, hid⟩ :=
        (Accounts.Sessions.reachable_books hv).kept.keys loaded hloaded
      exact ⟨r, hr, by rw [hid, hcont.tenantId, ht]⟩

/-- A step that shows at most the session of the first request, once it is
answered. -/
def showsSession (s : Sys (service sampleEnv)) :
    Label (service sampleEnv) → Bool
  | .spawn (.webhook _ _) => false
  | .spawn (.tenant (some header) _ _) => decide
      (s.op? 0 = some (.register Accounts.Sessions.sampleRegistration)
        ∧ s.result? 0 = some (.ok (.token Accounts.Sessions.sampleResponse))
        ∧ (Accounts.partition header).2 = Accounts.Sessions.sampleToken)
  | _ => true

theorem unforged_of_shows {s : Sys (service sampleEnv)}
    {l : Label (service sampleEnv)} (h : showsSession s l = true) :
    Whole sampleEnv s l ∧ Unforged sampleEnv s l := by
  constructor
  · intro rawBody signature payload hl
    subst hl
    cases h
  · intro header xApiKey request now payload hl _
    subst hl
    obtain ⟨hop, hres, htoken⟩ := of_decide_eq_true h
    exact ⟨0, .register Accounts.Sessions.sampleRegistration,
      Accounts.Sessions.sampleResponse, trivial,
      Sys.ended_iff.mpr ⟨hop, hres⟩, htoken.symm⟩

/-- A registration, and a candidate created in its session. -/
def sampleSession : List (Label (service sampleEnv)) :=
  .spawn (.register Accounts.Sessions.sampleRegistration) :: steps 0 7
    ++ .spawn (.tenant
        (some ("Bearer" ++ " " ++ Accounts.Sessions.sampleToken)) none
        (.createCandidate sampleCandidate))
      :: steps 1 8

end ResumeScreening.Api
