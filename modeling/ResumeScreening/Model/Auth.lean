/-
Authentication and administration: app/auth.py, app/admin_auth.py,
app/jwt_auth.py, app/services/tenant_registration_service.py,
app/routers/auth.py, and the tenant and key routes of
app/routers/admin.py.

The payloads are those that passed their schema. The admin routes stand
behind `require_admin`, which reads no store and is a function.
-/
import ResumeScreening.Lib.Interleave
import ResumeScreening.Model.Accounts

namespace ResumeScreening.Accounts

open Py (DateTime)

-- ============================================================ app/jwt_auth.py

/-- `timedelta(minutes=n)`, in microseconds; `none` where it overflows. -/
def timedeltaMinutes (n : Int) : Option Int :=
  if (n / 1440).natAbs ≤ 999999999 then some (n * 60000000) else none

/-- `now + timedelta(minutes=...)`. -/
def expiry (env : Env) (now : DateTime) : Except LibraryError DateTime :=
  match timedeltaMinutes env.jwtExpiryMinutes with
  | none => .error (.other "OverflowError")
  | some delta =>
      match now.sub (-delta) with
      | none => .error (.other "OverflowError")
      | some exp => .ok exp

def createAccessToken (env : Env) (tenantId : UUID) : Py String := do
  if env.jwtSecret = "" then
    raise (.runtimeError "JWT_SECRET is not configured on the server.")
  else
    let now ← call .utcNow
    let exp ← library (expiry env now)
    library (env.jwtEncode ⟨tenantId.str, now, exp⟩ env.jwtSecret)

/-- `UUID(payload["sub"])`, with the handler around it: a missing `sub`
and a text that is no UUID are `None`. -/
def subject (payload : JwtPayload) : Py (Option UUID) :=
  match payload.sub with
  | none => return none
  | some (.text s) => return UUID.parse s
  | some .other => raise (.external "AttributeError")

def decodeAccessToken (env : Env) (token : String) : Py (Option UUID) := do
  if env.jwtSecret = "" then return none
  else
    -- PyJWT compares `exp` with the clock
    let now ← call .utcNow
    match env.jwtDecode token env.jwtSecret now with
    | .error (.invalidToken _) => return none
    | .error (.other msg) => raise (.external msg)
    | .ok payload => subject payload

-- ================================================================ app/auth.py

def hashKey (env : Env) (rawKey : String) : String := env.sha256Hex rawKey

def requireApiKey (env : Env) (xApiKey : Option String) : Py UUID := do
  match Py.optTruthy xApiKey with
  | none => raise (.http 401 "Missing X-API-Key header.")
  | some rawKey =>
      match ← call (.findApiKey (hashKey env rawKey)) with
      | none => raise (.http 401 "Invalid or revoked API key.")
      | some apiKey =>
          let now ← call .utcNow
          call (.commit [.updateApiKey apiKey.id
            { lastUsedAt := assign apiKey.lastUsedAt (some now) }])
          -- the commit expired the row: reading `tenant_id` loads it again
          let apiKey ← call (.refreshApiKey apiKey.id)
          return apiKey.tenantId

/-- `authorization.partition(" ")`: what stands before and after the
first space. -/
def partition (authorization : String) : String × String :=
  let cs := authorization.toList
  (String.ofList (cs.takeWhile (· != ' ')),
    String.ofList ((cs.dropWhile (· != ' ')).drop 1))

def requireTenant (env : Env) (authorization xApiKey : Option String) :
    Py UUID := do
  match authorization with
  | none => requireApiKey env xApiKey
  | some header =>
      let (scheme, token) := partition header
      if scheme.toLower ≠ "bearer" ∨ token = "" then
        raise (.http 401
          "Malformed Authorization header - expected 'Bearer <token>'.")
      else
        match ← decodeAccessToken env token with
        | none => raise (.http 401 "Invalid or expired session token.")
        | some tenantId => return tenantId

-- ========================================================== app/admin_auth.py

structure HTTPBasicCredentials where
  username : String
  password : String
deriving DecidableEq

/-- `secrets.compare_digest` of two strings, which must be ASCII. -/
def compareDigest (a b : String) : Except Exn Bool :=
  if a.toList.all (fun c => c.toNat < 128)
      && b.toList.all (fun c => c.toNat < 128) then
    .ok (a == b)
  else .error (.external "TypeError")

def requireAdmin (settings : Settings) (credentials : HTTPBasicCredentials) :
    Except Exn Unit := do
  if settings.adminUsername = "" ∨ settings.adminPassword = "" then
    .error (.http 503
      "ADMIN_USERNAME/ADMIN_PASSWORD are not configured on the server.")
  else
    let validUsername ← compareDigest credentials.username settings.adminUsername
    let validPassword ← compareDigest credentials.password settings.adminPassword
    if validUsername && validPassword then .ok ()
    else .error (.http 401 "Invalid admin credentials.")

-- ======================================================= app/routers/admin.py

def createTenant (name : String) : Py TenantRow := do
  let now ← call .transactionNow
  let id ← call .uuid4
  call (.commit [.insertTenant { id := id, name := name, createdAt := now }])
  call (.refreshTenant id)

/-- `ApiKeyCreateResponse`: the row's columns and, once, the raw key. -/
structure ApiKeyCreateResponse where
  id : UUID
  tenantId : UUID
  keyPrefix : String
  createdAt : DateTime
  revokedAt : Option DateTime
  lastUsedAt : Option DateTime
  rawKey : String
deriving DecidableEq

/-- The row `create_api_key` inserts. -/
def issuedKey (env : Env) (tenantId : UUID) (rawKey : String) (id : UUID)
    (now : DateTime) : ApiKey where
  id := id
  tenantId := tenantId
  hashedKey := hashKey env rawKey
  keyPrefix := String.ofList (rawKey.toList.take 8)
  createdAt := now

def createApiKey (env : Env) (tenantId : UUID) : Py ApiKeyCreateResponse := do
  match ← call (.getTenant tenantId) with
  | none => raise (.http 404 "Tenant not found")
  | some _ =>
      let rawKey ← call .tokenUrlsafe
      let now ← call .transactionNow
      let id ← call .uuid4
      call (.commit [.insertApiKey (issuedKey env tenantId rawKey id now)])
      let apiKey ← call (.refreshApiKey id)
      return {
        id := apiKey.id
        tenantId := apiKey.tenantId
        keyPrefix := apiKey.keyPrefix
        createdAt := apiKey.createdAt
        revokedAt := apiKey.revokedAt
        lastUsedAt := apiKey.lastUsedAt
        rawKey := rawKey }

def revokeApiKey (keyId : UUID) : Py ApiKey := do
  match ← call (.getApiKey keyId) with
  | none => raise (.http 404 "API key not found")
  | some apiKey =>
      let now ← call .utcNow
      call (.commit [.updateApiKey apiKey.id
        { revokedAt := assign apiKey.revokedAt (some now) }])
      call (.refreshApiKey apiKey.id)

-- ================================ app/services/tenant_registration_service.py

/-- The row `register_with_password` inserts. -/
def registeredTenant (email hashedPassword : String) (id : UUID)
    (now : DateTime) : TenantRow where
  id := id
  name := email
  email := some email
  hashedPassword := some hashedPassword
  createdAt := now

def registerWithPassword (env : Env) (email password : String) :
    Py TenantRow := do
  match ← call (.selectTenantByEmail email) with
  | some _ =>
      raise (.resourceConflict "An account with this email already exists.")
  | none =>
      let salt ← call .gensalt
      let hashedPassword ← library (env.hashpw password salt)
      let now ← call .transactionNow
      let id ← call .uuid4
      call (.commit [.insertTenant
        (registeredTenant email hashedPassword id now)])
      call (.refreshTenant id)

def invalidLogin : Exn := .invalidCredentials "Invalid email or password."

def authenticateWithPassword (env : Env) (email password : String) :
    Py TenantRow := do
  match ← call (.selectTenantByEmail email) with
  | none => raise invalidLogin
  | some tenant =>
      match tenant.hashedPassword with
      | none => raise invalidLogin
      | some hashedPassword =>
          let verified ← library (env.checkpw password hashedPassword)
          if verified then return tenant else raise invalidLogin

/-- The row a Google sign-up inserts. `email` is `claims.get("email", "")`. -/
def googleTenant (googleSub email : String) (id : UUID) (now : DateTime) :
    TenantRow where
  id := id
  name := Py.orStr email googleSub
  email := Py.optTruthy (some email)
  googleSub := some googleSub
  createdAt := now

def registerOrLoginWithGoogle (env : Env) (googleIdToken : String) :
    Py TenantRow := do
  if env.googleOauthClientId = "" then
    raise (.resourceNotFound "Google sign-in is not configured on this server.")
  else
    let claims ←
      call (.verifyOauth2Token googleIdToken env.googleOauthClientId)
    match claims.sub with
    | none => raise (.keyError "sub")
    | some googleSub =>
        match ← call (.selectTenantByGoogleSub googleSub) with
        | some tenant => return tenant
        | none =>
            let now ← call .transactionNow
            let id ← call .uuid4
            call (.commit [.insertTenant
              (googleTenant googleSub (claims.email.getD "") id now)])
            call (.refreshTenant id)

-- ======================================================== app/routers/auth.py

structure TokenResponse where
  accessToken : String
  tokenType : String := "bearer"
  tenantId : UUID
deriving DecidableEq

def tokenResponse (env : Env) (tenantId : UUID) : Py TokenResponse := do
  let token ← Effect.Prog.handle (createAccessToken env tenantId) fun
    | .runtimeError msg => raise (.http 503 msg)
    | x => raise x
  return { accessToken := token, tenantId := tenantId }

/-- `RegisterRequest`. -/
structure RegisterRequest where
  email : String
  password : String
  password_min : 8 ≤ password.length
deriving DecidableEq

/-- `LoginRequest`. -/
structure LoginRequest where
  email : String
  password : String
deriving DecidableEq

def register (env : Env) (payload : RegisterRequest) : Py TokenResponse := do
  let tenant ← Effect.Prog.handle
    (registerWithPassword env payload.email payload.password) fun
      | .resourceConflict msg => raise (.http 409 msg)
      | x => raise x
  tokenResponse env tenant.id

def login (env : Env) (payload : LoginRequest) : Py TokenResponse := do
  let tenant ← Effect.Prog.handle
    (authenticateWithPassword env payload.email payload.password) fun
      | .invalidCredentials msg => raise (.http 401 msg)
      | x => raise x
  tokenResponse env tenant.id

def googleAuth (env : Env) (idToken : String) : Py TokenResponse := do
  let tenant ← Effect.Prog.handle (registerOrLoginWithGoogle env idToken) fun
    | .resourceNotFound msg => raise (.http 503 msg)
    | .googleAuth _ => raise (.http 401 "Invalid Google ID token.")
    | .valueError _ => raise (.http 401 "Invalid Google ID token.")
    | x => raise x
  tokenResponse env tenant.id

-- ================================================================ the service

/-- The operations. `requireTenant` is a request: what it presents in its
two credential headers. -/
inductive Op
  | createTenant (name : String)
  | createApiKey (tenantId : UUID)
  | revokeApiKey (keyId : UUID)
  | requireTenant (authorization xApiKey : Option String)
  | register (payload : RegisterRequest)
  | login (payload : LoginRequest)
  | googleAuth (idToken : String)
deriving DecidableEq

/-- What an operation answers with. -/
inductive Resp
  | tenant (row : TenantRow)
  | created (response : ApiKeyCreateResponse)
  | apiKey (row : ApiKey)
  | resolved (tenantId : UUID)
  | token (response : TokenResponse)
deriving DecidableEq

/-- The program of an operation. -/
def serve (env : Env) : Op → Py Resp
  | .createTenant name => do return .tenant (← createTenant name)
  | .createApiKey t => do return .created (← createApiKey env t)
  | .revokeApiKey id => do return .apiKey (← revokeApiKey id)
  | .requireTenant authorization xApiKey => do
      return .resolved (← requireTenant env authorization xApiKey)
  | .register payload => do return .token (← register env payload)
  | .login payload => do return .token (← login env payload)
  | .googleAuth idToken => do return .token (← googleAuth env idToken)

/-- The operations as a service over the machine. None starts over, and
nothing else moves the stores. -/
abbrev service (env : Env) : Effect.Service machine where
  Op := Op
  Resp := Resp
  Env := Empty
  body := serve env
  loops _ := false
  env k := nomatch k

/-- The states the service reaches from empty tables. -/
abbrev Reachable (env : Env) (s : Effect.Sys (service env)) : Prop :=
  Effect.Run (fun _ _ => True) (Effect.Sys.start (service env) World.empty) s

end ResumeScreening.Accounts
