/-
The credential store: the `tenants` and `api_keys` tables, and what one
action of the authentication and administration code does to them.

A session's pending statements live in the program until it commits
them, as in Model/World.lean. A commit that fails and one that takes
effect but loses its reply are one exception to the code; here they are
two, so that a log of performed actions tells whether a commit took
effect. No program looks at the difference.

Settings are those of app/config.py the gates read. The libraries that
only compute (hashlib, PyJWT, bcrypt) are functions of the environment.
-/
import ResumeScreening.Model.Admin

namespace ResumeScreening.Accounts

open Relational (Schema Table)
open Py (DateTime)

-- =================================================================== rows

/-- A row of `tenants`. -/
structure TenantRow extends Tenant where
  email : Option String := none
  hashedPassword : Option String := none
  googleSub : Option String := none
  createdAt : DateTime
deriving DecidableEq

/-- A row of `api_keys`. -/
structure ApiKey where
  id : UUID
  tenantId : UUID
  hashedKey : String
  keyPrefix : String
  createdAt : DateTime
  revokedAt : Option DateTime := none
  lastUsedAt : Option DateTime := none
deriving DecidableEq

def tenantSchema : Schema TenantRow where
  valid t :=
    fits 255 t.name && t.email.all (fits 255) && t.hashedPassword.all (fits 255)
      && t.googleSub.all (fits 255)
  clash a b :=
    a.id == b.id || sameUnique a.email b.email
      || sameUnique a.googleSub b.googleSub
  clash_symm a b := by
    rw [beq_symm a.id b.id, sameUnique_symm a.email b.email,
      sameUnique_symm a.googleSub b.googleSub]

def apiKeySchema : Schema ApiKey where
  valid k := fits 64 k.hashedKey && fits 12 k.keyPrefix
  clash a b := a.id == b.id || a.hashedKey == b.hashedKey
  clash_symm a b := by
    rw [beq_symm a.id b.id, beq_symm a.hashedKey b.hashedKey]

/-- Two keys with one identifier are one row. -/
theorem apiKey_unique {t : Table apiKeySchema} {a b : ApiKey}
    (ha : a ∈ t.rows) (hb : b ∈ t.rows) (h : a.id = b.id) : a = b :=
  t.eq_of_clash ha hb (by simp [apiKeySchema, h])

theorem hashedKey_unique {t : Table apiKeySchema} {a b : ApiKey}
    (ha : a ∈ t.rows) (hb : b ∈ t.rows) (h : a.hashedKey = b.hashedKey) :
    a = b :=
  t.eq_of_clash ha hb (by simp [apiKeySchema, h])

-- ================================================================= database

/-- The columns of an `api_keys` row a session has assigned: the `SET`
clause of its UPDATE. -/
structure ApiKeyPatch where
  revokedAt : Option (Option DateTime) := none
  lastUsedAt : Option (Option DateTime) := none
deriving DecidableEq

def ApiKeyPatch.apply (set : ApiKeyPatch) (k : ApiKey) : ApiKey :=
  { k with
    revokedAt := set.revokedAt.getD k.revokedAt
    lastUsedAt := set.lastUsedAt.getD k.lastUsedAt }

/-- One pending statement of a session. -/
inductive Write
  | insertTenant (row : TenantRow)
  | insertApiKey (row : ApiKey)
  | updateApiKey (id : UUID) (set : ApiKeyPatch)
deriving DecidableEq

/-- The committed rows. -/
structure Db where
  tenants : Table tenantSchema
  apiKeys : Table apiKeySchema

def Db.empty : Db := ⟨.empty _, .empty _⟩

/-- Execute one statement; `none` where a constraint rejects it. A key's
tenant must exist. -/
def Db.write (db : Db) : Write → Option Db
  | .insertTenant row =>
      (db.tenants.insert? row).map fun t => { db with tenants := t }
  | .insertApiKey row =>
      if (db.tenants.find? fun t => t.id == row.tenantId).isSome then
        (db.apiKeys.insert? row).map fun t => { db with apiKeys := t }
      else none
  | .updateApiKey id set =>
      (db.apiKeys.update? (fun k => k.id == id) set.apply).map
        fun t => { db with apiKeys := t }

/-- Execute a session's pending statements in order, all or nothing. -/
def Db.writeAll (db : Db) : List Write → Option Db
  | [] => some db
  | w :: ws =>
      match db.write w with
      | some db' => db'.writeAll ws
      | none => none

/-- The stores, the identifiers `uuid4` and the keys `token_urlsafe` have
handed out. -/
structure World where
  db : Db
  usedIds : List UUID
  drawnKeys : List String

def World.empty : World := ⟨.empty, [], []⟩

-- ================================================================== actions

/-- The exceptions the handlers here tell apart, and the two fates of a
commit that does not reply. -/
inductive Exn
  | valueError (msg : String)
  | keyError (key : String)
  | runtimeError (msg : String)
  | resourceNotFound (msg : String)
  | resourceConflict (msg : String)
  | invalidCredentials (msg : String)
  | googleAuth (msg : String)
  | http (status : Nat) (detail : String)
  | commitFailed (msg : String)
  | replyLost (msg : String)
  | external (msg : String)
deriving DecidableEq

/-- An exception of a computing library, out of a program. -/
def libraryExn : LibraryError → Exn
  | .valueError msg => .valueError msg
  | .other msg => .external msg

/-- The claims of a verified Google ID token: `sub`, `email`. -/
structure GoogleClaims where
  sub : Option String
  email : Option String := none
deriving DecidableEq

/-- What `verify_oauth2_token` raises. -/
inductive GoogleError
  | googleAuthError (msg : String)
  | valueError (msg : String)
  | other (msg : String)
deriving DecidableEq

def GoogleError.exn : GoogleError → Exn
  | .googleAuthError msg => .googleAuth msg
  | .valueError msg => .valueError msg
  | .other msg => .external msg

inductive Act
  -- Postgres, through the session of the request
  | getTenant (id : UUID)
  | selectTenantByEmail (email : String)
  | selectTenantByGoogleSub (sub : String)
  | getApiKey (id : UUID)
  | findApiKey (hashedKey : String)
  | transactionNow
  | commit (pending : List Write)
  | refreshTenant (id : UUID)
  | refreshApiKey (id : UUID)
  -- the process
  | uuid4
  | utcNow
  | tokenUrlsafe
  | gensalt
  -- Google
  | verifyOauth2Token (token clientId : String)
deriving DecidableEq

/-- The type of an action's reply. -/
@[reducible] def Act.Ret : Act → Type
  | .getTenant .. => Option TenantRow
  | .selectTenantByEmail .. => Option TenantRow
  | .selectTenantByGoogleSub .. => Option TenantRow
  | .getApiKey .. => Option ApiKey
  | .findApiKey .. => Option ApiKey
  | .transactionNow => DateTime
  | .commit .. => Unit
  | .refreshTenant .. => TenantRow
  | .refreshApiKey .. => ApiKey
  | .uuid4 => UUID
  | .utcNow => DateTime
  | .tokenUrlsafe => String
  | .gensalt => String
  | .verifyOauth2Token .. => GoogleClaims

/-- The signature of the programs here. -/
abbrev sig : Effect.Sig := ⟨Act, Act.Ret, Exn⟩

/-- A program of the authentication and administration code. -/
abbrev Py (α : Type) : Type := Effect.Prog sig α

abbrev call (e : Act) : Py e.Ret := Effect.Prog.perform (S := sig) e

abbrev raise {α : Type} (x : Exn) : Py α := Effect.Prog.raise x

/-- A computing library's result inside a program. -/
def library {α : Type} : Except LibraryError α → Py α
  | .ok a => .ret a
  | .error x => raise (libraryExn x)

/-- What the outside chooses for an action. -/
@[reducible] def Act.Ans : Act → Type
  | .commit .. => Fate
  | .transactionNow => Except String DateTime
  | .uuid4 => UUID
  | .utcNow => DateTime
  | .tokenUrlsafe => String
  | .gensalt => String
  | .verifyOauth2Token .. => Except GoogleError GoogleClaims
  | _ => Except String Unit

/-- What the outside promises about its choice: identifiers are fresh,
and a generated key is fresh and not empty. -/
def admits (w : World) : (e : Act) → e.Ans → Bool
  | .uuid4, (u : UUID) => !w.usedIds.contains u
  | .tokenUrlsafe, (key : String) =>
      decide (key ≠ "") && !w.drawnKeys.contains key
  | _, _ => true

-- ================================================================ semantics

/-- A read's reply, unless it fails. -/
def reply {α : Type} (v : α) : Except String Unit → Except Exn α
  | .ok _ => .ok v
  | .error msg => .error (.external msg)

/-- The reply of a read of a row that must be there. -/
def replyOr {α : Type} (v : Option α) : Except String Unit → Except Exn α
  | .ok _ =>
      match v with
      | some v => .ok v
      | none => .error (.external "not found")
  | .error msg => .error (.external msg)

/-- A commit: the statements run under the database's constraints. -/
def World.commit (w : World) (pending : List Write) (a : Fate) :
    Except Exn Unit × World :=
  match w.db.writeAll pending with
  | none => (.error (.commitFailed "IntegrityError or DataError"), w)
  | some db =>
      match a with
      | .ok => (.ok (), { w with db := db })
      | .failed msg => (.error (.commitFailed msg), w)
      | .lostReply msg => (.error (.replyLost msg), { w with db := db })

/-- What an answered action replies and does. -/
def perform : (e : Act) → e.Ans → World → Except Exn e.Ret × World
  | .getTenant id, a, w =>
      (reply (w.db.tenants.find? fun t => t.id == id) a, w)
  | .selectTenantByEmail email, a, w =>
      (reply (w.db.tenants.find? fun t => t.email == some email) a, w)
  | .selectTenantByGoogleSub sub, a, w =>
      (reply (w.db.tenants.find? fun t => t.googleSub == some sub) a, w)
  | .getApiKey id, a, w =>
      (reply (w.db.apiKeys.find? fun k => k.id == id) a, w)
  | .findApiKey hashedKey, a, w =>
      (reply (w.db.apiKeys.find? fun k =>
        k.hashedKey == hashedKey && k.revokedAt.isNone) a, w)
  | .transactionNow, (a : Except String DateTime), w =>
      match a with
      | .ok now => (.ok now, w)
      | .error msg => (.error (.external msg), w)
  | .commit pending, a, w => w.commit pending a
  | .refreshTenant id, a, w =>
      (replyOr (w.db.tenants.find? fun t => t.id == id) a, w)
  | .refreshApiKey id, a, w =>
      (replyOr (w.db.apiKeys.find? fun k => k.id == id) a, w)
  | .uuid4, (u : UUID), w => (.ok u, { w with usedIds := u :: w.usedIds })
  | .utcNow, (now : DateTime), w => (.ok now, w)
  | .tokenUrlsafe, (key : String), w =>
      (.ok key, { w with drawnKeys := key :: w.drawnKeys })
  | .gensalt, (salt : String), w => (.ok salt, w)
  | .verifyOauth2Token _ _, (a : Except GoogleError GoogleClaims), w =>
      match a with
      | .ok claims => (.ok claims, w)
      | .error x => (.error x.exn, w)

/-- The machine the programs here run on. -/
abbrev machine : Effect.Machine sig where
  World := World
  Ans := Act.Ans
  admits := admits
  perform := perform

-- ============================================================= environment

/-- A JWT's `sub`, where the decoded payload has one. -/
structure JwtPayload where
  sub : Option JsonValue
deriving DecidableEq

/-- What `create_access_token` signs. -/
structure JwtClaims where
  sub : String
  iat : DateTime
  exp : DateTime
deriving DecidableEq

/-- What `jwt.decode` raises: `InvalidTokenError` and its subclasses, or
something else. -/
inductive JwtError
  | invalidToken (msg : String)
  | other (msg : String)
deriving DecidableEq

/-- The settings the gates read (app/config.py), unset by default. -/
structure Settings where
  razorpayWebhookSecret : String := ""
  adminUsername : String := ""
  adminPassword : String := ""
  jwtSecret : String := ""
  jwtExpiryMinutes : Int := 1440
  jwtExpiryMinutes_pos : 0 < jwtExpiryMinutes := by decide
  googleOauthClientId : String := ""

/-- The default, a day. -/
theorem dayMinutes_pos : (0 : Int) < 1440 := by decide

/-- Settings and the libraries that compute: `sha256(...).hexdigest()`,
`jwt.decode` at an instant, `jwt.encode`, `bcrypt.hashpw` under a salt
and `bcrypt.checkpw`. -/
structure Env extends Settings where
  sha256Hex : String → String
  jwtDecode : (token secret : String) → DateTime → Except JwtError JwtPayload
  jwtEncode : JwtClaims → (secret : String) → Except LibraryError String
  hashpw : (password salt : String) → Except LibraryError String
  checkpw : (password hashed : String) → Except LibraryError Bool

end ResumeScreening.Accounts
