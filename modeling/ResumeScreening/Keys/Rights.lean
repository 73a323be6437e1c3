/-
What each operation may do to the key table, given its own past.

A key is inserted by the `create_api_key` call that drew it, for that
call's tenant; `revoked_at` is assigned by the `revoke_api_key` call for
that key, from the row it loaded; a request assigns `last_used_at` of the
row its own lookup found, and looks up the hash of the key it presents
and no other. `respected` reads this off every program.
-/
import ResumeScreening.Lib.Own
import ResumeScreening.Model.Auth

namespace ResumeScreening.Accounts

open Effect Effect.Discipline

variable {env : Env} {op : Op} {K : List (Event sig)} {α : Type}

-- =================================================================== rights

/-- The assignment of a revocation: `revoked_at` alone, to a time, seen
from the loaded row. -/
def Revokes (K : List (Event sig)) (id : UUID) (set : ApiKeyPatch) : Prop :=
  set.lastUsedAt = none ∧ ∃ k now, ⟨.getApiKey id, .ok (some k)⟩ ∈ K
    ∧ k.id = id ∧ set.revokedAt = assign k.revokedAt (some now)

/-- The assignment of a request: `last_used_at` alone, of the row found
under the hash of its key. -/
def Touches (env : Env) (K : List (Event sig)) (r : String) (id : UUID)
    (set : ApiKeyPatch) : Prop :=
  set.revokedAt = none ∧ ∃ k now,
    ⟨.findApiKey (hashKey env r), .ok (some k)⟩ ∈ K ∧ k.id = id
      ∧ k.hashedKey = hashKey env r
      ∧ set.lastUsedAt = assign k.lastUsedAt (some now)

/-- The statements an operation may commit. -/
def MayWrite (env : Env) (op : Op) (K : List (Event sig)) : Write → Prop
  | .insertTenant _ => True
  | .insertApiKey row => op = .createApiKey row.tenantId
      ∧ row.revokedAt = none
      ∧ ∃ r, ⟨.tokenUrlsafe, .ok r⟩ ∈ K ∧ row.hashedKey = hashKey env r
  | .updateApiKey id set =>
      (op = .revokeApiKey id ∧ Revokes K id set)
        ∨ ∃ r, op = .requireTenant none (some r) ∧ Touches env K r id set

/-- The actions an operation may perform. It draws one key at most, and
commits one statement at a time. -/
def Allows (env : Env) (op : Op) (K : List (Event sig)) : Act → Prop
  | .commit pending => ∃ x, pending = [x] ∧ MayWrite env op K x
  | .findApiKey h => ∃ r, op = .requireTenant none (some r) ∧ h = hashKey env r
  | .tokenUrlsafe => ∀ r, ⟨.tokenUrlsafe, .ok r⟩ ∉ K
  | _ => True

/-- What an operation has done when it returns: a created key was drawn
and committed, a resolved tenant is that of the row found and loaded
again. -/
def Ends (env : Env) : Op → List (Event sig) → Resp → Prop
  | .createApiKey t, K, .created response =>
      ⟨.tokenUrlsafe, .ok response.rawKey⟩ ∈ K
        ∧ ∃ row, ⟨.commit [.insertApiKey row], .ok ()⟩ ∈ K
          ∧ row.id = response.id ∧ row.tenantId = t
  | .requireTenant none (some r), K, .resolved t => ∃ k k',
      ⟨.findApiKey (hashKey env r), .ok (some k)⟩ ∈ K
        ∧ ⟨.refreshApiKey k.id, .ok k'⟩ ∈ K ∧ k'.id = k.id ∧ k'.tenantId = t
  | _, _, _ => True

def rights (env : Env) : Rights (service env) where
  allows := Allows env
  ends := Ends env

-- ================================================== what a lookup's reply is

theorem possible_getApiKey {id : UUID} {k : ApiKey}
    (h : machine.Possible (.getApiKey id) (.ok (some k))) : k.id = id := by
  obtain ⟨w, a, -, hr⟩ := h
  cases a with
  | error msg => cases hr
  | ok u =>
      have hfind := Except.ok.inj hr
      simpa using (Relational.Table.find?_mem hfind).2

theorem possible_findApiKey {hashed : String} {k : ApiKey}
    (h : machine.Possible (.findApiKey hashed) (.ok (some k))) :
    k.hashedKey = hashed := by
  obtain ⟨w, a, -, hr⟩ := h
  cases a with
  | error msg => cases hr
  | ok u =>
      have hfind := Except.ok.inj hr
      have hp := (Relational.Table.find?_mem hfind).2
      simp only [Bool.and_eq_true, beq_iff_eq] at hp
      exact hp.1

theorem possible_refreshApiKey {id : UUID} {k : ApiKey}
    (h : machine.Possible (.refreshApiKey id) (.ok k)) : k.id = id := by
  obtain ⟨w, a, -, hr⟩ := h
  cases a with
  | error msg => cases hr
  | ok u =>
      replace hr : replyOr (w.db.apiKeys.find? fun k => k.id == id) (.ok u)
          = .ok k := hr
      cases hfind : w.db.apiKeys.find? fun k => k.id == id with
      | none =>
          rw [hfind] at hr
          cases hr
      | some k' =>
          rw [hfind] at hr
          cases hr
          simpa using (Relational.Table.find?_mem hfind).2

-- ================================================================= programs

/-- A program that stays within an operation's rights, and what is known
of its events where it returns. -/
abbrev Within (env : Env) (op : Op) (K : List (Event sig)) (p : Py α)
    (T : α → List (Event sig) → Prop := fun _ _ => True) : Prop :=
  ((rights env).discipline op).Obeys machine K p T

/-- The actions every operation may perform at any time. -/
def free : Act → Prop
  | .commit _ | .findApiKey _ | .tokenUrlsafe => False
  | _ => True

theorem allows_of_free {e : Act} (h : free e) : Allows env op K e := by
  cases e with
  | commit pending => exact h.elim
  | findApiKey hashed => exact h.elim
  | tokenUrlsafe => exact h.elim
  | _ => trivial

theorem within_of_free {p : Py α} (h : p.Uses free) : Within env op K p :=
  obeys_of_uses (q := free) h fun _ _ => allows_of_free

theorem uses_library {x : Except LibraryError α} : (library x).Uses free := by
  cases x <;> trivial

/-- A handler that only raises. -/
theorem within_route {p : Py α} {f : Exn → Py α} (h : Within env op K p)
    (hf : ∀ x, ∃ y, f x = raise y) : Within env op K (p.handle f) := by
  refine obeys_handle h fun x K' _ => ?_
  obtain ⟨y, hy⟩ := hf x
  rw [hy]
  exact obeys_raise

theorem uses_createAccessToken (t : UUID) :
    (createAccessToken env t).Uses free := by
  unfold createAccessToken
  split
  · trivial
  · refine Prog.uses_bind ((Prog.uses_perform _ _).mpr trivial) fun now => ?_
    exact Prog.uses_bind uses_library fun _ => uses_library

theorem uses_decodeAccessToken (token : String) :
    (decodeAccessToken env token).Uses free := by
  unfold decodeAccessToken
  split
  · trivial
  · refine Prog.uses_bind ((Prog.uses_perform _ _).mpr trivial) fun now => ?_
    split
    · trivial
    · trivial
    · unfold subject
      split <;> trivial

theorem within_tokenResponse (t : UUID) :
    Within env op K (tokenResponse env t) := by
  unfold tokenResponse
  refine obeys_bind (T := fun _ _ => True) ?_ fun _ _ _ _ => obeys_ret trivial
  refine within_route (within_of_free (uses_createAccessToken t)) fun x => ?_
  cases x <;> exact ⟨_, rfl⟩

/-- The end of a sign-up: the row is inserted and loaded. -/
theorem within_insertTenant (row : UUID → Py.DateTime → TenantRow) :
    Within env op K ((call .transactionNow).bind fun now =>
      (call .uuid4).bind fun id =>
        (call (.commit [.insertTenant (row id now)])).bind fun _ =>
          call (.refreshTenant id)) := by
  refine obeys_call trivial fun now _ => obeys_call trivial fun id _ => ?_
  refine obeys_call ⟨_, rfl, trivial⟩ fun _ _ => ?_
  exact obeys_perform trivial fun _ _ => trivial

theorem within_createTenant (name : String) :
    Within env op K (createTenant name) :=
  within_insertTenant fun id now =>
    { id := id, name := name, createdAt := now }

theorem within_registerWithPassword (email password : String) :
    Within env op K (registerWithPassword env email password) := by
  unfold registerWithPassword
  refine obeys_call trivial fun found _ => ?_
  cases found with
  | some _ => exact obeys_raise
  | none =>
      refine obeys_call trivial fun salt _ => ?_
      refine obeys_bind (within_of_free uses_library) fun hashed _ _ _ => ?_
      exact within_insertTenant _

theorem within_authenticateWithPassword (email password : String) :
    Within env op K (authenticateWithPassword env email password) := by
  unfold authenticateWithPassword
  refine obeys_call trivial fun found _ => ?_
  cases found with
  | none => exact obeys_raise
  | some tenant =>
      dsimp only
      split
      · exact obeys_raise
      · refine obeys_bind (within_of_free uses_library) fun verified _ _ _ => ?_
        split
        · exact obeys_ret trivial
        · exact obeys_raise

theorem within_registerOrLoginWithGoogle (token : String) :
    Within env op K (registerOrLoginWithGoogle env token) := by
  unfold registerOrLoginWithGoogle
  split
  · exact obeys_raise
  · refine obeys_call trivial fun claims _ => ?_
    split
    · exact obeys_raise
    · refine obeys_call trivial fun found _ => ?_
      cases found with
      | some tenant => exact obeys_ret trivial
      | none => exact within_insertTenant _

theorem within_createApiKey (t : UUID) :
    Within env (.createApiKey t) [] (createApiKey env t)
      fun response K => Ends env (.createApiKey t) K (.created response) := by
  unfold createApiKey
  refine obeys_call trivial fun found _ => ?_
  cases found with
  | none => exact obeys_raise
  | some tenant =>
      -- nothing has been drawn before
      refine obeys_call (fun r hr => ?_) fun rawKey _ => ?_
      · simp [rights, Rights.discipline] at hr
      refine obeys_call trivial fun now _ => obeys_call trivial fun id _ => ?_
      refine obeys_call ⟨_, rfl, rfl, rfl, rawKey, ?_, rfl⟩ fun _ _ => ?_
      · simp [rights, Rights.discipline]
      refine obeys_call trivial fun row hrow => obeys_ret ?_
      refine ⟨?_, issuedKey env t rawKey id now, ?_, ?_, rfl⟩
      · simp [rights, Rights.discipline]
      · simp [rights, Rights.discipline]
      · exact (possible_refreshApiKey hrow).symm

theorem within_revokeApiKey (id : UUID) :
    Within env (.revokeApiKey id) K (revokeApiKey id) := by
  unfold revokeApiKey
  refine obeys_call trivial fun found hfound => ?_
  cases found with
  | none => exact obeys_raise
  | some k =>
      obtain rfl := possible_getApiKey hfound
      refine obeys_call trivial fun now _ => ?_
      refine obeys_call ⟨_, rfl, .inl ⟨rfl, rfl, k, now, ?_, rfl, rfl⟩⟩
        fun _ _ => ?_
      · simp [rights, Rights.discipline]
      · exact obeys_perform trivial fun _ _ => trivial

theorem within_requireTenant (authorization xApiKey : Option String) :
    Within env (.requireTenant authorization xApiKey) K
      (requireTenant env authorization xApiKey) fun t K =>
        Ends env (.requireTenant authorization xApiKey) K (.resolved t) := by
  unfold requireTenant
  cases authorization with
  | some header =>
      dsimp only
      split
      · exact obeys_raise
      · refine obeys_bind (within_of_free (uses_decodeAccessToken _)) ?_
        intro found _ _ _
        cases found with
        | none => exact obeys_raise
        | some t => exact obeys_ret trivial
  | none =>
      dsimp only
      unfold requireApiKey
      cases hkey : Py.optTruthy xApiKey with
      | none => exact obeys_raise
      | some r =>
          obtain rfl := Py.optTruthy_some hkey
          refine obeys_call ⟨r, rfl, rfl⟩ fun found hfound => ?_
          cases found with
          | none => exact obeys_raise
          | some k =>
              have hhash := possible_findApiKey hfound
              refine obeys_call trivial fun now _ => ?_
              refine obeys_call
                ⟨_, rfl, .inr ⟨r, rfl, rfl, k, now, ?_, rfl, hhash, rfl⟩⟩
                fun _ _ => ?_
              · simp [rights, Rights.discipline]
              refine obeys_call trivial fun k' hk' => obeys_ret ⟨k, k', ?_⟩
              simp [rights, Rights.discipline, possible_refreshApiKey hk']

/-- Every operation stays within its rights. -/
theorem respected : (rights env).Respected := by
  intro op
  cases op with
  | createTenant name =>
      exact obeys_bind (within_createTenant name) fun _ _ _ _ => obeys_ret trivial
  | createApiKey t =>
      exact obeys_bind (within_createApiKey t) fun _ _ _ h => obeys_ret h
  | revokeApiKey id =>
      exact obeys_bind (within_revokeApiKey id) fun _ _ _ _ => obeys_ret trivial
  | requireTenant authorization xApiKey =>
      exact obeys_bind (within_requireTenant authorization xApiKey)
        fun _ _ _ h => obeys_ret h
  | register payload =>
      refine obeys_bind (T := fun _ _ => True) ?_ fun _ _ _ _ => obeys_ret trivial
      refine obeys_bind (T := fun _ _ => True) ?_
        fun tenant _ _ _ => within_tokenResponse tenant.id
      refine within_route (within_registerWithPassword _ _) fun x => ?_
      cases x <;> exact ⟨_, rfl⟩
  | login payload =>
      refine obeys_bind (T := fun _ _ => True) ?_ fun _ _ _ _ => obeys_ret trivial
      refine obeys_bind (T := fun _ _ => True) ?_
        fun tenant _ _ _ => within_tokenResponse tenant.id
      refine within_route (within_authenticateWithPassword _ _) fun x => ?_
      cases x <;> exact ⟨_, rfl⟩
  | googleAuth idToken =>
      refine obeys_bind (T := fun _ _ => True) ?_ fun _ _ _ _ => obeys_ret trivial
      refine obeys_bind (T := fun _ _ => True) ?_
        fun tenant _ _ _ => within_tokenResponse tenant.id
      refine within_route (within_registerOrLoginWithGoogle _) fun x => ?_
      cases x <;> exact ⟨_, rfl⟩

end ResumeScreening.Accounts
