/-
The tenants table over a run of sign-ups.

Three operations write it: the admin route, the password registration and
the Google sign-up. None changes or removes a row, so in any run of them,
with any failures, the rows of an earlier table begin a later one
(`Grows`), and every row has an identifier that was drawn (`Known`).
-/
import ResumeScreening.Lib.Sequence
import ResumeScreening.SignUp.Store

namespace ResumeScreening.Accounts.SignUp

open Effect Prog
open Py (DateTime)

variable {env : Env} {w w' : World} {as : List (Given machine)}
  {r : Option (Except Exn TenantRow)}

-- ================================================================= the runs

/-- The ways a tenant comes in. -/
inductive Way
  | created (name : String)
  | registered (email password : String)
  | google (idToken : String)

def program (env : Env) : Way → Py TenantRow
  | .created name => createTenant name
  | .registered email password => registerWithPassword env email password
  | .google idToken => registerOrLoginWithGoogle env idToken

/-- A run of sign-ups. -/
abbrev History (env : Env) (w : World) (log : List (Call machine Way TenantRow))
    (w' : World) : Prop :=
  Sequence machine (program env) w log w'

-- ================================================================ one call

/-- The identifiers of the rows have been drawn. -/
def Known (w : World) : Prop := ∀ t ∈ w.db.tenants.rows, t.id ∈ w.usedIds

/-- No row was changed or lost, and none came under a known identifier. -/
structure Grows (w w' : World) : Prop where
  rows : w.db.tenants.rows <+: w'.db.tenants.rows
  known : Known w → Known w'

theorem Grows.refl (w : World) : Grows w w := ⟨List.prefix_refl _, id⟩

theorem Grows.trans {w₁ w₂ w₃ : World} (h : Grows w₁ w₂) (h' : Grows w₂ w₃) :
    Grows w₁ w₃ := ⟨h.rows.trans h'.rows, h'.known ∘ h.known⟩

theorem Grows.mem (h : Grows w w') {t : TenantRow}
    (ht : t ∈ w.db.tenants.rows) : t ∈ w'.db.tenants.rows :=
  h.rows.subset ht

theorem Grows.of_same (hdb : w'.db = w.db) (hused : w.usedIds ⊆ w'.usedIds) :
    Grows w w' := by
  refine ⟨?_, fun hknown t ht => ?_⟩
  · exact hdb ▸ List.prefix_refl _
  · rw [hdb] at ht
    exact hused (hknown t ht)

theorem Inserted.grows {row : UUID → DateTime → TenantRow} {id : UUID}
    {now : DateTime} (hid : ∀ id now, (row id now).id = id)
    (h : Inserted row w id now w') : Grows w w' := by
  refine ⟨?_, fun hknown t ht => ?_⟩
  · rw [Relational.Table.insert?_rows h.inserted]
    exact List.prefix_append _ _
  · rw [h.used]
    rcases (Relational.Table.mem_insert? h.inserted).mp ht with ht | rfl
    · exact List.mem_cons_of_mem _ (hknown t ht)
    · rw [hid]
      exact List.mem_cons_self ..

theorem Stores.grows {row : UUID → DateTime → TenantRow}
    (hid : ∀ id now, (row id now).id = id) (h : Stores row w as r w') :
    Grows w w' := by
  cases h with
  | kept _ hdb hused _ _ => exact .of_same hdb hused
  | unread _ hnew _ _ _ => exact hnew.grows hid
  | stored _ hnew _ => exact hnew.grows hid

/-- A lookup in front. -/
theorem Grows.call {e : Act} {f : e.Ret → Py TenantRow}
    (hsame : ∀ a : e.Ans, (machine.perform e a w).2 = w)
    (hrest : ∀ v as₂, Went machine (f v) w as₂ r w' → Grows w w')
    (h : Went machine ((Accounts.call e).bind f) w as r w') : Grows w w' := by
  rcases h.call with
    ⟨-, -, rfl⟩ | ⟨a, as₂, -, -, ⟨x, -, -, -, rfl⟩ | ⟨v, -, h⟩⟩
  · exact .refl _
  · rw [hsame]
    exact .refl _
  · rw [hsame] at h
    exact hrest v as₂ h

theorem registerWithPassword_grows {email password : String}
    (h : Went machine (registerWithPassword env email password) w as r w') :
    Grows w w' := by
  rw [registerWithPassword_eq] at h
  refine Grows.call (fun _ => rfl) ?_ h
  intro found as₁ h
  cases found with
  | some t =>
      obtain ⟨-, -, rfl⟩ := Went.raise_iff.mp h
      exact .refl _
  | none =>
      refine Grows.call (fun _ => rfl) ?_ h
      intro salt as₂ h
      cases hhash : env.hashpw password salt with
      | error x =>
          rw [hhash] at h
          obtain ⟨-, -, rfl⟩ := Went.raise_iff.mp h
          exact .refl _
      | ok hashed =>
          rw [hhash] at h
          exact (storeTenant_ends (fun _ _ => rfl) h).grows fun _ _ => rfl

theorem registerOrLoginWithGoogle_grows {idToken : String}
    (h : Went machine (registerOrLoginWithGoogle env idToken) w as r w') :
    Grows w w' := by
  rw [registerOrLoginWithGoogle_eq] at h
  split at h
  · obtain ⟨-, -, rfl⟩ := Went.raise_iff.mp h
    exact .refl _
  refine Grows.call (fun a => ?_) ?_ h
  · cases (a : Except GoogleError GoogleClaims) <;> rfl
  intro claims as₁ h
  cases hsub : claims.sub with
  | none =>
      rw [hsub] at h
      obtain ⟨-, -, rfl⟩ := Went.raise_iff.mp h
      exact .refl _
  | some googleSub =>
      rw [hsub] at h
      refine Grows.call (fun _ => rfl) ?_ h
      intro found as₂ h
      cases found with
      | some t =>
          obtain ⟨-, -, rfl⟩ := Went.ret_iff.mp h
          exact .refl _
      | none => exact (storeTenant_ends (fun _ _ => rfl) h).grows fun _ _ => rfl

/-- Every call grows the table. -/
theorem program_grows {op : Way}
    (h : Went machine (program env op) w as r w') : Grows w w' := by
  cases op with
  | created name =>
      exact (storeTenant_ends (fun _ _ => rfl) h).grows fun _ _ => rfl
  | registered email password => exact registerWithPassword_grows h
  | google idToken => exact registerOrLoginWithGoogle_grows h

variable {log : List (Call machine Way TenantRow)}

/-- Over a run the table grows, call by call. -/
theorem History.grows (h : History env w log w') : Grows w w'
    ∧ ∀ c ∈ log, Grows c.before c.after ∧ Grows c.after w' :=
  Sequence.ordered (R := Grows) Grows.refl Grows.trans program_grows h

/-- The rows are known at every call. -/
theorem History.known (h : History env w log w') (hw : Known w) :
    Known w' ∧ ∀ c ∈ log, Known c.before ∧ Known c.after :=
  h.invariant (fun hk hwent => (program_grows hwent).known hk) hw

theorem known_empty : Known World.empty := fun _ ht => nomatch ht

end ResumeScreening.Accounts.SignUp
