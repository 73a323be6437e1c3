/-
Registering with one password and signing in with another.

bcrypt sees the UTF-8 bytes of a password, and 72 of them at most: what
stands behind is ignored, or refused with a ValueError, depending on the
version. Neither endpoint bounds a password's length and neither handles
the ValueError. So a password logs in exactly itself where bcrypt sees
both passwords whole, or sees a difference (`exact_iff`).
-/
import ResumeScreening.Py.Json
import ResumeScreening.SignUp.History

namespace ResumeScreening.Accounts.SignUp

open Effect Prog
open Relational (Table)
open Py (DateTime utf8)

variable {env : Env} {w w₁ w₂ w₃ : World} {email p q salt hashed : String}

-- ================================================================== bcrypt

/-- What bcrypt does with the bytes past the 72nd. -/
inductive Limit
  | ignores
  | refuses

/-- The bytes bcrypt looks at. -/
def key (password : String) : List UInt8 := (utf8 password).take 72

def Limit.accepts : Limit → String → Prop
  | .ignores, _ => True
  | .refuses, password => (utf8 password).length ≤ 72

/-- bcrypt, as the service uses it: it hashes `p` under a salt and checks
`q` against the hash. A hash fits its column; two keys that differ are
told apart. -/
structure Bcrypt (env : Env) (limit : Limit) (salt p q : String) : Prop where
  hashes : limit.accepts p →
    ∃ hashed, env.hashpw p salt = .ok hashed ∧ fits 255 hashed = true
  hashes_not : ¬ limit.accepts p →
    ∃ msg, env.hashpw p salt = .error (.valueError msg)
  checks : limit.accepts q → ∀ hashed, env.hashpw p salt = .ok hashed →
    env.checkpw q hashed = .ok (decide (key q = key p))
  checks_not : ¬ limit.accepts q → ∀ hashed, env.hashpw p salt = .ok hashed →
    ∃ msg, env.checkpw q hashed = .error (.valueError msg)

-- ============================================================ the statement

/-- The registration returns a tenant, its password signs in as that
tenant, and any other password is an invalid login. -/
def Exact (p q : String) (r r' : Except Exn TenantRow) : Prop :=
  ∃ t, r = .ok t ∧ (q = p → r' = .ok t) ∧ (q ≠ p → r' = .error invalidLogin)

/-- bcrypt tells the passwords apart, or they are one it accepts. -/
def Told : Limit → String → String → Prop
  | .ignores, p, q => q = p ∨ key q ≠ key p
  | .refuses, p, q => (utf8 p).length ≤ 72 ∧ (utf8 q).length ≤ 72

theorem utf8_inj (h : utf8 q = utf8 p) : q = p := by
  have hdecoded := congrArg Py.decodeUtf8 h
  rw [Py.decodeUtf8_utf8, Py.decodeUtf8_utf8] at hdecoded
  exact Option.some.inj hdecoded

/-- A password bcrypt sees whole has no other with its key, among those. -/
theorem key_inj (hp : (utf8 p).length ≤ 72) (hq : (utf8 q).length ≤ 72)
    (h : key q = key p) : q = p := by
  unfold key at h
  rw [List.take_of_length_le hq, List.take_of_length_le hp] at h
  exact utf8_inj h

/-- What the two variants ask for. -/
theorem told_iff {limit : Limit} : Told limit p q ↔
    limit.accepts p ∧ (q = p ∨ limit.accepts q ∧ key q ≠ key p) := by
  cases limit with
  | ignores => simp [Told, Limit.accepts]
  | refuses =>
      simp only [Told, Limit.accepts]
      refine and_congr_right fun hp => ?_
      by_cases hqp : q = p
      · subst hqp
        simp [hp]
      · simp only [hqp, false_or]
        exact ⟨fun hq => ⟨hq, fun hkey => hqp (key_inj hp hq hkey)⟩, And.left⟩

-- ============================================================ registration

/-- The insert of a new email goes through exactly if it fits. -/
theorem insert_registered_iff (hknown : Known w) {id : UUID} (now : DateTime)
    (hfresh : id ∉ w.usedIds) (hhash : fits 255 hashed = true)
    (hemail : ∀ t ∈ w.db.tenants.rows, t.email ≠ some email) :
    (∃ table, w.db.tenants.insert? (registeredTenant email hashed id now)
        = some table) ↔ fits 255 email = true := by
  constructor
  · rintro ⟨table, htable⟩
    have hvalid := (Table.insert?_valid htable).1
    simp only [tenantSchema, registeredTenant, Bool.and_eq_true] at hvalid
    exact hvalid.1.1.1
  · intro hfits
    refine Table.insert?_isSome _ ?_ fun t ht => ?_
    · simp [tenantSchema, registeredTenant, hfits, hhash]
    · have hid : t.id ≠ id := fun heq => hfresh (heq ▸ hknown t ht)
      have hmail : sameUnique t.email (some email) = false := by
        simp [sameUnique, hemail t ht]
      have hsub : sameUnique t.googleSub none = false := by
        cases t.googleSub <;> rfl
      simp only [tenantSchema, registeredTenant, hmail, hsub, Bool.or_false]
      exact beq_false_of_ne hid

variable {as : List (Given machine)} {r : Except Exn TenantRow}

/-- Registering an email no row has, where nothing fails: hashing raises,
or the row goes to the table. -/
theorem register_ends
    (h : Went machine (registerWithPassword env email p) w as (some r) w₁)
    (hok : ¬ Saw fails as)
    (hemail : ∀ t ∈ w.db.tenants.rows, t.email ≠ some email)
    (hsalt : (⟨.gensalt, salt⟩ : Given machine) ∈ as) :
    (∃ x, env.hashpw p salt = .error x ∧ ∀ t, r ≠ .ok t)
      ∨ ∃ hashed, env.hashpw p salt = .ok hashed
        ∧ Stores (registeredTenant email hashed) w as (some r) w₁ := by
  have hnone : (w.db.tenants.find? fun t => t.email == some email) = none := by
    refine List.find?_eq_none.mpr fun t ht => ?_
    simpa using hemail t ht
  rw [registerWithPassword_eq] at h
  rcases went_byEmail h with ⟨hr | hfails, -⟩ | ⟨a, as₁, rfl, hrest⟩
  · cases hr
  · exact absurd hfails hok
  rw [hnone] at hrest
  rcases hrest.call with ⟨hr, -⟩ | ⟨salt', as₂, -, rfl, ⟨x, hx, -⟩ | ⟨v, hv, h⟩⟩
  · cases hr
  · cases hx
  cases hv
  have hdrawn : ∀ {as₂}, (∀ g ∈ as₂, g.act ≠ Act.gensalt) →
      (⟨.gensalt, salt⟩ : Given machine) ∈ (⟨.selectTenantByEmail email, a⟩
        :: ⟨.gensalt, salt'⟩ :: as₂ : List (Given machine)) → salt' = salt := by
    intro as₂ hno hmem
    rcases List.mem_cons.mp hmem with heq | hmem
    · cases heq
    rcases List.mem_cons.mp hmem with heq | hmem
    · cases heq
      rfl
    · exact absurd rfl (hno _ hmem)
  cases hhash : env.hashpw p salt' with
  | error x =>
      rw [hhash] at h
      obtain ⟨rfl, hr, -⟩ := Went.raise_iff.mp h
      obtain rfl := hdrawn (List.forall_mem_nil _) hsalt
      refine .inl ⟨x, hhash, fun t ht => ?_⟩
      rw [ht] at hr
      cases hr
  | ok hashed =>
      rw [hhash] at h
      have hno : (storeTenant (registeredTenant email hashed)).Uses
          fun e : Act => e ≠ .gensalt := by
        refine uses_storeTenant ?_ ?_ ?_ ?_ _
        all_goals
          intros
          intro heq
          cases heq
      obtain rfl := hdrawn (h.uses hno) hsalt
      refine .inr ⟨hashed, hhash, ?_⟩
      show Stores _ w ([⟨.selectTenantByEmail email, a⟩,
        ⟨.gensalt, salt'⟩] ++ as₂) (some r) w₁
      refine (storeTenant_ends (fun _ _ => rfl) h).behind ?_ ?_
      · simp [lands]
      · simp

-- ================================================================== sign-in

/-- Signing in to a password account, where nothing fails, is the check. -/
theorem authenticate_ends {t : TenantRow} {as' : List (Given machine)}
    {r' : Except Exn TenantRow} (ht : t ∈ w₂.db.tenants.rows)
    (hemail : t.email = some email) (hhash : t.hashedPassword = some hashed)
    (hok : ¬ Saw fails as')
    (h : Went machine (authenticateWithPassword env email q) w₂ as' (some r')
      w₃) :
    r' = match env.checkpw q hashed with
      | .ok true => .ok t
      | .ok false => .error invalidLogin
      | .error x => .error (libraryExn x) := by
  have hfind : (w₂.db.tenants.find? fun t => t.email == some email) = some t := by
    refine (Table.find?_key _ fun a b ha hb => ?_).mpr ⟨ht, by simp [hemail]⟩
    rw [beq_iff_eq] at ha hb
    simp [tenantSchema, sameUnique, ha, hb]
  rw [authenticateWithPassword_eq] at h
  rcases went_byEmail h with ⟨hr | hfails, -⟩ | ⟨a, as₁, -, h⟩
  · cases hr
  · exact absurd hfails hok
  rw [hfind] at h
  simp only [checkTenant, hhash] at h
  cases hcheck : env.checkpw q hashed with
  | error x =>
      rw [hcheck] at h
      exact Option.some.inj (Went.raise_iff.mp h).2.1
  | ok verified =>
      rw [hcheck] at h
      cases verified with
      | false => exact Option.some.inj (Went.raise_iff.mp h).2.1
      | true => exact Option.some.inj (Went.ret_iff.mp h).2.1

-- ================================================================== the law

variable {limit : Limit} {log₀ log : List (Call machine Way TenantRow)}

/-- Once the row is stored, the check decides. -/
theorem exact_of_stored {t : TenantRow} {r' : Except Exn TenantRow}
    (hp : limit.accepts p) (hbcrypt : Bcrypt env limit salt p q)
    (hhash : env.hashpw p salt = .ok hashed)
    (hr' : r' = match env.checkpw q hashed with
      | .ok true => .ok t
      | .ok false => .error invalidLogin
      | .error x => .error (libraryExn x)) :
    Exact p q (.ok t) r' ↔ q = p ∨ limit.accepts q ∧ key q ≠ key p := by
  by_cases hq : limit.accepts q
  · rw [hbcrypt.checks hq hashed hhash] at hr'
    by_cases hkey : key q = key p
    · simp only [hkey, decide_true] at hr'
      constructor
      · rintro ⟨t', -, -, hother⟩
        by_contra hnot
        have hne : q ≠ p := fun heq => hnot (.inl heq)
        rw [hr'] at hother
        cases hother hne
      · rintro (rfl | ⟨-, hne⟩)
        · exact ⟨t, rfl, fun _ => hr', fun hne => absurd rfl hne⟩
        · exact absurd hkey hne
    · simp only [hkey, decide_false] at hr'
      have hne : q ≠ p := fun heq => hkey (by rw [heq])
      exact ⟨fun _ => .inr ⟨hq, hkey⟩,
        fun _ => ⟨t, rfl, fun heq => absurd heq hne, fun _ => hr'⟩⟩
  · obtain ⟨msg, hmsg⟩ := hbcrypt.checks_not hq hashed hhash
    rw [hmsg] at hr'
    have hne : q ≠ p := fun heq => hq (heq ▸ hp)
    constructor
    · rintro ⟨t', -, -, hother⟩
      rw [hr'] at hother
      cases hother hne
    · rintro (heq | ⟨hyes, -⟩)
      · exact absurd heq hne
      · exact absurd hyes hq

/-- In a run of sign-ups an email no row has is registered with `p`, and
later `q` signs in with it; no store fails in the two calls. Then a
password logs in exactly itself where the email fits and bcrypt tells the
two passwords apart, or takes them for one. -/
theorem exact_iff {as as' : List (Given machine)}
    {r r' : Except Exn TenantRow}
    (hbefore : History env World.empty log₀ w)
    (hemail : ∀ t ∈ w.db.tenants.rows, t.email ≠ some email)
    (hreg : Went machine (registerWithPassword env email p) w as (some r) w₁)
    (hok : ¬ Saw fails as) (hsalt : (⟨.gensalt, salt⟩ : Given machine) ∈ as)
    (hbcrypt : Bcrypt env limit salt p q)
    (hafter : History env w₁ log w₂)
    (hauth : Went machine (authenticateWithPassword env email q) w₂ as'
      (some r') w₃) (hok' : ¬ Saw fails as') :
    Exact p q r r' ↔ fits 255 email = true ∧ Told limit p q := by
  have hknown := (hbefore.known known_empty).1
  rw [told_iff]
  have hfailed : (∀ t, r ≠ .ok t) → ¬ Exact p q r r' := by
    rintro hr ⟨t, ht, -⟩
    exact hr t ht
  by_cases hp : limit.accepts p
  swap
  · obtain ⟨msg, hmsg⟩ := hbcrypt.hashes_not hp
    rcases register_ends hreg hok hemail hsalt with
      ⟨x, -, hr⟩ | ⟨hashed, hhash, -⟩
    · exact ⟨fun hexact => absurd hexact (hfailed hr), fun h => absurd h.2.1 hp⟩
    · rw [hmsg] at hhash
      cases hhash
  obtain ⟨hashed, hhash, hlen⟩ := hbcrypt.hashes hp
  rcases register_ends hreg hok hemail hsalt with
    ⟨x, hx, -⟩ | ⟨hashed', hhash', hstores⟩
  · rw [hhash] at hx
    cases hx
  obtain rfl : hashed = hashed' := Except.ok.inj (hhash.symm.trans hhash')
  generalize hr₁ : some r = r₁ at hstores
  cases hstores with
  | unread _ _ _ _ hwhy =>
      rcases hwhy with hr | hfails
      · rw [hr] at hr₁
        cases hr₁
      · exact absurd hfails hok
  | kept _ _ _ hno hwhy =>
      have hnever : ∀ t, r ≠ .ok t := by
        intro t ht
        exact hno t (by rw [← hr₁, ht])
      rcases hwhy with hr | hfails | ⟨id, now, hfresh, hins, -⟩
      · rw [hr] at hr₁
        cases hr₁
      · exact absurd hfails hok
      · refine ⟨fun hexact => absurd hexact (hfailed hnever), fun h => ?_⟩
        obtain ⟨table, htable⟩ :=
          (insert_registered_iff hknown now hfresh hlen hemail).mpr h.1
        rw [hins] at htable
        cases htable
  | @stored id now _ _ hnew _ =>
      obtain rfl := Option.some.inj hr₁
      have hfits := (insert_registered_iff hknown now hnew.fresh hlen hemail).mp
        ⟨_, hnew.inserted⟩
      have hrow : registeredTenant email hashed id now ∈ w₂.db.tenants.rows :=
        (History.grows hafter).1.mem
          ((Table.mem_insert? hnew.inserted).mpr (.inr rfl))
      rw [exact_of_stored hp hbcrypt hhash
        (authenticate_ends hrow rfl rfl hok' hauth)]
      simp [hfits, hp]

-- ================================================================== samples

/-- What an outside makes of a program. -/
def outcome {α : Type} (c : Choices) (p : Py α) (w : World) :
    Option (Except Exn α) × World × List (Given machine) :=
  p.run (M := machine.recorded) (fun _ e => some (c.answer e)) 0 (w, [])

theorem outcome_went {α : Type} {c : Choices} {p : Py α} {r : Except Exn α}
    (hadm : p.Admitted (M := machine.recorded)
      (fun _ e => some (c.answer e)) 0 (w, []))
    (hr : (outcome c p w).1 = some r) :
    Went machine p w (outcome c p w).2.2 (some r) (outcome c p w).2.1 :=
  Went.of_run hadm hr

def registering (env : Env) (password : String) : Py TenantRow :=
  registerWithPassword env "ada@example.com" password

def signingIn (env : Env) (password : String) : Py TenantRow :=
  authenticateWithPassword env "ada@example.com" password

/-- The world with one account. -/
def accountWorld (env : Env) (password : String) : World :=
  (outcome {} (registering env password) World.empty).2.1

def accountRow (hashed : String) : TenantRow :=
  registeredTenant "ada@example.com" hashed (.ofNat 0) .epoch

/-- The salt of a registration that was answered. -/
theorem salted {as : List (Given machine)}
    (h : (as.any fun g => match g with
      | ⟨.gensalt, (s : String)⟩ => s == salt
      | _ => false) = true) : (⟨.gensalt, salt⟩ : Given machine) ∈ as := by
  obtain ⟨g, hg, hyes⟩ := List.any_eq_true.mp h
  split at hyes
  next s =>
    rw [beq_iff_eq] at hyes
    rw [← hyes]
    exact hg
  next => cases hyes

theorem sample_bcrypt :
    Bcrypt unsigned .ignores sampleSalt "correct horse" "wrong horse" where
  hashes _ := ⟨sampleHash, rfl, by decide⟩
  hashes_not h := absurd trivial h
  checks _ hashed hhash := by
    cases hhash
    decide
  checks_not h := absurd trivial h

/-- Another password than the registered one is an invalid login. -/
theorem exact_sample : ∃ r r',
    (outcome {} (registering unsigned "correct horse") World.empty).1 = some r
    ∧ (outcome {} (signingIn unsigned "wrong horse")
        (accountWorld unsigned "correct horse")).1 = some r'
    ∧ Exact "correct horse" "wrong horse" r r' := by
  have hreg : (outcome {} (registering unsigned "correct horse")
      World.empty).1 = some (.ok (accountRow sampleHash)) := by decide +kernel
  have hauth : (outcome {} (signingIn unsigned "wrong horse")
      (accountWorld unsigned "correct horse")).1 = some (.error invalidLogin) := by
    decide +kernel
  refine ⟨_, _, hreg, hauth, (exact_iff .nil (fun t ht => nomatch ht)
    (outcome_went (by decide +kernel) hreg) ?_ (salted (by decide +kernel))
    sample_bcrypt .nil (outcome_went (by decide +kernel) hauth) ?_).mpr
    ⟨by decide, .inr (by decide)⟩⟩ <;>
    (unfold Saw; decide +kernel)

/-- 73 bytes, and 72 of them with another behind. -/
def long : String := String.ofList (List.replicate 73 'a')

def other : String := String.ofList (List.replicate 72 'a' ++ ['b'])

/-- The hash of both, under the sample salt. -/
def longHash : String :=
  "$2b$12$abcdefghijklmnopqrstuu54EclbqC8XduEGLYgonKPRJ3bZnTXsi"

/-- bcrypt on the long password, with the rest ignored. -/
def ignoring : Env :=
  { unsigned with
    hashpw := fun _ _ => .ok longHash
    checkpw := fun password hashed =>
      .ok (decide (key password = key long) && hashed == longHash) }

/-- A bcrypt that refuses it. -/
def refusing : Env :=
  { unsigned with
    hashpw := fun password _ => if (utf8 password).length ≤ 72
      then .ok sampleHash else .error (.valueError "password cannot be longer")
    checkpw := fun password _ => if (utf8 password).length ≤ 72
      then .ok false else .error (.valueError "password cannot be longer") }

/-- A long password lets another one in, or cannot be registered. -/
theorem other_signs_in : long ≠ other
    ∧ Bcrypt ignoring .ignores sampleSalt long other
    ∧ (outcome {} (registering ignoring long) World.empty).1
      = some (.ok (accountRow longHash))
    ∧ (outcome {} (signingIn ignoring other) (accountWorld ignoring long)).1
      = some (.ok (accountRow longHash))
    ∧ ¬ Exact long other (.ok (accountRow longHash)) (.ok (accountRow longHash))
    ∧ (outcome {} (registering refusing long) World.empty).1
      = some (.error (.valueError "password cannot be longer")) := by
  have hne : other ≠ long := by decide +kernel
  refine ⟨hne.symm, ?_, by decide +kernel, by decide +kernel, ?_,
    by decide +kernel⟩
  · constructor
    · exact fun _ => ⟨longHash, rfl, by decide⟩
    · exact fun h => absurd trivial h
    · intro _ hashed hhash
      cases hhash
      decide +kernel
    · exact fun h => absurd trivial h
  · rintro ⟨t, -, -, hother⟩
    cases hother hne

end ResumeScreening.Accounts.SignUp
