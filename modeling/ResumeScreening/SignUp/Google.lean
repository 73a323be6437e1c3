/-
Google sign-in over a run of sign-ups.

A sign-in looks a tenant up by `google_sub` alone, and where it finds
none it inserts a row with the claims' email. The email column is unique
too, and the password registration fills it: so whether the insert goes
through depends on every row before it. `google_works_iff` says that in
a run from the empty table the sign-ins work, all of them, exactly if
each finds its subject or an email no row has, which fits its column.
-/
import ResumeScreening.SignUp.History

namespace ResumeScreening.Accounts.SignUp

open Effect Prog
open Relational (Table)
open Py (DateTime)

variable {env : Env} {w w' : World} {as : List (Given machine)}

-- ============================================================ the statement

/-- Google verified a token with these claims. -/
def Verified (as : List (Given machine)) (claims : GoogleClaims) : Prop :=
  ∃ token clientId, (⟨.verifyOauth2Token token clientId,
    (.ok claims : Except GoogleError GoogleClaims)⟩ : Given machine) ∈ as

/-- A finished sign-in with these claims, in which no store failed. -/
structure SignsIn (c : Call machine Way TenantRow) (sub : String)
    (email : Option String) : Prop where
  google : ∃ idToken, c.op = .google idToken
  verified : Verified c.answers ⟨some sub, email⟩
  finished : c.result ≠ none
  healthy : ¬ Saw fails c.answers

/-- A row has the subject. -/
def hasSub (w : World) (sub : String) : Bool :=
  w.db.tenants.rows.any fun t => t.googleSub == some sub

/-- The call brought a tenant with the subject into the table. -/
def creates (sub : String) (c : Call machine Way TenantRow) : Bool :=
  hasSub c.after sub && !hasSub c.before sub

/-- Google sign-in works in a run: each sign-in returns a tenant with its
subject, the same one each time; a subject comes into the table once; and
no call changes a row. -/
structure GoogleWorks (log : List (Call machine Way TenantRow)) : Prop where
  returned : ∀ c ∈ log, ∀ sub email, SignsIn c sub email →
    ∃ t, c.result = some (.ok t) ∧ t.googleSub = some sub
  once : ∀ sub, (log.filter (creates sub)).length ≤ 1
  same : log.Pairwise fun c c' => ∀ sub email email' t t',
    SignsIn c sub email → SignsIn c' sub email' →
    c.result = some (.ok t) → c'.result = some (.ok t') → t' = t
  kept : ∀ c ∈ log, c.before.db.tenants.rows <+: c.after.db.tenants.rows

/-- The table takes a new tenant with these claims: the name, which is the
email or else the subject, and the subject fit their columns, and no row
has the email. -/
structure Free (w : World) (sub : String) (email : Option String) : Prop where
  name : fits 255 (Py.orStr (email.getD "") sub) = true
  sub : fits 255 sub = true
  email : ∀ address, Py.optTruthy email = some address →
    ∀ t ∈ w.db.tenants.rows, t.email ≠ some address

/-- The subject has a tenant or can get one. -/
def Room (w : World) (sub : String) (email : Option String) : Prop :=
  (∃ t ∈ w.db.tenants.rows, t.googleSub = some sub) ∨ Free w sub email

-- ================================================================ one sign-in

/-- How a sign-in ends: no subject was verified, the lookup failed, the
subject was found, or its row is stored. -/
inductive GoogleEnds (w : World) (as : List (Given machine)) :
    Option (Except Exn TenantRow) → World → Prop
  | unverified {r} : (∀ sub email, ¬ Verified as ⟨some sub, email⟩) →
      (∀ t, r ≠ some (.ok t)) → GoogleEnds w as r w
  | unread {r} : r = none ∨ Saw fails as → (∀ t, r ≠ some (.ok t)) →
      GoogleEnds w as r w
  | found {sub : String} {email : Option String} {t : TenantRow} :
      (∀ claims, Verified as claims ↔ claims = ⟨some sub, email⟩) →
      (w.db.tenants.find? fun t => t.googleSub == some sub) = some t →
      GoogleEnds w as (some (.ok t)) w
  | stores {sub : String} {email : Option String} {r w'} :
      (∀ claims, Verified as claims ↔ claims = ⟨some sub, email⟩) →
      (w.db.tenants.find? fun t => t.googleSub == some sub) = none →
      Stores (googleTenant sub (email.getD "")) w as r w' →
      GoogleEnds w as r w'

variable {r : Option (Except Exn TenantRow)} {sub : String}
  {email : Option String}

theorem optTruthy_getD (email : Option String) :
    Py.optTruthy (some (email.getD "")) = Py.optTruthy email := by
  cases email with
  | none => rfl
  | some s => rfl

/-- A truthy value is not replaced. -/
theorem orStr_of_truthy {s address : String}
    (h : Py.optTruthy (some s) = some address) (default : String) :
    Py.orStr s default = address := by
  unfold Py.optTruthy at h
  unfold Py.orStr
  by_cases hs : s = ""
  · simp [hs] at h
  · simpa [hs] using h

/-- The insert of a new subject goes through exactly if there is room. -/
theorem insert_google_iff (hknown : Known w) {id : UUID} (now : DateTime)
    (hfresh : id ∉ w.usedIds)
    (hnew : ∀ t ∈ w.db.tenants.rows, t.googleSub ≠ some sub) :
    (∃ table, w.db.tenants.insert?
        (googleTenant sub (email.getD "") id now) = some table)
      ↔ Free w sub email := by
  constructor
  · rintro ⟨table, htable⟩
    obtain ⟨hvalid, hclash⟩ := Table.insert?_valid htable
    simp only [tenantSchema, googleTenant, Bool.and_eq_true] at hvalid
    refine ⟨hvalid.1.1.1, by simpa using hvalid.2, ?_⟩
    intro address haddress t ht heq
    have hno := hclash t ht
    simp [tenantSchema, googleTenant, optTruthy_getD, haddress, heq,
      sameUnique] at hno
  · intro hfree
    refine Table.insert?_isSome _ ?_ fun t ht => ?_
    · simp only [tenantSchema, googleTenant, Bool.and_eq_true]
      refine ⟨⟨⟨hfree.name, ?_⟩, rfl⟩, by simpa using hfree.sub⟩
      cases haddress : Py.optTruthy (some (email.getD "")) with
      | none => rfl
      | some address =>
          rw [← orStr_of_truthy haddress sub]
          exact hfree.name
    · have hid : t.id ≠ id := fun heq => hfresh (heq ▸ hknown t ht)
      have hemail : sameUnique t.email (Py.optTruthy (some (email.getD "")))
          = false := by
        unfold sameUnique
        cases haddress : Py.optTruthy (some (email.getD "")) with
        | none => cases t.email <;> rfl
        | some address =>
            rw [optTruthy_getD] at haddress
            simp [hfree.email address haddress t ht]
      have hsub : sameUnique t.googleSub (some sub) = false := by
        simp [sameUnique, hnew t ht]
      simp only [tenantSchema, googleTenant, hemail, hsub, Bool.or_false]
      exact beq_false_of_ne hid

/-- The claims behind a verification are the verified ones. -/
theorem verified_cons {token clientId : String} {claims : GoogleClaims}
    (hrest : ∀ g ∈ as, ∀ token clientId,
      g.act ≠ Act.verifyOauth2Token token clientId) :
    ∀ claims', Verified (⟨.verifyOauth2Token token clientId,
      (.ok claims : Except GoogleError GoogleClaims)⟩ :: as) claims'
      ↔ claims' = claims := by
  intro claims'
  constructor
  · rintro ⟨token', clientId', hmem⟩
    rcases List.mem_cons.mp hmem with heq | hmem
    · cases heq
      rfl
    · exact absurd rfl (hrest _ hmem token' clientId')
  · rintro rfl
    exact ⟨token, clientId, List.mem_cons_self ..⟩

/-- A lookup by subject, and what is done where it finds nothing. -/
theorem findOrStore_ends {token clientId : String}
    (h : Went machine (findOrStore sub (email.getD "")) w as r w') :
    GoogleEnds w (⟨.verifyOauth2Token token clientId,
      (.ok ⟨some sub, email⟩ : Except GoogleError GoogleClaims)⟩ :: as) r w' := by
  have hstore : ∀ {as}, Went machine (storeTenant
      (googleTenant sub (email.getD ""))) w as r w' →
      ∀ g ∈ as, ∀ token clientId,
        g.act ≠ Act.verifyOauth2Token token clientId := by
    intro as h
    refine h.uses (q := fun e : Act => ∀ token clientId,
      e ≠ .verifyOauth2Token token clientId) ?_
    refine uses_storeTenant ?_ ?_ ?_ ?_ _
    all_goals
      intros
      intro heq
      cases heq
  have hread : ∀ a : Except String Unit,
      (fails ⟨.selectTenantByGoogleSub sub, a⟩ = true ∧ ∃ x,
        machine.perform (.selectTenantByGoogleSub sub) a w = (.error x, w))
      ∨ ∃ v, (w.db.tenants.find? fun t => t.googleSub == some sub) = v
        ∧ machine.perform (.selectTenantByGoogleSub sub) a w = (.ok v, w) := by
    intro a
    cases a with
    | ok u => exact .inr ⟨_, rfl, rfl⟩
    | error msg => exact .inl ⟨rfl, _, rfl⟩
  rcases went_read hread h with ⟨hwhy, hno, rfl⟩ | ⟨a, found, as₂, hfound, rfl, h⟩
  · exact .unread (hwhy.imp_right fun hfails => by simp [hfails]) hno
  cases found with
  | some t =>
      obtain ⟨rfl, rfl, rfl⟩ := Went.ret_iff.mp h
      refine .found (verified_cons fun g hg token clientId => ?_) hfound
      rw [List.mem_singleton.mp hg]
      intro heq
      cases heq
  | none =>
      refine .stores (verified_cons fun g hg => ?_) hfound ?_
      · rcases List.mem_cons.mp hg with rfl | hg
        · intro token clientId heq
          cases heq
        · exact hstore h g hg
      · show Stores _ w ([⟨.verifyOauth2Token token clientId,
          (.ok ⟨some sub, email⟩ : Except GoogleError GoogleClaims)⟩,
          ⟨.selectTenantByGoogleSub sub, a⟩] ++ as₂) r w'
        refine (storeTenant_ends (fun _ _ => rfl) h).behind ?_ ?_
        · simp [lands]
        · simp

theorem google_ends {idToken : String}
    (h : Went machine (registerOrLoginWithGoogle env idToken) w as r w') :
    GoogleEnds w as r w' := by
  rw [registerOrLoginWithGoogle_eq] at h
  split at h
  · obtain ⟨rfl, rfl, rfl⟩ := Went.raise_iff.mp h
    refine .unverified (fun sub email => ?_) fun _ hr => by cases hr
    rintro ⟨token, clientId, hmem⟩
    cases hmem
  have hread : ∀ a : Except GoogleError GoogleClaims,
      (fails ⟨.verifyOauth2Token idToken env.googleOauthClientId, a⟩ = true
        ∧ ∃ x, machine.perform
          (.verifyOauth2Token idToken env.googleOauthClientId) a w
          = (.error x, w))
      ∨ ∃ claims, a = .ok claims ∧ machine.perform
          (.verifyOauth2Token idToken env.googleOauthClientId) a w
          = (.ok claims, w) := by
    intro a
    cases a with
    | ok claims => exact .inr ⟨_, rfl, rfl⟩
    | error x => exact .inl ⟨rfl, _, rfl⟩
  rcases went_read hread h with
    ⟨hwhy, hno, rfl⟩ | ⟨a, claims, as₂, rfl, rfl, hrest⟩
  · exact .unread hwhy hno
  obtain ⟨sub, email⟩ := claims
  cases sub with
  | none =>
      obtain ⟨rfl, rfl, rfl⟩ := Went.raise_iff.mp hrest
      refine .unverified (fun sub email => ?_) fun _ hr => by cases hr
      rintro ⟨token, clientId, hmem⟩
      cases List.mem_singleton.mp hmem
  | some sub => exact findOrStore_ends hrest

/-- A tenant a sign-in returns has its subject and is in the table. -/
theorem GoogleEnds.answer (h : GoogleEnds w as r w') {t : TenantRow}
    (hr : r = some (.ok t)) (hverified : Verified as ⟨some sub, email⟩) :
    t.googleSub = some sub ∧ t ∈ w'.db.tenants.rows := by
  cases h with
  | unverified _ hno => exact absurd hr (hno t)
  | unread _ hno => exact absurd hr (hno t)
  | found hclaims hfound =>
      cases hr
      cases (hclaims _).mp hverified
      obtain ⟨ht, hp⟩ := Table.find?_mem hfound
      exact ⟨by simpa using hp, ht⟩
  | stores hclaims _ hstores =>
      cases (hclaims _).mp hverified
      cases hstores with
      | kept _ _ _ hno _ => exact absurd hr (hno t)
      | unread _ _ _ hno _ => exact absurd hr (hno t)
      | stored _ hnew _ =>
          cases hr
          exact ⟨rfl, (Table.mem_insert? hnew.inserted).mpr (.inr rfl)⟩

/-- An answered sign-in had one verification. -/
theorem GoogleEnds.claims_unique (h : GoogleEnds w as r w') {t : TenantRow}
    (hr : r = some (.ok t)) {claims claims' : GoogleClaims}
    (hv : Verified as claims) (hv' : Verified as claims') : claims = claims' := by
  cases h with
  | unverified _ hno => exact absurd hr (hno t)
  | unread _ hno => exact absurd hr (hno t)
  | found hclaims _ => rw [(hclaims _).mp hv, (hclaims _).mp hv']
  | stores hclaims _ _ => rw [(hclaims _).mp hv, (hclaims _).mp hv']

theorem not_found {p : TenantRow → Bool}
    (h : w.db.tenants.find? p = none) :
    ∀ t ∈ w.db.tenants.rows, ¬ p t = true :=
  List.find?_eq_none.mp h

/-- A sign-in in which nothing fails returns a tenant exactly if there is
room for its claims. -/
theorem GoogleEnds.returns_iff (h : GoogleEnds w as r w') (hknown : Known w)
    (hverified : Verified as ⟨some sub, email⟩) (hfinished : r ≠ none)
    (hhealthy : ¬ Saw fails as) :
    (∃ t, r = some (.ok t)) ↔ Room w sub email := by
  cases h with
  | unverified hno _ => exact absurd hverified (hno sub email)
  | unread hwhy _ =>
      rcases hwhy with hr | hfails
      · exact absurd hr hfinished
      · exact absurd hfails hhealthy
  | found hclaims hfound =>
      cases (hclaims _).mp hverified
      obtain ⟨ht, hp⟩ := Table.find?_mem hfound
      exact ⟨fun _ => .inl ⟨_, ht, by simpa using hp⟩, fun _ => ⟨_, rfl⟩⟩
  | stores hclaims hnone hstores =>
      cases (hclaims _).mp hverified
      have hnew : ∀ t ∈ w.db.tenants.rows, t.googleSub ≠ some sub := by
        intro t ht
        simpa using not_found hnone t ht
      have hroom : Room w sub email ↔ Free w sub email := by
        refine ⟨fun hroom => ?_, .inr⟩
        rcases hroom with ⟨t, ht, hsub⟩ | hfree
        · exact absurd hsub (hnew t ht)
        · exact hfree
      rw [hroom]
      cases hstores with
      | kept _ _ _ hno hwhy =>
          rcases hwhy with hr | hfails | ⟨id, now, hfresh, hins, -⟩
          · exact absurd hr hfinished
          · exact absurd hfails hhealthy
          · rw [← insert_google_iff hknown now hfresh hnew, hins]
            exact ⟨fun ⟨t, ht⟩ => absurd ht (hno t), fun ⟨_, htable⟩ => nomatch htable⟩
      | unread _ _ _ _ hwhy =>
          rcases hwhy with hr | hfails
          · exact absurd hr hfinished
          · exact absurd hfails hhealthy
      | stored _ hins _ =>
          rw [← insert_google_iff hknown _ hins.fresh hnew]
          exact ⟨fun _ => ⟨_, hins.inserted⟩, fun _ => ⟨_, rfl⟩⟩

-- ================================================================== the runs

theorem SignsIn.ends {c : Call machine Way TenantRow}
    (h : SignsIn c sub email)
    (hwent : Went machine (program env c.op) c.before c.answers c.result
      c.after) : GoogleEnds c.before c.answers c.result c.after := by
  obtain ⟨idToken, hop⟩ := h.google
  rw [hop] at hwent
  exact google_ends hwent

/-- A tenant has the subject it was returned for. -/
theorem SignsIn.answer {c : Call machine Way TenantRow} {t : TenantRow}
    (h : SignsIn c sub email) (hr : c.result = some (.ok t))
    (hwent : Went machine (program env c.op) c.before c.answers c.result
      c.after) : t.googleSub = some sub ∧ t ∈ c.after.db.tenants.rows :=
  (h.ends hwent).answer hr h.verified

theorem hasSub_iff : hasSub w sub = true
    ↔ ∃ t ∈ w.db.tenants.rows, t.googleSub = some sub := by
  unfold hasSub
  rw [List.any_eq_true]
  simp only [beq_iff_eq]

theorem Grows.hasSub (h : Grows w w') (hsub : hasSub w sub = true) :
    hasSub w' sub = true := by
  obtain ⟨t, ht, heq⟩ := hasSub_iff.mp hsub
  exact hasSub_iff.mpr ⟨t, h.mem ht, heq⟩

variable {log : List (Call machine Way TenantRow)}

/-- How often a subject came into the table tells whether it is there. -/
theorem History.creates_count (h : History env World.empty log w')
    (sub : String) : (log.filter (creates sub)).length
      = if hasSub w' sub then 1 else 0 := by
  induction h with
  | nil => rfl
  | @call log w₁ op as r w₂ _ hwent ih =>
      have hgrows := program_grows hwent
      rw [List.filter_append, List.length_append, ih]
      cases hbefore : hasSub w₁ sub with
      | true =>
          have hafter := hgrows.hasSub hbefore
          simp [creates, hbefore, hafter]
      | false =>
          cases hafter : hasSub w₂ sub <;> simp [creates, hbefore, hafter]

/-- Two sign-ins with one subject return one tenant. -/
theorem History.same (h : History env w log w') :
    log.Pairwise fun c c' => ∀ sub email email' t t',
      SignsIn c sub email → SignsIn c' sub email' →
      c.result = some (.ok t) → c'.result = some (.ok t') → t' = t := by
  induction h with
  | nil => exact .nil
  | @call log w₁ op as r w₂ hlog hwent ih =>
      refine List.pairwise_append.mpr ⟨ih, List.pairwise_singleton _ _, ?_⟩
      intro c hc c' hc' sub email email' t t' hs hs' hr hr'
      obtain rfl := List.mem_singleton.mp hc'
      obtain ⟨hsub, ht⟩ := hs.answer hr (hlog.went c hc)
      obtain ⟨hsub', ht'⟩ := hs'.answer hr' hwent
      have hlater := (History.grows hlog).2 c hc
      refine w₂.db.tenants.eq_of_clash ht'
        ((program_grows hwent).mem (hlater.2.mem ht)) ?_
      simp [tenantSchema, sameUnique, hsub, hsub']

/-- Google sign-in works in a run from the empty table exactly if every
sign-in finds its subject or has room for it. -/
theorem google_works_iff (h : History env World.empty log w') :
    GoogleWorks log ↔ ∀ c ∈ log, ∀ sub email, SignsIn c sub email →
      Room c.before sub email := by
  have hknown := (h.known known_empty).2
  constructor
  · intro hworks c hc sub email hs
    obtain ⟨t, hr, -⟩ := hworks.returned c hc sub email hs
    exact ((hs.ends (h.went c hc)).returns_iff (hknown c hc).1 hs.verified
      hs.finished hs.healthy).mp ⟨t, hr⟩
  · intro hroom
    constructor
    · intro c hc sub email hs
      obtain ⟨t, hr⟩ := ((hs.ends (h.went c hc)).returns_iff (hknown c hc).1
        hs.verified hs.finished hs.healthy).mpr (hroom c hc sub email hs)
      exact ⟨t, hr, (hs.answer hr (h.went c hc)).1⟩
    · intro sub
      rw [h.creates_count sub]
      split
      · exact Nat.le_refl 1
      · exact Nat.zero_le 1
    · exact h.same
    · exact fun c hc => ((History.grows h).2 c hc).1.rows

-- ================================================================== samples

/-- A verification of a token with these claims. -/
def verifies (claims : GoogleClaims) : Given machine → Bool
  | ⟨.verifyOauth2Token .., (.ok claims' : Except GoogleError GoogleClaims)⟩ =>
      decide (claims' = claims)
  | _ => false

theorem verified_iff_saw {claims : GoogleClaims} :
    Verified as claims ↔ Saw (verifies claims) as := by
  constructor
  · rintro ⟨token, clientId, hmem⟩
    exact ⟨_, hmem, by simp [verifies]⟩
  · rintro ⟨g, hg, hyes⟩
    unfold verifies at hyes
    split at hyes
    next token clientId claims' =>
      rw [← of_decide_eq_true hyes]
      exact ⟨token, clientId, hg⟩
    next => cases hyes

/-- The subject's first sign-in, and a later one with another email. -/
def firstClaims : GoogleClaims := ⟨some "123", some "ada@example.com"⟩

def laterClaims : GoogleClaims := ⟨some "123", none⟩

/-- An outside in which Google verifies these claims. -/
def verifying (claims : GoogleClaims) : Choices where
  id := .ofNat 1
  claims := claims

/-- The call an outside makes of an operation. -/
def made (w : World) (op : Way) (c : Choices) : Call machine Way TenantRow :=
  let out := (program unsigned op).run (M := machine.recorded)
    (fun _ e => some (c.answer e)) 0 (w, [])
  ⟨w, op, out.2.2, out.1, out.2.1⟩

theorem made_went {w : World} {op : Way} {c : Choices}
    (hadm : (program unsigned op).Admitted (M := machine.recorded)
      (fun _ e => some (c.answer e)) 0 (w, [])) :
    Went machine (program unsigned op) w (made w op c).answers
      (made w op c).result (made w op c).after :=
  Went.of_run hadm rfl

def firstSignIn : Call machine Way TenantRow :=
  made World.empty (.google "token") (verifying firstClaims)

def laterSignIn : Call machine Way TenantRow :=
  made firstSignIn.after (.google "token") (verifying laterClaims)

/-- What an answered sign-in of the sample was verified for. -/
theorem made_claims {w : World} {c : Choices} {t : TenantRow}
    (hadm : (program unsigned (.google "token")).Admitted (M := machine.recorded)
      (fun _ e => some (c.answer e)) 0 (w, []))
    (hr : (made w (.google "token") c).result = some (.ok t))
    (hv : Saw (verifies c.claims) (made w (.google "token") c).answers)
    (hs : SignsIn (made w (.google "token") c) sub email) :
    c.claims = ⟨some sub, email⟩ :=
  (google_ends (made_went hadm)).claims_unique hr (verified_iff_saw.mpr hv)
    hs.verified

def sampleTenant : TenantRow :=
  googleTenant "123" "ada@example.com" (.ofNat 1) .epoch

/-- Two sign-ins with one subject: both return its tenant. -/
theorem google_works_sample :
    GoogleWorks [firstSignIn, laterSignIn]
      ∧ firstSignIn.result = some (.ok sampleTenant)
      ∧ laterSignIn.result = some (.ok sampleTenant) := by
  have hfirst : (program unsigned firstSignIn.op).Admitted
      (M := machine.recorded) (fun _ e => some ((verifying firstClaims).answer e))
      0 (firstSignIn.before, []) := by decide +kernel
  have hlater : (program unsigned laterSignIn.op).Admitted
      (M := machine.recorded) (fun _ e => some ((verifying laterClaims).answer e))
      0 (laterSignIn.before, []) := by decide +kernel
  have hhist : History unsigned World.empty ([] ++ [firstSignIn] ++ [laterSignIn])
      laterSignIn.after :=
    .made (.made .nil (made_went hfirst)) (made_went hlater)
  have hr : firstSignIn.result = some (.ok sampleTenant) := by decide +kernel
  have hr' : laterSignIn.result = some (.ok sampleTenant) := by decide +kernel
  refine ⟨(google_works_iff hhist).mpr ?_, hr, hr'⟩
  intro c hc sub email hs
  simp only [List.nil_append, List.singleton_append, List.mem_cons,
    List.not_mem_nil, or_false] at hc
  rcases hc with rfl | rfl
  · cases made_claims hfirst hr (by unfold Saw; decide +kernel) hs
    exact .inr ⟨by decide, by decide, fun address _ t ht => nomatch ht⟩
  · cases made_claims hlater hr' (by unfold Saw; decide +kernel) hs
    exact .inl (hasSub_iff.mp (by decide +kernel))

/-- A password account has the email of a Google account that signs in. -/
def password : Call machine Way TenantRow :=
  made World.empty (.registered "ada@example.com" "correct horse") {}

def refused : Call machine Way TenantRow :=
  made password.after (.google "token") (verifying firstClaims)

/-- The sign-in ends in the email column's constraint. -/
theorem google_sign_in_refused :
    History unsigned World.empty [password, refused] refused.after
      ∧ SignsIn refused "123" (some "ada@example.com")
      ∧ refused.result
        = some (.error (.commitFailed "IntegrityError or DataError"))
      ∧ ¬ GoogleWorks [password, refused] := by
  have hhist : History unsigned World.empty ([] ++ [password] ++ [refused])
      refused.after := by
    refine .made (.made .nil (made_went ?_)) (made_went ?_) <;> decide +kernel
  have hsigns : SignsIn refused "123" (some "ada@example.com") := by
    refine ⟨⟨"token", rfl⟩, verified_iff_saw.mpr ?_, by decide +kernel, ?_⟩ <;>
      (unfold Saw; decide +kernel)
  have hresult : refused.result
      = some (.error (.commitFailed "IntegrityError or DataError")) := by
    decide +kernel
  refine ⟨hhist, hsigns, hresult, fun hworks => ?_⟩
  obtain ⟨t, ht, -⟩ := hworks.returned refused (by simp) _ _ hsigns
  rw [hresult] at ht
  cases ht

end ResumeScreening.Accounts.SignUp
