/-
API keys are accepted exactly while valid, over every interleaving of
the credential operations.

A request's lookup of a key is resolved to a tenant exactly if a
`create_api_key` call for that tenant has committed the key and no
revocation of it has been committed: the ledger read in both directions.
What a request writes afterwards is `last_used_at` of the one row its key
hashes to, so it neither undoes a revocation nor touches another key.
-/
import ResumeScreening.Keys.Ledger

namespace ResumeScreening.Accounts

open Effect
open Relational (Table)

variable {env : Env} {s s' : Sys (service env)} {i j : Nat} {r : String}
  {t id : UUID} {found : Option ApiKey}

-- ============================================================== vocabulary

/-- One step: thread `i`, a request presenting `r` and no Authorization
header, looks its key up and is answered. -/
def LooksUp (s s' : Sys (service env)) (i : Nat) (r : String)
    (found : Option ApiKey) : Prop :=
  s.op? i = some (.requireTenant none (some r))
    ∧ (∃ ans, s.step (.act i ans) = some s')
    ∧ ∃ hashed, s'.log = (i, ⟨.findApiKey hashed, .ok found⟩) :: s.log

/-- The lookup resolved the request to `t`. -/
def ResolvedTo (found : Option ApiKey) (t : UUID) : Prop :=
  ∃ k, found = some k ∧ k.tenantId = t

/-- The hash tells `r` from the other keys drawn. -/
def Distinct (env : Env) (log : Log sig) (r : String) : Prop :=
  ∀ j r', Drew log j r' → hashKey env r' = hashKey env r → r' = r

/-- A row after a request presenting `r` used it. -/
def used (env : Env) (r : String) (now : Py.DateTime) (k : ApiKey) : ApiKey :=
  if k.hashedKey = hashKey env r then { k with lastUsedAt := some now } else k

-- ================================================================= lookups

theorem key_lookup (hashed : String) : apiKeySchema.Key fun k =>
    k.hashedKey == hashed && k.revokedAt.isNone := by
  intro a b ha hb
  simp only [Bool.and_eq_true, beq_iff_eq] at ha hb
  simp [apiKeySchema, ha.1, hb.1]

/-- What a request looks up: the hash of its key, in the table as it
is. -/
theorem LooksUp.found_eq (hs : Reachable env s) (h : LooksUp s s' i r found) :
    found = s.world.db.apiKeys.find? fun k =>
      k.hashedKey == hashKey env r && k.revokedAt.isNone := by
  obtain ⟨hop, ⟨ans, hstep⟩, hashed, hlog⟩ := h
  cases Sys.stepped hstep with
  | @act _ _ op e k ht hadm =>
      have hallow := (reachable_holds hs).acts ht hadm
      have hop' : op = .requireTenant none (some r) := by
        simpa [Sys.op?, ht] using hop
      subst hop'
      have hev := (List.cons.inj hlog).1
      cases e with
      | findApiKey hashed' =>
          obtain ⟨r', hr', rfl⟩ := hallow
          cases hr'
          generalize ha : ans (.findApiKey (hashKey env r)) = a at hev
          cases a with
          | error msg => simp [perform, reply] at hev
          | ok u =>
              simp only [perform, reply, Prod.mk.injEq, true_and] at hev
              cases hev
              rfl
      | _ => simp at hev

theorem resolved_iff (hs : Reachable env s) (h : LooksUp s s' i r found)
    (hdist : Distinct env s.log r) :
    ResolvedTo found t
      ↔ ∃ id, Issued s.log s.ops t r id ∧ ¬ Revoked s.log s.ops id := by
  have hledger := (reachable_holds hs).kept
  have hfound := h.found_eq hs
  constructor
  · intro hres
    obtain ⟨k, rfl, rfl⟩ := hres
    obtain ⟨hk, hp⟩ := Table.find?_mem hfound.symm
    simp only [Bool.and_eq_true, beq_iff_eq] at hp
    obtain ⟨r', hiss, hhash⟩ := hledger.issued hk
    have hdrew : ∃ j, Drew s.log j r' := by
      obtain ⟨j, -, hdrew, -⟩ := hiss
      exact ⟨j, hdrew⟩
    obtain ⟨j, hdrew⟩ := hdrew
    obtain rfl := hdist j r' hdrew (hhash.symm.trans hp.1)
    refine ⟨k.id, hiss, fun hrev => ?_⟩
    have hsome := (hledger.revoked hk).mpr hrev
    rw [Option.isNone_iff_eq_none] at hp
    rw [hp.2] at hsome
    cases hsome
  · intro hvalid
    obtain ⟨id, hiss, hnot⟩ := hvalid
    obtain ⟨row, hrow, rfl, htenant, hhash⟩ := hledger.row_of_issued hiss
    refine ⟨row, ?_, htenant⟩
    rw [hfound, Table.find?_key _ (key_lookup _)]
    refine ⟨hrow, ?_⟩
    have hunrevoked : row.revokedAt.isSome = false := by
      rw [Bool.eq_false_iff]
      exact fun hsome => hnot ((hledger.revoked hrow).mp hsome)
    simp [hhash, Option.isSome_eq_false_iff.mp hunrevoked]

/-- A revoked key is not accepted again, however the run goes on. -/
theorem not_accepted_again (hs : Reachable env s) {u u' : Sys (service env)}
    (hrun : Run (fun _ _ => True) s u) (hiss : Issued s.log s.ops t r id)
    (hrev : Revoked s.log s.ops id) (h : LooksUp u u' i r found)
    (hdist : Distinct env u.log r) : found = none := by
  have hu : Reachable env u := hs.trans hrun
  have hledger := (reachable_holds hu).kept
  have hiss' : Issued u.log u.ops t r id := by
    obtain ⟨j, hop, hdrew, ev, row, hev, hrow, hid⟩ := hiss
    exact ⟨j, hrun.ops_mono hop, hrun.log_mono hdrew, ev, row,
      hrun.log_mono hev, hrow, hid⟩
  have hrev' : Revoked u.log u.ops id := by
    obtain ⟨j, hop, ev, set, hev, hset⟩ := hrev
    exact ⟨j, hrun.ops_mono hop, ev, set, hrun.log_mono hev, hset⟩
  cases found with
  | none => rfl
  | some k =>
      obtain ⟨id', hiss'', hnot⟩ := (resolved_iff hu h hdist).mp ⟨k, rfl, rfl⟩
      obtain ⟨row, hrow, rfl, -, hhash⟩ := hledger.row_of_issued hiss'
      obtain ⟨row', hrow', rfl, -, hhash'⟩ := hledger.row_of_issued hiss''
      obtain rfl := hashedKey_unique hrow hrow' (hhash.trans hhash'.symm)
      exact absurd hrev' hnot

-- ================================================================= answers

/-- A call that returned a key has committed it. -/
theorem issued_of_returned (hs : Reachable env s)
    {response : ApiKeyCreateResponse}
    (h : s.Ended j (.createApiKey t) (.ok (.created response))) :
    Issued s.log s.ops t response.rawKey response.id := by
  obtain ⟨hdrew, row, hrow, hid, -⟩ := (reachable_holds hs).ended h
  have hop : s.ops[j]? = some (.createApiKey t) := by
    rw [← Sys.op?_eq]
    exact (Sys.ended_iff.mp h).1
  exact ⟨j, hop, mem_own.mp hdrew, _, row, mem_own.mp hrow,
    List.mem_singleton.mpr rfl, hid⟩

/-- A request that returned a tenant was resolved to it. -/
theorem resolved_of_returned (hs : Reachable env s)
    (h : s.Ended i (.requireTenant none (some r)) (.ok (.resolved t))) :
    ∃ k, (i, ⟨.findApiKey (hashKey env r), .ok (some k)⟩) ∈ s.log
      ∧ k.tenantId = t := by
  have hledger := (reachable_holds hs).kept
  obtain ⟨k, k', hfound, hloaded, hid, rfl⟩ := (reachable_holds hs).ended h
  obtain ⟨row, hrow, hcont⟩ := hledger.shown (mem_own.mp hfound) rfl
  obtain ⟨row', hrow', hcont'⟩ := hledger.shown (mem_own.mp hloaded) rfl
  refine ⟨k, mem_own.mp hfound, ?_⟩
  have hsame : row.id = row'.id := by rw [hcont.id, hcont'.id, hid]
  obtain rfl := apiKey_unique hrow hrow' hsame
  exact hcont.tenantId.symm.trans hcont'.tenantId

-- ================================================================== writes

/-- A request's assignment, on the rows of a table that holds the row it
found: only the row its key hashes to is rewritten. -/
theorem touched_rows {id : UUID} {set : ApiKeyPatch}
    {rows : Table apiKeySchema} {row : ApiKey} (hrow : row ∈ rows.rows)
    (hid : row.id = id) (hhash : row.hashedKey = hashKey env r)
    (hrev : set.revokedAt = none) {now : Py.DateTime}
    (hset : set.lastUsedAt = some (some now)) :
    (rows.rows.map fun k => if k.id == id then set.apply k else k)
      = rows.rows.map (used env r now) := by
  apply List.map_congr_left
  intro k hk
  subst hid
  unfold used
  by_cases hsame : k.hashedKey = hashKey env r
  · obtain rfl := hashedKey_unique hk hrow (hsame.trans hhash.symm)
    simp [hsame, ApiKeyPatch.apply, hrev, hset]
  · have hne : k.id ≠ row.id := by
      intro heq
      obtain rfl := apiKey_unique hk hrow heq
      exact hsame hhash
    simp [hsame, hne]

/-- A step of a request leaves the keys alone, or marks the row its key
hashes to as used. -/
theorem request_writes (hs : Reachable env s) {x : Option String}
    (hop : s.op? i = some (.requireTenant none x))
    {ans : (e : Act) → e.Ans} (hstep : s.step (.act i ans) = some s') :
    s'.world.db.apiKeys.rows = s.world.db.apiKeys.rows
      ∨ ∃ r now, x = some r ∧ s'.world.db.apiKeys.rows
          = s.world.db.apiKeys.rows.map (used env r now) := by
  have hledger := (reachable_holds hs).kept
  cases Sys.stepped hstep with
  | @act _ _ op e k ht hadm =>
      have hallow := (reachable_holds hs).acts ht hadm
      obtain rfl : op = .requireTenant none x := by
        simpa [Sys.op?, ht] using hop
      cases changed (w := s.world) (a := ans e) hallow with
      | same _ hsame => exact .inl (by rw [← hsame])
      | inserted _ hmay _ => cases hmay.1
      | @updated id set _ hmay htable =>
          have hrows := Table.update?_rows htable
          rcases hmay with
            ⟨hop', -⟩ | ⟨r, hop', hrev, k', now, hk', hid, hhash, hset⟩
          · cases hop'
          cases hop'
          obtain ⟨row, hrow, hcont⟩ := hledger.shown (mem_own.mp hk') rfl
          by_cases hchange : some now = k'.lastUsedAt
          · -- the time did not change: no column is assigned
            have hsame : ∀ k, set.apply k = k := by
              intro k
              simp [ApiKeyPatch.apply, hrev, hset, assign, hchange]
            exact .inl (hrows.trans (by simp [hsame]))
          · refine .inr ⟨r, now, rfl, hrows.trans ?_⟩
            refine touched_rows hrow (hcont.id.trans hid)
              (hcont.hashedKey.trans hhash) hrev ?_
            simp [hset, assign, hchange]

-- ================================================================ contract

/-- In every reachable state: a lookup of `r` is resolved to `t` exactly if
a `create_api_key` call for `t` has committed `r` and no revocation of that
key has been committed; a call that returned a key has committed it; a
request answers with no other tenant than its lookup's; and a step of a
request changes at most the `last_used_at` of the row its key hashes
to. -/
theorem keys_accepted_while_valid (hs : Reachable env s) :
    (∀ {s' i r found t}, LooksUp s s' i r found → Distinct env s.log r →
        (ResolvedTo found t
          ↔ ∃ id, Issued s.log s.ops t r id ∧ ¬ Revoked s.log s.ops id))
      ∧ (∀ {j t response},
          s.Ended j (.createApiKey t) (.ok (.created response)) →
          Issued s.log s.ops t response.rawKey response.id)
      ∧ (∀ {i r t},
          s.Ended i (.requireTenant none (some r)) (.ok (.resolved t)) →
          ∃ k, (i, ⟨.findApiKey (hashKey env r), .ok (some k)⟩) ∈ s.log
            ∧ k.tenantId = t)
      ∧ ∀ {s' i x} {ans : (e : Act) → e.Ans},
          s.op? i = some (.requireTenant none x) →
          s.step (.act i ans) = some s' →
          s'.world.db.apiKeys.rows = s.world.db.apiKeys.rows
            ∨ ∃ r now, x = some r ∧ s'.world.db.apiKeys.rows
              = s.world.db.apiKeys.rows.map (used env r now) :=
  ⟨resolved_iff hs, issued_of_returned hs, resolved_of_returned hs,
    fun hop hstep => request_writes hs hop hstep⟩

-- ================================================== a deployment to try out

def sampleKey : String := "Zk3vQ1xT0bN5uW8yR2aLhC7mE4sJ9dPfG6oKiVtXqYw"

/-- No gate configured; the digest is that of the sample key. -/
def sampleEnv : Env where
  jwtExpiryMinutes_pos := dayMinutes_pos
  sha256Hex rawKey :=
    if rawKey = sampleKey then
      "cdba0d3b4beafb13e58766caecf5c8609d05167417cec52c222ea134aa080008"
    else ""
  jwtDecode _ _ _ := .error (.invalidToken "Not enough segments")
  jwtEncode _ _ := .error (.other "InvalidKeyError")
  hashpw _ _ := .error (.valueError "Invalid salt")
  checkpw _ _ := .error (.valueError "Invalid salt")

/-- The choices of an outside where only reads may fail. -/
def answer (id : UUID) (read : Except String Unit := .ok ()) :
    (e : Act) → e.Ans
  | .getTenant .. => read
  | .selectTenantByEmail .. => read
  | .selectTenantByGoogleSub .. => read
  | .getApiKey .. => read
  | .findApiKey .. => read
  | .transactionNow => .ok Py.DateTime.epoch
  | .commit .. => Fate.ok
  | .refreshTenant .. => read
  | .refreshApiKey .. => read
  | .uuid4 => id
  | .utcNow => Py.DateTime.epoch
  | .tokenUrlsafe => sampleKey
  | .gensalt => ""
  | .verifyOauth2Token .. => .error (.valueError "Wrong number of segments")

/-- A tenant is created, and a key of it is drawn and committed; the load
behind the commit is answered by `read`. A request presents the key. -/
def sampleIssue (read : Except String Unit) :
    List (Label (service sampleEnv)) :=
  .spawn (.createTenant "acme") :: List.replicate 4 (.act 0 (answer (.ofNat 0)))
    ++ .spawn (.createApiKey (.ofNat 0))
      :: List.replicate 5 (.act 1 (answer (.ofNat 1)))
    ++ [.act 1 (answer (.ofNat 1) read),
      .spawn (.requireTenant none (some sampleKey))]

/-- The sample key's digest is that of no other key. -/
theorem sample_distinct (log : Log sig) : Distinct sampleEnv log sampleKey := by
  intro j r' _ h
  by_contra hne
  simp [hashKey, sampleEnv, hne] at h

/-- The latest event is a lookup that found a key of the tenant. -/
def foundKeyOf (t : UUID) (s : Sys (service env)) : Bool :=
  match s.log with
  | (_, ⟨.findApiKey _, .ok (some k)⟩) :: _ => decide (k.tenantId = t)
  | _ => false

theorem looksUp_of_found {ans : (e : Act) → e.Ans}
    (hop : s.op? i = some (.requireTenant none (some r)))
    (hstep : s.step (.act i ans) = some s') (h : foundKeyOf t s' = true) :
    ∃ found, LooksUp s s' i r found ∧ ResolvedTo found t := by
  have hlog : ∃ ev, s'.log = (i, ev) :: s.log := by
    cases Sys.stepped hstep with
    | act ht hadm => exact ⟨_, rfl⟩
  obtain ⟨ev, hlog⟩ := hlog
  unfold foundKeyOf at h
  split at h
  next j hashed k before heq =>
    rw [hlog] at heq
    obtain ⟨hhead, -⟩ := List.cons.inj heq
    cases hhead
    exact ⟨some k, ⟨hop, ⟨ans, hstep⟩, hashed, hlog⟩, k, rfl, by simpa using h⟩
  next => cases h

/-- No `create_api_key` call has returned. -/
def noneCreated (s : Sys (service env)) : Bool :=
  s.threads.all fun th =>
    match th.prog with
    | some (.ret (.created _)) => false
    | _ => true

theorem not_ended_of_noneCreated (h : noneCreated s = true)
    {response : ApiKeyCreateResponse} :
    ¬ s.Ended j (.createApiKey t) (.ok (.created response)) := by
  intro hend
  have hmem := List.mem_of_getElem? hend
  have hno := List.all_eq_true.mp h _ hmem
  cases hno

/-- The labels and then one more step lead from empty tables to two states
that pass a test. -/
abbrev Leads (ls : List (Label (service sampleEnv)))
    (l : Label (service sampleEnv))
    (p : Sys (service sampleEnv) → Sys (service sampleEnv) → Bool) : Prop :=
  (((Sys.start (service sampleEnv) World.empty).exec (fun _ _ => True) ls).bind
    fun s => (s.step l).map (p s)) = some true

/-- Thread 2 is the request, and its lookup finds a key of the tenant. -/
def sampleFound (s s' : Sys (service sampleEnv)) : Bool :=
  decide (s.op? 2 = some (.requireTenant none (some sampleKey)))
    && foundKeyOf (.ofNat 0) s'

theorem keys_accepted_sample : ∃ s s' : Sys (service sampleEnv),
    ∃ found, LooksUp s s' 2 sampleKey found ∧ ResolvedTo found (.ofNat 0)
      ∧ ∃ id, Issued s.log s.ops (.ofNat 0) sampleKey id
        ∧ ¬ Revoked s.log s.ops id := by
  have hrun : Leads (sampleIssue (.ok ())) (.act 2 (answer (.ofNat 2)))
      sampleFound := by decide +kernel
  obtain ⟨s, s', hs, hstep, h⟩ := Run.exists_step_of_exec hrun
  simp only [sampleFound, Bool.and_eq_true, decide_eq_true_eq] at h
  obtain ⟨found, hlook, hres⟩ := looksUp_of_found h.1 hstep h.2
  exact ⟨s, s', found, hlook, hres,
    ((keys_accepted_while_valid hs).1 hlook (sample_distinct _)).mp hres⟩

/-- A key counts from its commit on, returned or not: the call that drew
this one failed behind its commit, and the key is accepted. -/
theorem accepted_unreturned : ∃ s s' : Sys (service sampleEnv),
    ∃ found, Reachable sampleEnv s ∧ LooksUp s s' 2 sampleKey found
      ∧ ResolvedTo found (.ofNat 0) ∧ Distinct sampleEnv s.log sampleKey
      ∧ ∀ j t response,
        ¬ s.Ended j (.createApiKey t) (.ok (.created response)) := by
  have hrun : Leads (sampleIssue (.error "connection lost"))
      (.act 2 (answer (.ofNat 2)))
      (fun s s' => sampleFound s s' && noneCreated s) := by decide +kernel
  obtain ⟨s, s', hs, hstep, h⟩ := Run.exists_step_of_exec hrun
  simp only [sampleFound, Bool.and_eq_true, decide_eq_true_eq] at h
  obtain ⟨found, hlook, hres⟩ := looksUp_of_found h.1.1 hstep h.1.2
  exact ⟨s, s', found, hs, hlook, hres, sample_distinct _,
    fun _ _ _ => not_ended_of_noneCreated h.2⟩

end ResumeScreening.Accounts
