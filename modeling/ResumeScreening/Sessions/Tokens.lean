/-
A session from its token to its end.

A token answered at sign-in is a credential of its account for the
configured number of minutes, to whole seconds, and of nothing else: the
gate answers a request that bears it with the account's tenant while the
clock it reads lies in the span, and with 401 outside. What PyJWT does
with a token it signed is taken from its documentation (`PyJwt`).
-/
import ResumeScreening.Lib.Outcome
import ResumeScreening.Sessions.Accounts

namespace ResumeScreening.Accounts.Sessions

open Effect
open Py (DateTime)

variable {env : Env} {s : Sys (service env)} {i : Nat} {op : Op}
  {w w' : World} {tr : List (Event sig)}

-- ==================================================================== PyJWT

/-- A claim's instant, in whole seconds from the epoch. -/
def seconds (t : DateTime) : Int := t.micros / 1000000

/-- The span in which signed claims count: not before `iat`, and before
`exp`. -/
def InForce (claims : JwtClaims) (now : DateTime) : Prop :=
  seconds claims.iat * 1000000 ≤ now.micros
    ∧ now.micros < seconds claims.exp * 1000000

instance (claims : JwtClaims) (now : DateTime) :
    Decidable (InForce claims now) :=
  inferInstanceAs (Decidable (_ ∧ _))

/-- What `jwt.decode` makes of a token `jwt.encode` signed with the same
secret, and that no token is empty. -/
structure PyJwt (env : Env) : Prop where
  token : ∀ {claims token}, env.jwtEncode claims env.jwtSecret = .ok token →
    token ≠ ""
  accepts : ∀ {claims token now},
    env.jwtEncode claims env.jwtSecret = .ok token → InForce claims now →
    env.jwtDecode token env.jwtSecret now = .ok ⟨some (.text claims.sub)⟩
  refuses : ∀ {claims token now},
    env.jwtEncode claims env.jwtSecret = .ok token → ¬ InForce claims now →
    ∃ msg, env.jwtDecode token env.jwtSecret now = .error (.invalidToken msg)

-- =================================================================== headers

theorem partition_space {scheme : String} (h : ' ' ∉ scheme.toList)
    (token : String) : partition (scheme ++ " " ++ token) = (scheme, token) := by
  have hall : ∀ c ∈ scheme.toList, (c != ' ') = true := by
    intro c hc
    simp only [bne_iff_ne]
    rintro rfl
    exact h hc
  have hlist : (scheme ++ " " ++ token).toList
      = scheme.toList ++ ' ' :: token.toList := by simp
  unfold partition
  simp only [hlist]
  rw [List.takeWhile_append_of_pos hall, List.dropWhile_append_of_pos hall]
  simp

def expired : Exn := .http 401 "Invalid or expired session token."

/-- A request that bears a signed token, from its header on. -/
theorem bearer_ran {claims : JwtClaims} {t : UUID} {scheme token : String}
    {xApiKey : Option String} {r : Except Exn UUID} (hjwt : PyJwt env)
    (hsecret : env.jwtSecret ≠ "") (hsub : claims.sub = t.str)
    (hsigned : env.jwtEncode claims env.jwtSecret = .ok token)
    (hscheme : scheme.toLower = "bearer") (hspace : ' ' ∉ scheme.toList)
    (h : Ran machine (requireTenant env (some (scheme ++ " " ++ token)) xApiKey)
      w tr (some r) w') :
    w' = w ∧ ∃ now, tr = [⟨.utcNow, .ok now⟩]
      ∧ r = if InForce claims now then .ok t else .error expired := by
  have htoken := hjwt.token hsigned
  unfold requireTenant at h
  simp only [partition_space hspace, hscheme, htoken, ne_eq, not_true_eq_false,
    or_self, if_false] at h
  unfold decodeAccessToken at h
  simp only [hsecret, if_false, Prog.bind_eq, Prog.bind_assoc] at h
  rcases h.bind_done with ⟨now, tr₁, w₁, tr₂, rfl, hclock, hrest⟩ | ⟨x, -, hclock⟩
  · obtain ⟨a, -, rfl, -, rfl⟩ := hclock.perform_ok
    by_cases hin : InForce claims now
    · simp only [hjwt.accepts hsigned hin, subject, hsub, UUID.parse_str] at hrest
      obtain ⟨rfl, hr, rfl⟩ := Ran.ret_iff.mp hrest
      exact ⟨rfl, now, rfl, by rw [if_pos hin, Option.some.inj hr]⟩
    · obtain ⟨msg, hmsg⟩ := hjwt.refuses hsigned hin
      simp only [hmsg] at hrest
      obtain ⟨rfl, hr, rfl⟩ := Ran.raise_iff.mp hrest
      exact ⟨rfl, now, rfl, by rw [if_neg hin, Option.some.inj hr]; rfl⟩
  · -- the clock does not fail
    rcases hclock.perform with ⟨-, hr, -⟩ | ⟨a, -, -, hr, -⟩
    · cases hr
    · cases hr

theorem expiry_micros {now exp : DateTime} (h : expiry env now = .ok exp) :
    exp.micros = now.micros + env.jwtExpiryMinutes * 60000000 := by
  unfold expiry timedeltaMinutes at h
  split at h
  next => cases h
  next delta hdelta =>
    split at h
    next => cases h
    next exp' hexp =>
      cases h
      split at hdelta
      · cases hdelta
        unfold DateTime.sub DateTime.ofMicros at hexp
        split at hexp
        · cases hexp
          show now.micros - -(env.jwtExpiryMinutes * 60000000) = _
          omega
        · cases hexp
      · cases hdelta

-- ================================================================== sessions

theorem signing_pyJwt : PyJwt signing := by
  have honly : ∀ {claims token}, signing.jwtEncode claims signing.jwtSecret
      = .ok token → claims = sampleClaims ∧ token = sampleToken := by
    intro claims token h
    simp only [signing] at h
    split at h
    next heq =>
      cases h
      exact ⟨heq, rfl⟩
    next => cases h
  have hspan : ∀ now : DateTime, InForce sampleClaims now
      ↔ 0 ≤ now.micros ∧ now.micros < 86400000000 := fun now => Iff.rfl
  refine ⟨fun h => ?_, fun {claims token now} h hin => ?_,
    fun {claims token now} h hin => ?_⟩
  · obtain ⟨-, rfl⟩ := honly h
    decide
  · obtain ⟨rfl, rfl⟩ := honly h
    exact if_pos ⟨rfl, (hspan now).mp hin⟩
  · obtain ⟨rfl, rfl⟩ := honly h
    exact ⟨_, if_neg fun hboth => hin ((hspan now).mpr hboth.2)⟩

end ResumeScreening.Accounts.Sessions
