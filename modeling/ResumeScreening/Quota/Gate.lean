/-
The quota gate in front of an upload, as a protocol: what
`enforce_quota` has read so far, and which count lets the request
through.

`admitted` is the stretch the whole question is about: the request has
passed its COUNT and has yet to commit its row, in another transaction.
Every action on that stretch is one of `leads`, and no other action of
an upload is, so a state of the system shows which requests are on it.
-/
import ResumeScreening.Lib.Product
import ResumeScreening.Model.Service

namespace ResumeScreening.Quota

open Effect Prog

variable {env : Env}

-- ================================================================= protocol

inductive Gate
  | waiting
  | gated (sub : Option Subscription)
  | planned (sub : Subscription) (plan : Plan)
  | admitted
  | closed

/-- Still in front of the COUNT. -/
def Gate.early : Gate → Bool
  | .waiting | .gated _ | .planned .. => true
  | _ => false

/-- The actions of the gate itself. -/
def gates : Act → Bool
  | .selectSubscription _ | .getPlan _ | .utcNow | .countCandidates .. => true
  | _ => false

/-- The actions between the gate and the commit of the row. -/
def drafts : Act → Bool
  | .uuid4 | .transactionNow | .flush _ => true
  | _ => false

def leads : Act → Bool
  | .commit _ => true
  | e => drafts e

/-- The start of the period a subscription's count is taken from, where
its period end is known. -/
def StartsAt (sub : Subscription) (plan : Plan) (start : Py.DateTime) : Prop :=
  ∀ t, sub.currentPeriodEnd = some t →
    ∃ window, Py.timedeltaDays (30 * plan.durationMonths) = some window
      ∧ t.sub window = some start

inductive GateMove (env : Env) : Op → Gate → Event sig → Gate → Prop
  | other {op g ev} : (∀ t file, op ≠ .uploadResume t file) →
      GateMove env op g ev g
  | subscribed {t file sub} :
      GateMove env (.uploadResume t file) .waiting
        ⟨.selectSubscription t, .ok sub⟩ (.gated sub)
  | plan {t file sub plan} : sub.status = "active" →
      GateMove env (.uploadResume t file) (.gated (some sub))
        ⟨.getPlan sub.planId, .ok (some plan)⟩ (.planned sub plan)
  | free {t file sub} {used : Nat} :
      (∀ s, sub = some s → s.status ≠ "active") →
      (used : Int) < env.freeTierResumeLimit →
      GateMove env (.uploadResume t file) (.gated sub)
        ⟨.countCandidates t none, .ok used⟩ .admitted
  | paid {t file sub plan quota start} {used : Nat} : sub.status = "active" →
      plan.monthlyResumeQuota = some quota → StartsAt sub plan start →
      (used : Int) < quota →
      GateMove env (.uploadResume t file) (.planned sub plan)
        ⟨.countCandidates t (some start), .ok used⟩ .admitted
  | stay {t file g e r} : g.early = true → gates e = true →
      GateMove env (.uploadResume t file) g ⟨e, r⟩ g
  | unlimited {t file sub plan ev} : sub.status = "active" →
      plan.monthlyResumeQuota = none →
      GateMove env (.uploadResume t file) (.planned sub plan) ev
        (.planned sub plan)
  | draft {t file e v} : file.contentType = "application/pdf" →
      drafts e = true →
      GateMove env (.uploadResume t file) .admitted ⟨e, .ok v⟩ .admitted
  | close {t file e r} : file.contentType = "application/pdf" →
      leads e = true →
      GateMove env (.uploadResume t file) .admitted ⟨e, r⟩ .closed
  | past {t file e r} : leads e = false →
      GateMove env (.uploadResume t file) .closed ⟨e, r⟩ .closed

/-- A request that was let through and has not drawn an identifier yet
ends only over its content type. -/
def GateFinal {α : Type} (op : Op) (g : Gate) (_ : Except Exn α) : Prop :=
  ∀ t file, op = .uploadResume t file → g = .admitted →
    file.contentType ≠ "application/pdf"

def gate (env : Env) : Protocol (service env) Gate where
  start _ := .waiting
  next := GateMove env
  final := GateFinal

-- ============================================================== conformance

/-- A program of an upload that follows the gate from a phase. -/
abbrev Gated {α : Type} (env : Env) (t : UUID) (file : UploadFile)
    (Q : Gate → Except Exn α → Prop) (g : Gate) (p : Py α) : Prop :=
  p.Follows (machine env) (GateMove env (.uploadResume t file)) Q g

/-- What the gate ends in: the request is let through, or is not past its
COUNT. -/
def Passed (t : UUID) (g : Gate) (r : Except Exn UUID) : Prop :=
  match r with
  | .ok t' => t' = t ∧ (g = .admitted
      ∨ ∃ sub plan, g = .planned sub plan ∧ sub.status = "active"
        ∧ plan.monthlyResumeQuota = none)
  | .error _ => g.early = true

section

variable {t : UUID} {file : UploadFile}

theorem gated_freeTierGate {sub : Option Subscription}
    (hsub : ∀ s, sub = some s → s.status ≠ "active") :
    Gated env t file (Passed t) (.gated sub) (freeTierGate env t) := by
  unfold freeTierGate
  refine follows_call (fun (used : Nat) _ => ?_)
    fun x _ => ⟨_, .stay rfl rfl, rfl⟩
  by_cases hfull : env.freeTierResumeLimit ≤ (used : Int)
  · refine ⟨_, .stay rfl rfl, ?_⟩
    simp only [hfull, if_true]
    exact rfl
  · refine ⟨.admitted, .free hsub (by omega), ?_⟩
    simp only [hfull, if_false]
    exact ⟨rfl, .inl rfl⟩

/-- The window's start, read off the period end or the clock. -/
theorem gated_currentPeriodStart {sub : Subscription} {plan : Plan} :
    Gated env t file (fun g r => g = .planned sub plan
        ∧ ∀ start, r = .ok start → StartsAt sub plan start)
      (.planned sub plan) (currentPeriodStart sub plan) := by
  unfold currentPeriodStart
  cases hwin : Py.timedeltaDays (30 * plan.durationMonths) with
  | none => exact ⟨rfl, fun start h => nomatch h⟩
  | some window =>
      cases hend : sub.currentPeriodEnd with
      | some e =>
          simp only [overflow, Prog.ofExcept, bind_eq, ret_bind]
          cases hsub : e.sub window with
          | none => exact ⟨rfl, fun start h => nomatch h⟩
          | some start =>
              refine ⟨rfl, fun start' h => ?_⟩
              cases h
              intro e' he'
              rw [hend, Option.some.injEq] at he'
              rw [← he']
              exact ⟨window, hwin, hsub⟩
      | none =>
          simp only [overflow, Prog.ofExcept, bind_eq, ret_bind]
          have hany : ∀ start, StartsAt sub plan start := by
            intro start e he
            rw [hend] at he
            cases he
          refine follows_call (fun now _ => ⟨_, .stay rfl rfl, ?_⟩)
            fun x _ => ⟨_, .stay rfl rfl, rfl, fun start h => nomatch h⟩
          cases hsub : now.sub window with
          | none => exact ⟨rfl, fun start h => nomatch h⟩
          | some start => exact ⟨rfl, fun start' _ => hany start'⟩

theorem gated_paidGate {sub : Subscription} (hsub : sub.status = "active") :
    Gated env t file (Passed t) (.gated (some sub)) (paidGate t sub) := by
  unfold paidGate
  refine follows_call (fun o _ => ?_) fun x _ => ⟨_, .stay rfl rfl, rfl⟩
  cases o with
  | none => exact ⟨_, .stay rfl rfl, rfl⟩
  | some plan =>
      refine ⟨.planned sub plan, .plan hsub, ?_⟩
      cases hquota : plan.monthlyResumeQuota with
      | none => simp only [hquota]; exact ⟨rfl, .inr ⟨sub, plan, rfl, hsub, hquota⟩⟩
      | some quota =>
          simp only [hquota, bind_eq]
          refine follows_bind gated_currentPeriodStart ?_ ?_
          · intro g start h
            obtain ⟨rfl, hstart⟩ := h
            refine follows_call (fun (used : Nat) _ => ?_)
              fun x _ => ⟨_, .stay rfl rfl, rfl⟩
            by_cases hfull : quota ≤ (used : Int)
            · refine ⟨_, .stay rfl rfl, ?_⟩
              simp only [hfull, if_true]
              exact rfl
            · refine ⟨.admitted, .paid hsub hquota (hstart start rfl)
                (by omega), ?_⟩
              simp only [hfull, if_false]
              exact ⟨rfl, .inl rfl⟩
          · intro g x h
            rw [h.1]
            exact rfl

theorem gated_enforceQuota :
    Gated env t file (Passed t) .waiting (enforceQuota env t) := by
  unfold enforceQuota
  refine follows_call (fun sub _ => ⟨.gated sub, .subscribed, ?_⟩)
    fun x _ => ⟨_, .stay rfl rfl, rfl⟩
  cases sub with
  | none => exact gated_freeTierGate fun s hs => nomatch hs
  | some sub =>
      by_cases hactive : sub.status = "active"
      · simp only [hactive, if_true]
        exact gated_paidGate hactive
      · simp only [hactive, if_false]
        refine gated_freeTierGate fun s hs => ?_
        cases hs
        exact hactive

/-- Past the gate: the draft, the commit, and what follows it. -/
theorem gated_enqueueResumeUpload
    (hpdf : file.contentType = "application/pdf") :
    Gated env t file (fun g _ => g = .closed) .admitted
      (enqueueResumeUpload env t file.bytes) := by
  unfold enqueueResumeUpload uploadResumeAndEnqueue CandidateRepository.add
  simp only [bind_eq, bind_assoc]
  refine follows_call (fun id _ => ⟨_, .draft hpdf rfl, ?_⟩)
    fun x _ => ⟨_, .close hpdf rfl, rfl⟩
  refine follows_call (fun now _ => ⟨_, .draft hpdf rfl, ?_⟩)
    fun x _ => ⟨_, .close hpdf rfl, rfl⟩
  refine follows_call (fun _ _ => ⟨_, .draft hpdf rfl, ?_⟩)
    fun x _ => ⟨_, .close hpdf rfl, rfl⟩
  refine follows_call (fun _ _ => ⟨_, .close hpdf rfl, ?_⟩)
    fun x _ => ⟨_, .close hpdf rfl, rfl⟩
  refine follows_call (fun _ _ => ⟨_, .past rfl, ?_⟩)
    fun x _ => ⟨_, .past rfl, rfl⟩
  refine follows_call (fun _ _ => ⟨_, .past rfl, ?_⟩)
    fun x _ => ⟨_, .past rfl, rfl⟩
  exact follows_call (fun _ _ => ⟨_, .past rfl, rfl⟩)
    fun x _ => ⟨_, .past rfl, rfl⟩

theorem gated_uploadResume :
    Gated env t file (GateFinal (.uploadResume t file)) .waiting
      (uploadResume env t file) := by
  have hend : ∀ {α : Type} {g : Gate} {r : Except Exn α}, g ≠ .admitted →
      GateFinal (.uploadResume t file) g r :=
    fun hg _ _ _ h => absurd h hg
  unfold uploadResume
  refine follows_bind gated_enforceQuota ?_ ?_
  · intro g t' h
    obtain ⟨rfl, hcase⟩ := h
    by_cases hpdf : file.contentType = "application/pdf"
    · simp only [hpdf, ne_eq, not_true_eq_false, if_false]
      rcases hcase with rfl | ⟨sub, plan, rfl, hsub, hquota⟩
      · refine (gated_enqueueResumeUpload hpdf).mono fun g r hg => ?_
        rw [hg]
        exact hend (fun h => nomatch h)
      · exact follows_free (fun ev => .unlimited hsub hquota)
          fun r => hend (fun h => nomatch h)
    · simp only [hpdf, ne_eq, not_false_eq_true, if_true]
      intro t₀ file₀ hop _
      cases hop
      exact hpdf
  · intro g x h
    refine hend fun hg => ?_
    rw [hg] at h
    cases h

end

/-- Every operation follows the gate. -/
theorem gates_conforms (env : Env) : (gate env).Conforms := by
  intro op
  have hother : (∀ t file, op ≠ .uploadResume t file) →
      (serve env op).Follows (machine env) (GateMove env op) (GateFinal op)
        .waiting :=
    fun hop => follows_free (fun ev => .other hop)
      fun r t file h => absurd h (hop t file)
  cases op with
  | uploadResume t file =>
      refine follows_bind gated_uploadResume (fun g c h => h) fun g x h => h
  | _ => exact hother fun t file h => nomatch h

end ResumeScreening.Quota
