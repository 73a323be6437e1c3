/-
Receipts: what a handle names on the main queue.

Every action of the service keeps the handles of the queue distinct
(`Numbered.perform`), whatever the bodies of its messages, so a handle
names one message, and the messages a receive call hands out are on the
main queue under handles of their own (`handedOut_waiting`).
-/
import ResumeScreening.Pipeline.Delivery
import Mathlib.Data.List.Nodup

namespace ResumeScreening.Worker

open Effect Pipeline

variable {env : Env} {w w' : World}

/-- The main queue holds a message under this handle. -/
def Waiting (handle : Nat) (w : World) : Prop :=
  ∃ q ∈ w.queue, q.message.receiptHandle = handle ∧ q.deadLetter = false

/-- The handles on the queue. -/
def handles (w : World) : List Nat := w.queue.map (·.message.receiptHandle)

/-- Handles are given out once. -/
structure Numbered (w : World) : Prop where
  distinct : (handles w).Nodup
  issued : ∀ h ∈ handles w, h < w.nextReceipt

-- =============================================================== the invariant

/-- Handles that only leave the queue stay distinct. -/
theorem Numbered.sublist (h : Numbered w)
    (hq : (handles w').Sublist (handles w))
    (hn : w'.nextReceipt = w.nextReceipt) : Numbered w' where
  distinct := h.distinct.sublist hq
  issued x hx := hn ▸ h.issued x (hq.subset hx)

theorem Numbered.of_eq (h : Numbered w) (hq : w'.queue = w.queue)
    (hn : w'.nextReceipt = w.nextReceipt) : Numbered w' := by
  refine h.sublist ?_ hn
  unfold handles
  rw [hq]

/-- Marking messages as received, visible or dead-lettered keeps their
handles. -/
theorem handles_map {f : Queued → Queued}
    (hf : ∀ q, (f q).message = q.message) :
    handles { w with queue := w.queue.map f } = handles w := by
  unfold handles
  rw [List.map_map]
  exact List.map_congr_left fun q _ => by simp [hf q]

theorem Numbered.perform (h : Numbered w) (e : Act) (a : e.Ans) :
    Numbered (perform env e a w).2 := by
  by_cases hquiet : quiet e = true
  · have hsame : Same w (ResumeScreening.perform env e a w).2 :=
      quiet_same hquiet a w
    exact h.of_eq hsame.queue hsame.nextReceipt
  · cases e with
    | uuid4 => exact h.of_eq rfl rfl
    | commit pending =>
        obtain ⟨hq, hn⟩ := commit_queue w pending a
        exact h.of_eq hq hn
    | upsert ns v => exact write_ends (P := Numbered) a (h.of_eq rfl rfl) h
    | putObject bucket key body =>
        exact write_ends (P := Numbered) a (h.of_eq rfl rfl) h
    | updateItem c s => exact write_ends (P := Numbered) a (h.of_eq rfl rfl) h
    | sendMessage body =>
        refine write_ends (P := Numbered) a ?_ h
        have hnew : handles { w with
            queue := w.queue ++ [{ message := ⟨w.nextReceipt, body⟩ }]
            nextReceipt := w.nextReceipt + 1 }
            = handles w ++ [w.nextReceipt] := by
          simp [handles]
        constructor
        · rw [hnew, List.nodup_append]
          refine ⟨h.distinct, by simp, fun x hx y hy => ?_⟩
          rw [List.mem_singleton.mp hy]
          exact Nat.ne_of_lt (h.issued x hx)
        · intro x hx
          rw [hnew] at hx
          rcases List.mem_append.mp hx with hx | hx
          · exact Nat.lt_succ_of_lt (h.issued x hx)
          · rw [List.mem_singleton.mp hx]
            exact Nat.lt_succ_self _
    | receiveMessage =>
        cases (a : Except String (List Nat)) with
        | error msg => exact h
        | ok hs =>
            refine h.sublist ?_ rfl
            have hsame : handles (w.receive hs) = handles w :=
              handles_map fun q => by split <;> rfl
            rw [show (ResumeScreening.perform env .receiveMessage
              (.ok hs : Except String (List Nat)) w).2 = w.receive hs from rfl,
              hsame]
    | deleteMessage handle =>
        exact write_ends (P := Numbered) a
          (h.sublist (List.filter_sublist.map _) rfl) h
    | _ => exact absurd rfl hquiet

theorem Numbered.move {k : Surroundings} (h : Numbered w)
    (hk : k.move w = some w') : Numbered w' := by
  obtain ⟨f, hf, rfl⟩ := move_queue hk
  refine h.sublist ?_ rfl
  rw [handles_map hf]

theorem numbered_keeps (env : Env) (ok : Guard (service env)) :
    (protocol env).Keeps ok fun w _ _ => Numbered w where
  spawn _ h := h
  act ans _ h _ _ _ _ _ := h.perform _ (ans _)
  crash _ h _ _ _ := h
  restart h _ _ _ := h
  env _ h hk := h.move hk

/-- In every reachable world. -/
theorem reachable_numbered {ok : Guard (service env)} {s : Sys (service env)}
    (h : GuardedRun env ok s) : Numbered s.world := by
  obtain ⟨ros, -, hn⟩ := Run.invariant (numbered_keeps env ok) (conforms env)
    (w := World.empty) ⟨List.nodup_nil, fun _ hx => nomatch hx⟩ h
  exact hn

-- ================================================================== receiving

/-- The messages a receive call hands out. -/
def handedOut (w : World) (hs : List Nat) : List Message :=
  (w.queue.filter fun q => hs.contains q.message.receiptHandle).map (·.message)

/-- Each message handed out is on the main queue, under a handle of its
own. -/
theorem handedOut_waiting (hw : Numbered w) {hs : List Nat}
    (hadm : admits w .receiveMessage (.ok hs : Except String (List Nat))
      = true) :
    ((handedOut w hs).map (·.receiptHandle)).Nodup
      ∧ ∀ m ∈ handedOut w hs, Waiting m.receiptHandle (w.receive hs) := by
  constructor
  · unfold handedOut
    rw [List.map_map]
    exact hw.distinct.sublist (List.filter_sublist.map _)
  · intro m hm
    obtain ⟨q, hq, rfl⟩ := List.mem_map.mp hm
    obtain ⟨hq, hhs⟩ := List.mem_filter.mp hq
    simp only [admits, Bool.and_eq_true, List.all_eq_true, List.any_eq_true,
      beq_iff_eq] at hadm
    obtain ⟨q', hq', heq, hrec⟩ := hadm.2 _ (by simpa using hhs)
    -- the handle names one message
    have hsame : q' = q :=
      List.inj_on_of_nodup_map hw.distinct hq' hq heq
    subst hsame
    have hmain : q'.deadLetter = false := by
      unfold Queued.receivable at hrec
      simp only [Bool.and_eq_true, Bool.not_eq_true'] at hrec
      exact hrec.2
    refine ⟨_, List.mem_map.mpr ⟨q', hq', rfl⟩, ?_, ?_⟩
    · rw [if_pos hhs]
    · rw [if_pos hhs]
      exact hmain

/-- The world after a delete that took effect. -/
abbrev deleted (handle : Nat) (w : World) : World :=
  { w with queue := w.queue.filter fun q =>
      !(q.message.receiptHandle == handle && !q.deadLetter) }

/-- Its message is off the main queue, and no other. -/
theorem waiting_deleted (handle k : Nat) (w : World) :
    Waiting k (deleted handle w) ↔ k ≠ handle ∧ Waiting k w := by
  constructor
  · intro hk
    obtain ⟨q, hq, rfl, hmain⟩ := hk
    obtain ⟨hq, hkept⟩ := List.mem_filter.mp hq
    rw [hmain] at hkept
    exact ⟨by simpa using hkept, q, hq, rfl, hmain⟩
  · rintro ⟨hne, q, hq, rfl, hmain⟩
    exact ⟨q, List.mem_filter.mpr ⟨hq, by simp [hne]⟩, rfl, hmain⟩

theorem not_waiting_deleted (handle : Nat) (w : World) :
    ¬ Waiting handle (deleted handle w) :=
  fun hk => ((waiting_deleted handle handle w).mp hk).1 rfl

theorem waiting_same (hq : w'.queue = w.queue) (k : Nat) :
    Waiting k w' ↔ Waiting k w := by
  unfold Waiting
  rw [hq]

end ResumeScreening.Worker
