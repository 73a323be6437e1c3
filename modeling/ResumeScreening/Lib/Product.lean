/-
Two protocols of one service, followed at once.

A concern that needs its own phases — how far a thread is through a
gate, say — need not repeat what another protocol already tracks. The
product of two protocols that a service conforms to is one it conforms
to, and an invariant of the first stays an invariant over the product's
roster (`Keeps.left`); what is new is then kept over it
(`Protocol.KeepsWith`).
-/
import ResumeScreening.Lib.Interleave

namespace Effect

variable {S : Sig} {M : Machine S} {α : Type} {Φ Ψ : Type}

-- ================================================================= programs

namespace Prog

variable {next : Φ → Event S → Φ → Prop} {next' : Ψ → Event S → Ψ → Prop}
  {Q : Φ → Except S.Exn α → Prop} {Q' : Ψ → Except S.Exn α → Prop}

/-- A program that follows two protocols follows them together. -/
theorem Follows.and {p : Prog S α} {ph : Φ} {ps : Ψ}
    (h : p.Follows M next Q ph) (h' : p.Follows M next' Q' ps) :
    p.Follows M (fun a ev b => next a.1 ev b.1 ∧ next' a.2 ev b.2)
      (fun a r => Q a.1 r ∧ Q' a.2 r) (ph, ps) := by
  induction p generalizing ph ps with
  | ret a => exact ⟨h, h'⟩
  | raise x => exact ⟨h, h'⟩
  | act e k ih =>
      intro r hr
      obtain ⟨a, ha, hrest⟩ := h r hr
      obtain ⟨b, hb, hrest'⟩ := h' r hr
      exact ⟨(a, b), ⟨ha, hb⟩, ih r hrest hrest'⟩

theorem Follows.fst {p : Prog S α} {a : Φ × Ψ}
    (h : p.Follows M (fun a ev b => next a.1 ev b.1 ∧ next' a.2 ev b.2)
      (fun a r => Q a.1 r ∧ Q' a.2 r) a) : p.Follows M next Q a.1 := by
  induction p generalizing a with
  | ret x => exact h.1
  | raise x => exact h.1
  | act e k ih =>
      intro r hr
      obtain ⟨b, hb, hrest⟩ := h r hr
      exact ⟨b.1, hb.1, ih r hrest⟩

/-- A phase that every event leads back to asks nothing of a program. -/
theorem follows_free {p : Prog S α} {ph : Φ}
    (hfree : ∀ ev, next ph ev ph) (hend : ∀ r, Q ph r) :
    p.Follows M next Q ph := by
  induction p with
  | ret a => exact hend _
  | raise x => exact hend _
  | act e k ih => exact fun r _ => ⟨ph, hfree _, ih r⟩

end Prog

-- ================================================================ protocols

variable {V : Service M}

/-- Both protocols at once. -/
def Protocol.prod (P : Protocol V Φ) (P' : Protocol V Ψ) :
    Protocol V (Φ × Ψ) where
  start op := (P.start op, P'.start op)
  next op a ev b := P.next op a.1 ev b.1 ∧ P'.next op a.2 ev b.2
  final op a r := P.final op a.1 r ∧ P'.final op a.2 r

variable {P : Protocol V Φ} {P' : Protocol V Ψ}

theorem Protocol.Conforms.prod (h : P.Conforms) (h' : P'.Conforms) :
    (P.prod P').Conforms :=
  fun op => (h op).and (h' op)

/-- The first protocol's phases. -/
def Roster.left (ros : Roster V (Φ × Ψ)) : Roster V Φ :=
  ros.map fun x => (x.1, x.2.map Prod.fst)

namespace Roster

variable {ros : Roster V (Φ × Ψ)} {i : Nat} {op : V.Op}

theorem left_get {x : Option (Φ × Ψ)} (h : ros[i]? = some (op, x)) :
    ros.left[i]? = some (op, x.map Prod.fst) := by
  rw [left, List.getElem?_map, h]
  rfl

theorem left_set (x : V.Op × Option (Φ × Ψ)) :
    Roster.left (ros.set i x) = ros.left.set i (x.1, x.2.map Prod.fst) := by
  rw [left, left, List.map_set]

theorem left_append (x : V.Op × Option (Φ × Ψ)) :
    Roster.left (ros ++ [x]) = ros.left ++ [(x.1, x.2.map Prod.fst)] := by
  rw [left, left, List.map_append]
  rfl

end Roster

theorem Protocol.Tracks.left {s : Sys V} {ros : Roster V (Φ × Ψ)}
    (h : (P.prod P').Tracks s ros) : P.Tracks s ros.left := by
  refine List.forall₂_map_right_iff.mpr (h.imp fun t slot hin => ?_)
  obtain ⟨op, x⟩ := slot
  obtain ⟨hop, hph⟩ := hin
  refine ⟨hop, ?_⟩
  cases hp : t.prog with
  | none =>
      cases x with
      | none => trivial
      | some a => simp [hp] at hph
  | some p =>
      cases x with
      | none => simp [hp] at hph
      | some a =>
          simp only [hp] at hph
          exact hph.fst

/-- An invariant of the first protocol is one of the product. -/
theorem Protocol.Keeps.left {ok : Guard V}
    {I : M.World → Log S → Roster V Φ → Prop} (h : P.Keeps ok I) :
    (P.prod P').Keeps ok fun w log ros => I w log ros.left where
  spawn op hI := by
    rw [Roster.left_append]
    exact h.spawn op hI
  act ans htr hI hi ht hadm hok hm := by
    rw [Roster.left_set]
    exact h.act ans htr.left hI (Roster.left_get hi) ht hadm hok hm.1
  crash htr hI hi ht hok := by
    rw [Roster.left_set]
    exact h.crash htr.left hI (Roster.left_get hi) ht hok
  restart hI hi hloop hfin := by
    rw [Roster.left_set]
    exact h.restart hI (Roster.left_get hi) hloop hfin.1
  env k hI hk := h.env k hI hk

end Effect
