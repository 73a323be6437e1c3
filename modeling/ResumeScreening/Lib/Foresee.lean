/-
Judging statements before they run.

`Facts` is what may be known of the rows without looking at them: tables
with no rows, columns that are NULL throughout. From such facts and the
catalog `foreseen` computes that statements go through, and it is right:
they do so on every database of that catalog of which the facts are true
(`run_foreseen`).

`rows_kept` says without running them what statements leave of a table
that none of them drops or empties: its rows, in all but the columns they
name.
-/
import ResumeScreening.Lib.Alter

namespace Ddl

variable {T V : Type} {σ : Catalog T V} {rows : Rows V} {op : Op T V}
  {ops ops' : List (Op T V)} {now : V} {n : String}

-- ==================================================================== the facts

/-- Tables without rows, and columns that are NULL in every row. -/
structure Facts where
  empty : List String := []
  unset : List (String × String) := []

namespace Facts

structure True (F : Facts) (rows : Rows V) : Prop where
  empty : ∀ n ∈ F.empty, rows n = []
  unset : ∀ p ∈ F.unset, ∀ r ∈ rows p.1, r p.2 = none

/-- What is known after a statement. -/
def after (F : Facts) : Op T V → Facts
  | .createTable n _ | .dropTable n => { F with empty := n :: F.empty }
  | .addColumn n c =>
      match c.serverDefault with
      | none => { F with unset := (n, c.name) :: F.unset }
      | some _ => { F with unset := F.unset.filter fun p => p != (n, c.name) }
  | .dropColumn n c => { F with unset := (n, c) :: F.unset }
  | .truncate ns => { F with empty := ns ++ F.empty }
  | _ => F

def afterAll (F : Facts) (ops : List (Op T V)) : Facts := ops.foldl after F

theorem true_nothing (rows : Rows V) : True {} rows :=
  ⟨fun _ h => (by cases h), fun _ h => (by cases h)⟩

variable {F : Facts}

theorem True.clear {ns : List String} (h : F.True rows) :
    True { F with empty := ns ++ F.empty } (rows.clear ns) where
  empty m hm := by
    by_cases hmem : m ∈ ns
    · exact Rows.clear_mem hmem
    · rw [Rows.clear_other hmem]
      exact h.empty m ((List.mem_append.mp hm).resolve_left hmem)
  unset p hp r hr := by
    by_cases hmem : p.1 ∈ ns
    · rw [Rows.clear_mem hmem] at hr
      cases hr
    · rw [Rows.clear_other hmem] at hr
      exact h.unset p hp r hr

/-- Setting a column leaves what is known of the others. -/
theorem True.set {c : String} {v : Option V} (h : F.True rows) {G : Facts}
    (hempty : G.empty = F.empty)
    (hunset : ∀ p ∈ G.unset, (p = (n, c) ∧ v = none)
      ∨ p ∈ F.unset ∧ (v = none ∨ p ≠ (n, c))) :
    G.True (rows.set n c v) where
  empty m hm := by
    rw [hempty] at hm
    have hnil := h.empty m hm
    by_cases hmn : m = n
    · subst hmn
      rw [Rows.set_same, hnil]
      rfl
    · rw [Rows.set_other hmn]
      exact hnil
  unset p hp r hr := by
    by_cases hpc : p = (n, c)
    · subst hpc
      have hset : r ∈ rows.set n c v n := hr
      rw [Rows.set_same] at hset
      obtain ⟨r₀, -, rfl⟩ := List.mem_map.mp hset
      show r₀.set c v c = none
      rw [Row.set_same]
      rcases hunset (n, c) hp with ⟨-, hv⟩ | ⟨-, hv | hne⟩
      · exact hv
      · exact hv
      · exact absurd rfl hne
    · rcases hunset p hp with ⟨heq, -⟩ | ⟨hold, -⟩
      · exact absurd heq hpc
      · obtain ⟨r₀, hr₀, hsame⟩ := Rows.mem_set hr
        rw [hsame p.2 fun hn heq => hpc (Prod.ext hn heq)]
        exact h.unset p hold r₀ hr₀

/-- What is known after a statement is true after it. -/
theorem True.step (h : F.True rows) (hs : Catalog.Shaped σ rows)
    (hop : op.Allowed σ) : (F.after op).True (op.move now rows) := by
  cases op with
  | createTable n t =>
      refine ⟨fun m hm => ?_, h.unset⟩
      rcases List.mem_cons.mp hm with rfl | hm
      · exact hs.tables m hop.fresh_table
      · exact h.empty m hm
  | dropTable n =>
      have hclear : True { F with empty := [n] ++ F.empty } (rows.clear [n]) :=
        h.clear
      exact hclear
  | addColumn n c =>
      show True _ (rows.set n c.name (c.filler now))
      cases hc : c.serverDefault with
      | none =>
          have hafter : F.after (.addColumn n c)
              = { F with unset := (n, c.name) :: F.unset } := by
            simp only [after, hc]
          have hfiller : c.filler now = none := by
            simp only [Column.filler, hc]
          rw [hafter, hfiller]
          refine h.set rfl fun p hp => ?_
          rcases List.mem_cons.mp hp with rfl | hp
          · exact .inl ⟨rfl, rfl⟩
          · exact .inr ⟨hp, .inl rfl⟩
      | some d =>
          have hafter : F.after (.addColumn n c) = { F with
              unset := F.unset.filter fun p => p != (n, c.name) } := by
            simp only [after, hc]
          rw [hafter]
          refine h.set rfl fun p hp => ?_
          obtain ⟨hmem, hne⟩ := List.mem_filter.mp hp
          exact .inr ⟨hmem, .inr (bne_iff_ne.mp hne)⟩
  | dropColumn n c =>
      refine h.set rfl fun p hp => ?_
      rcases List.mem_cons.mp hp with rfl | hp
      · exact .inl ⟨rfl, rfl⟩
      · exact .inr ⟨hp, .inl rfl⟩
  | truncate ns => exact h.clear
  | _ => exact h

end Facts

-- ================================================================ the judgement

section Run

variable [Typing T V] [DecidableEq V] {db db' : Database T V} {F : Facts}

/-- The facts show that the rows fit the statement. -/
def Op.foresees (F : Facts) : Op T V → Bool
  | .addColumn n c => F.empty.contains n ||
      match c.serverDefault with
      | some (.value v) => Typing.fits c.type v
      | some .now => false
      | none => c.nullable
  | .alterNullable n _ false => F.empty.contains n
  | .createUnique _ n columns => F.empty.contains n
      || columns.any fun c => F.unset.contains (n, c)
  | .createForeignKey _ n _ c _ => F.empty.contains n
      || F.unset.contains (n, c)
  | _ => true

theorem fits_of_foresees (hF : F.True rows) (h : op.foresees F = true)
    (now : V) : op.Fits now rows := by
  -- an empty table fits anything
  have hnil : ∀ {n : String}, F.empty.contains n = true → rows n = [] :=
    fun hn => hF.empty _ (List.contains_iff_mem.mp hn)
  have hnull : ∀ {n c : String}, F.unset.contains (n, c) = true →
      ∀ r ∈ rows n, r c = none :=
    fun hc r hr => hF.unset _ (List.contains_iff_mem.mp hc) r hr
  cases op with
  | addColumn n c =>
      rcases Bool.or_eq_true_iff.mp h with hn | hc
      · exact .inl (hnil hn)
      · refine .inr ?_
        unfold Column.filler
        cases hd : c.serverDefault with
        | none =>
            rw [hd] at hc
            exact hc
        | some d =>
            rw [hd] at hc
            cases d with
            | value v => exact hc
            | now => cases hc
  | alterNullable n c b =>
      cases b with
      | true => trivial
      | false =>
          intro r hr
          rw [hnil h] at hr
          cases hr
  | createUnique name n columns =>
      show (rows n).Pairwise fun a b => clashes columns a b = false
      rcases Bool.or_eq_true_iff.mp h with hn | hc
      · rw [hnil hn]
        exact .nil
      · obtain ⟨c, hc, hunset⟩ := List.any_eq_true.mp hc
        exact List.pairwise_of_forall_mem_list fun a ha b _ =>
          clashes_null hc (hnull hunset a ha) b
  | createForeignKey name n referent c rc =>
      intro r hr
      rcases Bool.or_eq_true_iff.mp h with hn | hc
      · rw [hnil hn] at hr
        cases hr
      · exact .inl (hnull hc r hr)
  | _ => trivial

/-- The statements go through, as far as the facts and the catalog show. -/
def foreseen : Facts → Catalog T V → List (Op T V) → Bool
  | _, _, [] => true
  | F, σ, op :: ops => decide (op.Allowed σ) && op.foresees F
      && foreseen (F.after op) (op.effect σ) ops

variable (now) in
/-- What is foreseen comes true. -/
theorem run_foreseen (hF : F.True db.rows)
    (h : foreseen F db.catalog ops = true) :
    ∃ db', run now ops db = .ok db' := by
  induction ops generalizing db F with
  | nil => exact ⟨db, rfl⟩
  | cons op ops ih =>
      unfold foreseen at h
      rw [Bool.and_eq_true, Bool.and_eq_true, decide_eq_true_eq] at h
      obtain ⟨⟨hallowed, hfits⟩, hrest⟩ := h
      obtain ⟨db₁, hop⟩ := apply_ok now hallowed
        (fits_of_foresees hF hfits now)
      obtain ⟨-, -, hcat, hrows⟩ := apply_ok_iff.mp hop
      have hF₁ : (F.after op).True db₁.rows := by
        rw [hrows]
        exact hF.step db.shaped hallowed
      obtain ⟨db', hrun⟩ := ih hF₁ (hcat ▸ hrest)
      exact ⟨db', (run_cons hop).trans hrun⟩

/-- Facts follow statements that went through. -/
theorem facts_run (hF : F.True db.rows) (h : run now ops db = .ok db') :
    (F.afterAll ops).True db'.rows := by
  induction ops generalizing db F with
  | nil =>
      cases h
      exact hF
  | cons op ops ih =>
      obtain ⟨db₁, hop, hrest⟩ := run_cons_ok h
      obtain ⟨hallowed, -, -, hrows⟩ := apply_ok_iff.mp hop
      refine ih (F := F.after op) ?_ hrest
      rw [hrows]
      exact hF.step db.shaped hallowed

end Run

-- ==================================================================== the rows

namespace Op

/-- The statement takes the rows of the table away. -/
def empties (n : String) : Op T V → Bool
  | .dropTable m => m == n
  | .truncate ns => ns.contains n
  | _ => false

/-- The column of the table it adds or drops. -/
def columnOf (n : String) : Op T V → List String
  | .addColumn m c => if m = n then [c.name] else []
  | .dropColumn m c => if m = n then [c] else []
  | _ => []

end Op

/-- The rows agree but for these columns. -/
def Agree (columns : List String) (a b : List (Row V)) : Prop :=
  List.Forall₂ (fun r r' => ∀ c, c ∉ columns → r' c = r c) a b

theorem agree_refl (columns : List String) (a : List (Row V)) :
    Agree columns a a :=
  List.forall₂_same.mpr fun _ _ _ _ => rfl

theorem Agree.trans {cs ds : List String} {a b c : List (Row V)}
    (h : Agree cs a b) (h' : Agree ds b c) : Agree (cs ++ ds) a c := by
  unfold Agree at h h' ⊢
  induction h generalizing c with
  | nil =>
      cases h'
      exact .nil
  | @cons r r' a b hr _ ih =>
      cases h' with
      | @cons _ r'' _ c hr' hrest =>
          refine .cons (fun x hx => ?_) (ih hrest)
          rw [List.mem_append, not_or] at hx
          exact (hr' x hx.2).trans (hr x hx.1)

theorem agree_set {c : String} {v : Option V} (a : List (Row V)) :
    Agree [c] a (a.map fun r => r.set c v) := by
  unfold Agree
  refine List.forall₂_map_right_iff.mpr (List.forall₂_same.mpr ?_)
  exact fun r _ x hx => r.set_other (fun heq =>
    hx (List.mem_singleton.mpr heq)) v

/-- A table that is not emptied keeps its rows in the other columns. -/
theorem agree_move (h : op.empties n = false) :
    Agree (op.columnOf n) (rows n) (op.move now rows n) := by
  have hset : ∀ (m c : String) (v : Option V),
      Agree (if m = n then [c] else []) (rows n) (rows.set m c v n) := by
    intro m c v
    by_cases hm : m = n
    · subst hm
      rw [if_pos rfl, Rows.set_same]
      exact agree_set _
    · rw [if_neg hm, Rows.set_other (Ne.symm hm)]
      exact agree_refl _ _
  cases op with
  | dropTable m =>
      have hne : n ∉ [m] := fun hmem => by
        rw [List.mem_singleton.mp hmem] at h
        simp [Op.empties] at h
      show Agree _ _ (rows.clear [m] n)
      rw [Rows.clear_other hne]
      exact agree_refl _ _
  | truncate ns =>
      have hne : n ∉ ns := fun hmem => by
        rw [show Op.empties n (.truncate ns : Op T V) = true
          from List.contains_iff_mem.mpr hmem] at h
        cases h
      show Agree _ _ (rows.clear ns n)
      rw [Rows.clear_other hne]
      exact agree_refl _ _
  | addColumn m c => exact hset m c.name _
  | dropColumn m c => exact hset m c none
  | _ => exact agree_refl _ _

/-- Statements that empty no table of the name keep its rows, but for the
columns they add or drop. -/
theorem rows_kept (now : V) (rows : Rows V)
    (h : ∀ op ∈ ops, op.empties n = false) :
    Agree (ops.flatMap (Op.columnOf n)) (rows n) (moves now rows ops n) := by
  induction ops generalizing rows with
  | nil => exact agree_refl _ _
  | cons op ops ih =>
      rw [List.flatMap_cons]
      exact (agree_move (h op (List.mem_cons_self ..))).trans
        (ih _ fun x hx => h x (List.mem_cons_of_mem _ hx))

theorem Agree.exists_of_mem_right {cs : List String} {a b : List (Row V)}
    (h : Agree cs a b) {r' : Row V} (hr' : r' ∈ b) :
    ∃ r ∈ a, ∀ c, c ∉ cs → r' c = r c := by
  unfold Agree at h
  induction h with
  | nil => cases hr'
  | @cons r₀ r₁ a b hr _ ih =>
      rcases List.mem_cons.mp hr' with rfl | hmem
      · exact ⟨r₀, List.mem_cons_self .., hr⟩
      · obtain ⟨r, hmem', hsame⟩ := ih hmem
        exact ⟨r, List.mem_cons_of_mem _ hmem', hsame⟩

/-- Rows that agree in all columns are the same. -/
theorem Agree.eq {a b : List (Row V)} (h : Agree [] a b) : b = a := by
  induction h with
  | nil => rfl
  | cons hr _ ih => rw [ih, funext fun c => hr c (List.not_mem_nil)]

theorem moves_append :
    moves now rows (ops ++ ops') = moves now (moves now rows ops) ops' :=
  List.foldl_append

/-- A column that is added and then left alone holds what filled it. -/
theorem column_filled {c : Column T V}
    (h : ∀ op ∈ ops', op.empties n = false)
    (hc : c.name ∉ ops'.flatMap (Op.columnOf n)) :
    ∀ r ∈ moves now rows (ops ++ .addColumn n c :: ops') n,
      r c.name = c.filler now := by
  intro r hr
  rw [moves_append] at hr
  have hkept : Agree _ ((moves now rows ops).set n c.name (c.filler now) n)
      (moves now (moves now rows ops) (.addColumn n c :: ops') n) :=
    rows_kept now _ h
  obtain ⟨r₀, hr₀, hsame⟩ := hkept.exists_of_mem_right hr
  rw [hsame c.name hc]
  rw [Rows.set_same] at hr₀
  obtain ⟨r₁, -, rfl⟩ := List.mem_map.mp hr₀
  exact Row.set_same ..

end Ddl
