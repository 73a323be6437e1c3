/-
Statements that undo statements.

`Op.inverse` pairs a statement with the one that takes back what it added.
Where a statement went through, its inverse goes through after it and
leads back to the same database, rows and catalog (`apply_undo`); so does
a list of inverses in reverse after a list of statements (`run_undo`).
What a statement threw away has no inverse.
-/
import ResumeScreening.Lib.Alter

namespace Ddl

variable {T V : Type} {σ : Catalog T V} {rows : Rows V} {op op' : Op T V}

namespace Op

/-- The statement that takes back what a statement added. -/
def inverse : Op T V → Option (Op T V)
  | .createTable n _ => some (.dropTable n)
  | .addColumn n c => some (.dropColumn n c.name)
  | .alterNullable n c true => some (.alterNullable n c false)
  | .createIndex name n _ => some (.dropIndex name n)
  | .createUnique name n _ => some (.dropConstraint name n)
  | .createForeignKey name n .. => some (.dropConstraint name n)
  | _ => none

/-- A column that is made nullable was not. -/
def changes (σ : Catalog T V) : Op T V → Bool
  | .alterNullable n c true => σ.all fun e => e.1 != n
      || e.2.columns.all fun col => col.name != c || !col.nullable
  | _ => true

theorem changes_nullable {n c : String}
    (h : (alterNullable n c true).changes σ = true) {t : TableDef T V}
    (ht : (n, t) ∈ σ) : ∀ col ∈ t.columns, col.name = c →
      col.nullable = false := by
  intro col hcol hname
  have htable := List.all_eq_true.mp h _ ht
  simp only [bne_self_eq_false, Bool.false_or] at htable
  have hcolumn := List.all_eq_true.mp htable col hcol
  simpa [hname] using hcolumn

end Op

-- ================================================================ definitions

namespace TableDef

variable {t : TableDef T V}

/-- What is about other columns stays when a new one goes again. -/
theorem without_added {col : Column T V} (ht : t.Sound)
    (hfresh : col.name ∉ t.columnNames) :
    ({ t with columns := t.columns ++ [col] } : TableDef T V).without col.name
      = t := by
  have hcolumns : (t.columns ++ [col]).filter (fun x => x.name != col.name)
      = t.columns := by
    rw [List.filter_append, List.filter_eq_self.mpr fun x hx => ?_]
    · simp
    · exact bne_iff_ne.mpr
        (ne_of_mem_of_not_mem (List.mem_map_of_mem hx) hfresh)
  have huniques : (t.uniques.filter fun k => !k.columns.contains col.name)
      = t.uniques := by
    refine List.filter_eq_self.mpr fun k hk => ?_
    have hkey : k.columns ∈ t.keys :=
      List.mem_cons_of_mem _ (List.mem_map_of_mem hk)
    simpa using fun hmem => hfresh ((ht.keyed _ hkey).2 _ hmem)
  have hforeign : (t.foreignKeys.filter fun f => f.column != col.name)
      = t.foreignKeys := by
    refine List.filter_eq_self.mpr fun f hf => ?_
    exact bne_iff_ne.mpr (ne_of_mem_of_not_mem (ht.foreign f hf) hfresh)
  have hindexes : (t.indexes.filter fun x => !x.columns.contains col.name)
      = t.indexes := by
    refine List.filter_eq_self.mpr fun x hx => ?_
    simpa using fun hmem => hfresh (ht.indexed x hx _ hmem)
  unfold without
  rw [hcolumns, huniques, hforeign, hindexes]

theorem setNullable_back {c : String}
    (h : ∀ col ∈ t.columns, col.name = c → col.nullable = false) :
    (t.setNullable c true).setNullable c false = t := by
  have hcolumns : (t.columns.map fun col =>
        if col.name = c then { col with nullable := true } else col).map
      (fun col => if col.name = c then { col with nullable := false } else col)
      = t.columns := by
    rw [List.map_map]
    refine (List.map_congr_left fun col hcol => ?_).trans (List.map_id _)
    by_cases hname : col.name = c
    · have hnull := h col hcol hname
      simp only [Function.comp, if_pos hname, id]
      rw [← hnull]
    · simp [hname]
  unfold setNullable
  rw [hcolumns]

/-- A name no constraint has takes none away. -/
theorem dropConstraint_fresh {name : String}
    (h : name ∉ t.constraintNames) : t.dropConstraint name = t := by
  unfold constraintNames at h
  rw [List.mem_append, not_or] at h
  have huniques : (t.uniques.filter fun k => k.name != some name)
      = t.uniques := by
    refine List.filter_eq_self.mpr fun k hk => bne_iff_ne.mpr fun heq => ?_
    exact h.1 (List.mem_filterMap.mpr ⟨k, hk, heq⟩)
  have hforeign : (t.foreignKeys.filter fun f => f.name != some name)
      = t.foreignKeys := by
    refine List.filter_eq_self.mpr fun f hf => bne_iff_ne.mpr fun heq => ?_
    exact h.2 (List.mem_filterMap.mpr ⟨f, hf, heq⟩)
  unfold dropConstraint
  rw [huniques, hforeign]

theorem dropConstraint_unique {name : String} {columns : List String}
    (h : name ∉ t.constraintNames) :
    ({ t with uniques := t.uniques ++ [⟨some name, columns⟩] }
      : TableDef T V).dropConstraint name = t := by
  have hback := dropConstraint_fresh h
  unfold dropConstraint at hback ⊢
  rw [List.filter_append]
  simpa using hback

theorem dropConstraint_foreign {name c referent rc : String}
    (h : name ∉ t.constraintNames) :
    ({ t with foreignKeys := t.foreignKeys ++ [⟨some name, c, referent, rc⟩] }
      : TableDef T V).dropConstraint name = t := by
  have hback := dropConstraint_fresh h
  unfold dropConstraint at hback ⊢
  rw [List.filter_append]
  simpa using hback

end TableDef

-- ============================================================= one statement

namespace Op

open Catalog (Sound Shaped modify_modify modify_eq mem_modify mem_names)

variable {n : String}

/-- The constraint's name is new to its table. -/
theorem constraint_fresh {f : TableDef T V → TableDef T V} {t : TableDef T V}
    {name : String} (h : Sound (Catalog.modify σ n f)) (ht : (n, t) ∈ σ)
    (hperm : (f t).constraintNames.Perm (name :: t.constraintNames)) :
    name ∉ t.constraintNames :=
  (List.nodup_cons.mp
    (hperm.nodup_iff.mp (h.tables _ (mem_modify ht)).constraints)).1

/-- The inverse leads back to the catalog. -/
theorem effect_undo (hσ : Sound σ) (h : op.Allowed σ) (hc : op.changes σ = true)
    (hinv : op.inverse = some op') : op'.effect (op.effect σ) = σ := by
  have hsound := h.sound
  cases op with
  | createTable n t =>
      cases hinv
      have hfresh := h.fresh_table
      show (σ ++ [(n, t)]).filter (fun e => e.1 != n) = σ
      rw [List.filter_append, List.filter_eq_self.mpr fun e he => ?_]
      · simp
      · exact bne_iff_ne.mpr
          (ne_of_mem_of_not_mem (Catalog.mem_names_of he) hfresh)
  | addColumn n col =>
      cases hinv
      rw [effect, effect, modify_modify]
      exact modify_eq fun t ht =>
        TableDef.without_added (hσ.tables _ ht) (h.fresh _ ht rfl)
  | alterNullable n c b =>
      cases b with
      | false => cases hinv
      | true =>
          cases hinv
          rw [effect, effect, modify_modify]
          exact modify_eq fun t ht =>
            TableDef.setNullable_back (changes_nullable hc ht)
  | createIndex name n columns =>
      cases hinv
      rw [effect] at hsound
      rw [effect, effect, modify_modify]
      refine modify_eq fun t ht => ?_
      have hnodup := (List.nodup_flatMap.mp hsound.indexes).1 _
        (mem_modify ht)
      rw [List.map_append, List.nodup_append] at hnodup
      have hold : (t.indexes.filter fun x => x.name != name) = t.indexes := by
        refine List.filter_eq_self.mpr fun x hx => bne_iff_ne.mpr fun heq => ?_
        exact hnodup.2.2 x.name (List.mem_map_of_mem hx) name
          (List.mem_singleton.mpr rfl) heq
      show ({ t with
          indexes := (t.indexes ++ [Index.mk name columns]).filter
            fun x => x.name != name } : TableDef T V) = t
      rw [List.filter_append, hold]
      simp
  | createUnique name n columns =>
      cases hinv
      rw [effect] at hsound
      rw [effect, effect, modify_modify]
      refine modify_eq fun t ht => TableDef.dropConstraint_unique ?_
      refine constraint_fresh hsound ht ?_
      unfold TableDef.constraintNames
      rw [List.filterMap_append]
      exact (List.perm_append_comm.append_right _).trans
        (List.Perm.of_eq (by simp))
  | createForeignKey name n referent c rc =>
      cases hinv
      rw [effect] at hsound
      rw [effect, effect, modify_modify]
      refine modify_eq fun t ht => TableDef.dropConstraint_foreign ?_
      refine constraint_fresh hsound ht ?_
      unfold TableDef.constraintNames
      rw [List.filterMap_append, ← List.append_assoc]
      exact List.perm_append_comm.trans (List.Perm.of_eq (by simp))
  | _ => cases hinv

/-- The inverse leads back to the rows. -/
theorem move_undo (hs : Shaped σ rows) (h : op.Allowed σ)
    (hinv : op.inverse = some op') (now now' : V) :
    op'.move now' (op.move now rows) = rows := by
  cases op with
  | createTable n t =>
      cases hinv
      funext m
      by_cases hm : m = n
      · have hnone := hs.tables n h.fresh_table
        rw [hm, hnone]
        exact Rows.clear_mem (List.mem_singleton.mpr rfl)
      · exact Rows.clear_other (by simpa using hm)
  | addColumn n col =>
      cases hinv
      funext m
      show ((rows.set n col.name _).set n col.name none) m = rows m
      by_cases hm : m = n
      · subst hm
        obtain ⟨t, ht⟩ := mem_names.mp h.present
        rw [Rows.set_same, Rows.set_same, List.map_map]
        refine (List.map_congr_left fun r hr => ?_).trans (List.map_id _)
        have hnone := hs.columns _ ht r hr col.name (h.fresh _ ht rfl)
        funext c
        show ((r.set col.name _).set col.name none) c = r c
        by_cases hcol : c = col.name
        · rw [hcol, Row.set_same, hnone]
        · rw [Row.set_other _ hcol, Row.set_other _ hcol]
      · rw [Rows.set_other hm, Rows.set_other hm]
  | alterNullable n c b =>
      cases b with
      | false => cases hinv
      | true =>
          cases hinv
          rfl
  | createIndex => cases hinv; rfl
  | createUnique => cases hinv; rfl
  | createForeignKey => cases hinv; rfl
  | _ => cases hinv

/-- What the inverse names is there. -/
theorem present_undo (h : op.Allowed σ) (hinv : op.inverse = some op') :
    op'.Present (op.effect σ) := by
  have hpresent := h.present
  cases op with
  | createTable n t =>
      cases hinv
      refine mem_names.mpr ⟨t, ?_⟩
      exact List.mem_append_right _ (List.mem_singleton.mpr rfl)
  | addColumn n col =>
      cases hinv
      obtain ⟨t, ht⟩ := mem_names.mp hpresent
      rw [effect]
      refine ⟨_, mem_modify ht, rfl, ?_⟩
      unfold TableDef.columnNames
      simp
  | alterNullable n c b =>
      cases b with
      | false => cases hinv
      | true =>
          cases hinv
          obtain ⟨e, he, rfl, hcol⟩ := hpresent
          rw [effect]
          refine ⟨_, mem_modify he, rfl, ?_⟩
          rw [TableDef.columnNames_setNullable]
          exact hcol
  | createIndex name n columns =>
      cases hinv
      obtain ⟨t, ht⟩ := mem_names.mp hpresent
      rw [effect]
      exact ⟨_, mem_modify ht, rfl, ⟨name, columns⟩, by simp, rfl⟩
  | createUnique name n columns =>
      cases hinv
      obtain ⟨t, ht⟩ := mem_names.mp hpresent
      rw [effect]
      refine ⟨_, mem_modify ht, rfl, ?_⟩
      unfold TableDef.constraintNames
      simp
  | createForeignKey name n referent c rc =>
      cases hinv
      obtain ⟨t, ht⟩ := mem_names.mp hpresent
      rw [effect]
      refine ⟨_, mem_modify ht, rfl, ?_⟩
      unfold TableDef.constraintNames
      simp
  | _ => cases hinv

end Op

-- ============================================================ many statements

section Run

variable [Typing T V] [DecidableEq V] {db db' : Database T V} {now now' : V}
  {ops ops' : List (Op T V)}

/-- The inverse asks nothing of the rows that a statement left. -/
theorem fits_undo (hop : op.apply now db = .ok db')
    (hc : op.changes db.catalog = true) (hinv : op.inverse = some op') :
    op'.Fits now' db'.rows := by
  obtain ⟨h, -, -, hrows⟩ := apply_ok_iff.mp hop
  cases op with
  | alterNullable n c b =>
      cases b with
      | false => cases hinv
      | true =>
          cases hinv
          intro r hr hnone
          rw [hrows] at hr
          obtain ⟨e, he, rfl, hcol⟩ := h.present
          obtain ⟨col, hmem, rfl⟩ := List.mem_map.mp hcol
          have hadmits := (db.holds e he).columns r hr col hmem
          rw [hnone] at hadmits
          have hnull := Op.changes_nullable hc he col hmem rfl
          exact absurd hadmits (by simp [Column.admits, hnull])
  | createTable => cases hinv; trivial
  | addColumn => cases hinv; trivial
  | createIndex => cases hinv; trivial
  | createUnique => cases hinv; trivial
  | createForeignKey => cases hinv; trivial
  | _ => cases hinv

/-- The inverse undoes a statement. -/
theorem apply_undo (hop : op.apply now db = .ok db')
    (hc : op.changes db.catalog = true) (hinv : op.inverse = some op') :
    op'.apply now' db' = .ok db := by
  have hfits : op'.Fits now' db'.rows := fits_undo hop hc hinv
  obtain ⟨h, -, hcat, hrows⟩ := apply_ok_iff.mp hop
  have heffect : op'.effect db'.catalog = db.catalog := by
    rw [hcat]
    exact Op.effect_undo db.sound h hc hinv
  refine apply_ok_iff.mpr ⟨⟨?_, ?_⟩, hfits, heffect.symm, ?_⟩
  · rw [hcat]
    exact Op.present_undo h hinv
  · rw [heffect]
    exact db.sound
  · rw [hrows]
    exact (Op.move_undo db.shaped h hinv now now').symm

/-- The inverses, last statement first. -/
def inverses : List (Op T V) → Option (List (Op T V))
  | [] => some []
  | op :: ops =>
      match inverses ops, op.inverse with
      | some ops', some op' => some (ops' ++ [op'])
      | _, _ => none

/-- Every column made nullable on the way was not. -/
def changesAll : Catalog T V → List (Op T V) → Bool
  | _, [] => true
  | σ, op :: ops => op.changes σ && changesAll (op.effect σ) ops

variable (now') in
/-- The inverses in reverse undo statements that went through. -/
theorem run_undo (h : run now ops db = .ok db')
    (hc : changesAll db.catalog ops = true) (hinv : inverses ops = some ops') :
    run now' ops' db' = .ok db := by
  induction ops generalizing db ops' with
  | nil =>
      cases h
      cases hinv
      rfl
  | cons op ops ih =>
      obtain ⟨db₁, hop, hrest⟩ := run_cons_ok h
      obtain ⟨-, -, hcat, -⟩ := apply_ok_iff.mp hop
      obtain ⟨hfirst, hothers⟩ := Bool.and_eq_true_iff.mp hc
      unfold inverses at hinv
      split at hinv
      next rest op₁ hops hop₁ =>
        cases hinv
        have hback := ih hrest (hcat ▸ hothers) hops
        rw [run_append hback, run_cons (apply_undo hop hfirst hop₁)]
        rfl
      next => cases hinv

end Run

end Ddl
