/-
Executing statements.

A statement that the catalog allows keeps the rows in shape
(`shaped_move`), and leaves them meeting the new catalog exactly if they
fit (`holds_iff_fits`). So `Op.apply` needs no more than to check that they
do: it goes from database to database, and `apply_ok_iff` says when.
-/
import ResumeScreening.Lib.Ddl

namespace Ddl

variable {T V : Type} {σ : Catalog T V} {rows : Rows V} {op : Op T V}
  {n c : String}

-- ================================================================== the shape

namespace Catalog

theorem mem_names : n ∈ names σ ↔ ∃ t, (n, t) ∈ σ := by
  unfold names
  rw [List.mem_map]
  constructor
  · rintro ⟨⟨m, t⟩, hmem, rfl⟩
    exact ⟨t, hmem⟩
  · rintro ⟨t, hmem⟩
    exact ⟨_, hmem, rfl⟩

theorem mem_names_of {e : String × TableDef T V} (h : e ∈ σ) :
    e.1 ∈ names σ :=
  List.mem_map_of_mem h

/-- A definition that keeps a table's columns keeps its shape. -/
theorem Shaped.modify {f : TableDef T V → TableDef T V}
    (h : Shaped σ rows) (hf : ∀ t, (f t).columnNames = t.columnNames) :
    Shaped (Catalog.modify σ n f) rows where
  tables m hm := h.tables m (by rwa [names_modify] at hm)
  columns e he r hr c hc := by
    obtain ⟨e₀, he₀, hname, hsame, hother⟩ := of_mem_modify he
    rw [hname] at hr
    refine h.columns e₀ he₀ r hr c ?_
    by_cases hn : e₀.1 = n
    · rw [hsame hn, hf] at hc
      exact hc
    · rw [hother hn] at hc
      exact hc

theorem Shaped.clear {ns : List String} (h : Shaped σ rows) :
    Shaped σ (rows.clear ns) where
  tables m hm := by
    unfold Rows.clear
    split
    · rfl
    · exact h.tables m hm
  columns e he r hr c hc := by
    unfold Rows.clear at hr
    split at hr
    · cases hr
    · exact h.columns e he r hr c hc

end Catalog

theorem TableDef.columnNames_setNullable (t : TableDef T V) (b : Bool) :
    (t.setNullable c b).columnNames = t.columnNames := by
  unfold columnNames setNullable
  rw [List.map_map]
  refine List.map_congr_left fun col _ => ?_
  show (if col.name = c then { col with nullable := b } else col).name = _
  split <;> rfl

theorem TableDef.mem_without {t : TableDef T V} {c' : String} :
    c' ∈ (t.without c).columnNames ↔ c' ∈ t.columnNames ∧ c' ≠ c := by
  unfold columnNames without
  rw [List.mem_map, List.mem_map]
  constructor
  · rintro ⟨col, hcol, rfl⟩
    obtain ⟨hmem, hne⟩ := List.mem_filter.mp hcol
    exact ⟨⟨col, hmem, rfl⟩, bne_iff_ne.mp hne⟩
  · rintro ⟨⟨col, hcol, rfl⟩, hne⟩
    exact ⟨col, List.mem_filter.mpr ⟨hcol, bne_iff_ne.mpr hne⟩, rfl⟩

namespace Op

open Catalog (Sound Shaped names_modify of_mem_modify mem_names)

/-- The table is new to the catalog. -/
theorem Allowed.fresh_table {t : TableDef T V}
    (h : (createTable n t).Allowed σ) : n ∉ Catalog.names σ := by
  have hnodup : (Catalog.names (σ ++ [(n, t)])).Nodup := h.sound.names
  unfold Catalog.names at hnodup
  rw [List.map_append, List.nodup_append] at hnodup
  intro hmem
  exact hnodup.2.2 n hmem n (List.mem_singleton.mpr rfl) rfl

/-- An allowed statement keeps the shape. -/
theorem shaped_move (hs : Shaped σ rows) (h : op.Allowed σ) (now : V) :
    Shaped (op.effect σ) (op.move now rows) := by
  cases op with
  | createTable n t =>
      constructor
      · intro m hm
        refine hs.tables m fun hmem => hm ?_
        unfold effect Catalog.names
        rw [List.map_append]
        exact List.mem_append_left _ hmem
      · intro e he r hr c hc
        rcases List.mem_append.mp he with he | he
        · exact hs.columns e he r hr c hc
        · rw [List.mem_singleton.mp he] at hr
          have hnone : rows n = [] := hs.tables n h.fresh_table
          have hmem : r ∈ rows n := hr
          rw [hnone] at hmem
          cases hmem
  | dropTable n =>
      have hcleared : Shaped σ (rows.clear [n]) := hs.clear
      constructor
      · intro m hm
        by_cases hmn : m = n
        · exact Rows.clear_mem (List.mem_singleton.mpr hmn)
        · refine hcleared.tables m fun hmem => hm ?_
          obtain ⟨t, ht⟩ := mem_names.mp hmem
          refine mem_names.mpr ⟨t, List.mem_filter.mpr ⟨ht, ?_⟩⟩
          simpa using hmn
      · intro e he
        exact hcleared.columns e (List.mem_filter.mp he).1
  | addColumn n col =>
      constructor
      · intro m hm
        rw [effect, names_modify] at hm
        have hmn : m ≠ n := fun heq => hm (by rw [heq]; exact h.present)
        exact (Rows.set_other hmn).trans (hs.tables m hm)
      · intro e he r hr c hc
        rw [effect] at he
        obtain ⟨e₀, he₀, hname, hsame, hother⟩ := of_mem_modify he
        obtain ⟨r₀, hr₀, hr'⟩ := Rows.mem_set hr
        rw [hname] at hr₀ hr'
        by_cases hn : e₀.1 = n
        · rw [hsame hn] at hc
          unfold TableDef.columnNames at hc
          rw [List.map_append, List.mem_append, not_or] at hc
          rw [hr' c fun _ heq => hc.2 (List.mem_singleton.mpr heq)]
          exact hs.columns e₀ he₀ r₀ hr₀ c hc.1
        · rw [hother hn] at hc
          rw [hr' c fun heq => absurd heq hn]
          exact hs.columns e₀ he₀ r₀ hr₀ c hc
  | dropColumn n col =>
      constructor
      · intro m hm
        rw [effect, names_modify] at hm
        obtain ⟨e, he, rfl, -⟩ := h.present
        have hmn : m ≠ e.1 := fun heq => hm (heq ▸ Catalog.mem_names_of he)
        exact (Rows.set_other hmn).trans (hs.tables m hm)
      · intro e he r hr c hc
        rw [effect] at he
        obtain ⟨e₀, he₀, hname, hsame, hother⟩ := of_mem_modify he
        by_cases hn : e₀.1 = n
        · rw [hsame hn, TableDef.mem_without, not_and_not_right] at hc
          rw [hname, hn] at hr
          have hset : r ∈ rows.set n col none n := hr
          rw [Rows.set_same] at hset
          obtain ⟨r₀, hr₀, rfl⟩ := List.mem_map.mp hset
          by_cases hcol : c = col
          · rw [hcol, Row.set_same]
          · rw [r₀.set_other hcol]
            rw [← hn] at hr₀
            exact hs.columns e₀ he₀ r₀ hr₀ c fun hmem => hcol (hc hmem)
        · obtain ⟨r₀, hr₀, hr'⟩ := Rows.mem_set hr
          rw [hname] at hr₀ hr'
          rw [hother hn] at hc
          rw [hr' c fun heq => absurd heq hn]
          exact hs.columns e₀ he₀ r₀ hr₀ c hc
  | alterNullable n c b =>
      rw [effect]
      exact hs.modify fun t => t.columnNames_setNullable b
  | truncate ns => exact hs.clear
  | _ =>
      rw [effect]
      exact hs.modify fun t => rfl

end Op

-- ============================================================ the constraints

namespace Catalog

/-- What no table declares, no constraint is about. -/
theorem ignores_of_fresh (hσ : Sound σ)
    (hfresh : ∀ e ∈ σ, e.1 = n → c ∉ e.2.columnNames) :
    ∀ e ∈ σ, e.2.Ignores e.1 n c := by
  intro e he
  refine ⟨hfresh e he, fun hn k hk hc => ?_, fun f hf => ⟨fun hn heq => ?_,
    fun hn heq => ?_⟩⟩
  · exact hfresh e he hn (((hσ.tables e he).keyed k hk).2 c hc)
  · refine hfresh e he hn ?_
    rw [← heq]
    exact (hσ.tables e he).foreign f hf
  · obtain ⟨e', he', hname, hkey⟩ := hσ.foreign e he f hf
    refine hfresh e' he' (hname.trans hn) ?_
    rw [← heq]
    exact ((hσ.tables e' he').keyed _ hkey).2 _ (List.mem_singleton.mpr rfl)

end Catalog

namespace TableDef

variable (t : TableDef T V)

theorem relaxes_without : (t.without c).Relaxes t where
  columns col hcol := ⟨col, (List.mem_filter.mp hcol).1, rfl, rfl, id⟩
  keys k hk := by
    rcases List.mem_cons.mp hk with rfl | hk
    · exact List.mem_cons_self ..
    · obtain ⟨u, hu, rfl⟩ := List.mem_map.mp hk
      exact List.mem_cons_of_mem _
        (List.mem_map_of_mem (List.mem_filter.mp hu).1)
  foreign f hf := (List.mem_filter.mp hf).1

theorem relaxes_dropConstraint {name : String} :
    (t.dropConstraint name).Relaxes t where
  columns col hcol := ⟨col, hcol, rfl, rfl, id⟩
  keys k hk := by
    rcases List.mem_cons.mp hk with rfl | hk
    · exact List.mem_cons_self ..
    · obtain ⟨u, hu, rfl⟩ := List.mem_map.mp hk
      exact List.mem_cons_of_mem _
        (List.mem_map_of_mem (List.mem_filter.mp hu).1)
  foreign f hf := (List.mem_filter.mp hf).1

theorem relaxes_setNullable : (t.setNullable c true).Relaxes t where
  columns col hcol := by
    obtain ⟨col₀, hcol₀, rfl⟩ := List.mem_map.mp hcol
    refine ⟨col₀, hcol₀, ?_⟩
    split
    · exact ⟨rfl, rfl, fun _ => rfl⟩
    · exact ⟨rfl, rfl, id⟩
  keys _ hk := hk
  foreign _ hf := hf

theorem relaxes_indexes {xs : List Index} :
    ({ t with indexes := xs } : TableDef T V).Relaxes t where
  columns col hcol := ⟨col, hcol, rfl, rfl, id⟩
  keys _ hk := hk
  foreign _ hf := hf

end TableDef

/-- The column is new to the table. -/
theorem Op.Allowed.fresh {col : Column T V} (h : (Op.addColumn n col).Allowed σ) :
    ∀ e ∈ σ, e.1 = n → col.name ∉ e.2.columnNames := by
  intro e he hn hmem
  have hsound := h.sound.tables (e.1, { e.2 with
    columns := e.2.columns ++ [col] }) (List.mem_map.mpr ⟨e, he, if_pos hn⟩)
  have hnodup := hsound.columns
  unfold TableDef.columnNames at hnodup
  rw [List.map_append, List.nodup_append] at hnodup
  exact hnodup.2.2 col.name hmem col.name (List.mem_singleton.mpr rfl) rfl

section Holds

variable [Typing T V] [DecidableEq V]

namespace Catalog

theorem holds_modify {f : TableDef T V → TableDef T V} :
    Holds (modify σ n f) rows
      ↔ (∀ e ∈ σ, e.1 ≠ n → e.2.Holds rows e.1)
        ∧ ∀ e ∈ σ, e.1 = n → (f e.2).Holds rows e.1 := by
  constructor
  · intro h
    refine ⟨fun e he hne => ?_, fun e he heq => ?_⟩
    · have hmem : e ∈ modify σ n f := List.mem_map.mpr ⟨e, he, if_neg hne⟩
      exact h e hmem
    · have hmem : (e.1, f e.2) ∈ modify σ n f :=
        List.mem_map.mpr ⟨e, he, if_pos heq⟩
      exact h _ hmem
  · intro h e he
    obtain ⟨e₀, he₀, hname, hsame, hother⟩ := of_mem_modify he
    rw [hname]
    by_cases hn : e₀.1 = n
    · rw [hsame hn]
      exact h.2 e₀ he₀ hn
    · rw [hother hn]
      exact h.1 e₀ he₀ hn

/-- A change of one definition, where the rest holds. -/
theorem holds_modify_iff {f : TableDef T V → TableDef T V}
    (h : Holds σ rows) :
    Holds (modify σ n f) rows ↔ ∀ e ∈ σ, e.1 = n → (f e.2).Holds rows e.1 :=
  holds_modify.trans (and_iff_right fun e he _ => h e he)

theorem Holds.relax {f : TableDef T V → TableDef T V} (h : Holds σ rows)
    (hf : ∀ e ∈ σ, e.1 = n → (f e.2).Relaxes e.2) :
    Holds (modify σ n f) rows :=
  (holds_modify_iff h).mpr fun e he hn => (h e he).relax (hf e he hn)

end Catalog

namespace TableDef

variable {t : TableDef T V}

theorem holds_addColumn {col : Column T V} (h : t.Holds rows n) :
    ({ t with columns := t.columns ++ [col] } : TableDef T V).Holds rows n
      ↔ ∀ r ∈ rows n, col.admits (r col.name) = true := by
  constructor
  · exact fun h' r hr => h'.columns r hr col (by simp)
  · refine fun hcol => ⟨fun r hr col' hcol' => ?_, h.keys, h.references⟩
    rcases List.mem_append.mp hcol' with hold | hnew
    · exact h.columns r hr col' hold
    · rw [List.mem_singleton.mp hnew]
      exact hcol r hr

theorem holds_setNotNull (h : t.Holds rows n) (hc : c ∈ t.columnNames) :
    (t.setNullable c false).Holds rows n ↔ ∀ r ∈ rows n, r c ≠ none := by
  constructor
  · intro h' r hr hnone
    obtain ⟨col, hcol, rfl⟩ := List.mem_map.mp hc
    have hmem : ({ col with nullable := false } : Column T V)
        ∈ (t.setNullable col.name false).columns :=
      List.mem_map.mpr ⟨col, hcol, if_pos rfl⟩
    have hadmits := h'.columns r hr _ hmem
    rw [show r ({ col with nullable := false } : Column T V).name = none
      from hnone] at hadmits
    cases hadmits
  · refine fun hset => ⟨fun r hr col' hcol' => ?_, h.keys, h.references⟩
    obtain ⟨col, hcol, rfl⟩ := List.mem_map.mp hcol'
    have hadmits := h.columns r hr col hcol
    by_cases hname : col.name = c
    · rw [if_pos hname]
      show Column.admits _ (r col.name) = true
      cases hv : r col.name with
      | none => exact absurd (hname ▸ hv) (hset r hr)
      | some v =>
          rw [hv] at hadmits
          exact hadmits
    · rw [if_neg hname]
      exact hadmits

theorem holds_addUnique {k : Key} (h : t.Holds rows n) :
    ({ t with uniques := t.uniques ++ [k] } : TableDef T V).Holds rows n
      ↔ (rows n).Pairwise fun a b => clashes k.columns a b = false := by
  have hkeys : ({ t with uniques := t.uniques ++ [k] } : TableDef T V).keys
      = t.keys ++ [k.columns] := by
    unfold keys
    rw [List.map_append]
    rfl
  constructor
  · intro h'
    refine h'.keys k.columns ?_
    rw [hkeys]
    exact List.mem_append_right _ (List.mem_singleton.mpr rfl)
  · refine fun hapart => ⟨h.columns, fun k' hk' => ?_, h.references⟩
    rw [hkeys] at hk'
    rcases List.mem_append.mp hk' with hold | hnew
    · exact h.keys k' hold
    · rw [List.mem_singleton.mp hnew]
      exact hapart

theorem holds_addForeignKey {f : ForeignKey} (h : t.Holds rows n) :
    ({ t with foreignKeys := t.foreignKeys ++ [f] } : TableDef T V).Holds rows n
      ↔ ∀ r ∈ rows n, r f.column = none
        ∨ ∃ r' ∈ rows f.refTable, r' f.refColumn = r f.column := by
  constructor
  · exact fun h' => h'.references f (by simp)
  · refine fun hf => ⟨h.columns, h.keys, fun f' hf' => ?_⟩
    rcases List.mem_append.mp hf' with hold | hnew
    · exact h.references f' hold
    · rw [List.mem_singleton.mp hnew]
      exact hf

end TableDef

namespace Op

open Catalog (Sound Shaped Holds of_mem_modify mem_names)

/-- An allowed statement leaves rows that meet its catalog exactly if they
fit. -/
theorem holds_iff_fits (hσ : Sound σ) (hs : Shaped σ rows)
    (hh : Holds σ rows) (h : op.Allowed σ) (now : V) :
    Holds (op.effect σ) (op.move now rows) ↔ op.Fits now rows := by
  cases op with
  | createTable n t =>
      refine iff_of_true (fun e he => ?_) trivial
      rcases List.mem_append.mp he with hold | hnew
      · exact hh e hold
      · rw [List.mem_singleton.mp hnew]
        exact t.holds_empty (hs.tables n h.fresh_table)
  | dropTable n =>
      refine iff_of_true (fun e he => ?_) trivial
      refine (hh e (List.mem_filter.mp he).1).clear (.inr fun f hf => ?_)
      obtain ⟨e', he', hname, -⟩ := h.sound.foreign e he f hf
      rw [List.mem_singleton, ← hname]
      simpa using (List.mem_filter.mp he').2
  | addColumn n col =>
      have hignore := Catalog.ignores_of_fresh hσ h.fresh
      have hset : Holds σ (rows.set n col.name (col.filler now)) :=
        fun e he => (hh e he).set (hignore e he)
      rw [effect]
      refine (Catalog.holds_modify_iff hset).trans ⟨fun hall => ?_,
        fun hfits e he hn => ?_⟩
      · obtain ⟨t, ht⟩ := mem_names.mp h.present
        have hcol := (TableDef.holds_addColumn (hset _ ht)).mp (hall _ ht rfl)
        rw [Rows.set_same] at hcol
        cases hrows : rows n with
        | nil => exact .inl hrows
        | cons r rs =>
            rw [hrows] at hcol
            have hadmits := hcol (r.set col.name (col.filler now))
              (List.mem_map.mpr ⟨r, List.mem_cons_self .., rfl⟩)
            rw [Row.set_same] at hadmits
            exact .inr hadmits
      · refine (TableDef.holds_addColumn (hset e he)).mpr fun r hr => ?_
        rw [hn, Rows.set_same] at hr
        obtain ⟨r₀, hr₀, rfl⟩ := List.mem_map.mp hr
        rw [Row.set_same]
        rcases hfits with hnil | hadmits
        · rw [hnil] at hr₀
          cases hr₀
        · exact hadmits
  | dropColumn n c =>
      refine iff_of_true (fun e he => ?_) trivial
      have hrelaxed : Holds (Catalog.modify σ n fun t => t.without c) rows :=
        hh.relax fun e _ _ => e.2.relaxes_without
      refine (hrelaxed e he).set (Catalog.ignores_of_fresh h.sound ?_ e he)
      intro e' he' hn hmem
      rw [effect] at he'
      obtain ⟨e₀, he₀, hname, hsame, -⟩ := of_mem_modify he'
      rw [hsame (hname.symm.trans hn), TableDef.mem_without] at hmem
      exact hmem.2 rfl
  | alterNullable n c b =>
      cases b with
      | true =>
          rw [effect]
          exact iff_of_true (hh.relax fun e _ _ => e.2.relaxes_setNullable)
            trivial
      | false =>
          obtain ⟨e, he, rfl, hc⟩ := h.present
          rw [effect]
          refine (Catalog.holds_modify_iff hh).trans ⟨fun hall => ?_,
            fun hfits e' he' hn => ?_⟩
          · exact (TableDef.holds_setNotNull (hh e he) hc).mp (hall e he rfl)
          · have hmem : (e.1, e'.2) ∈ σ := by
              rw [← hn]
              exact he'
            rw [hσ.unique he hmem] at hc
            rw [← hn] at hfits
            exact (TableDef.holds_setNotNull (hh e' he') hc).mpr hfits
  | createUnique name n columns =>
      rw [effect]
      refine (Catalog.holds_modify_iff hh).trans ⟨fun hall => ?_,
        fun hfits e he hn => ?_⟩
      · obtain ⟨t, ht⟩ := mem_names.mp h.present
        exact (TableDef.holds_addUnique (hh _ ht)).mp (hall _ ht rfl)
      · subst hn
        exact (TableDef.holds_addUnique (hh e he)).mpr hfits
  | createForeignKey name n referent c rc =>
      rw [effect]
      refine (Catalog.holds_modify_iff hh).trans ⟨fun hall => ?_,
        fun hfits e he hn => ?_⟩
      · obtain ⟨t, ht⟩ := mem_names.mp h.present
        exact (TableDef.holds_addForeignKey (hh _ ht)).mp (hall _ ht rfl)
      · subst hn
        exact (TableDef.holds_addForeignKey (hh e he)).mpr hfits
  | dropConstraint name n =>
      rw [effect]
      exact iff_of_true (hh.relax fun e _ _ => e.2.relaxes_dropConstraint)
        trivial
  | createIndex name n columns =>
      rw [effect]
      exact iff_of_true (hh.relax fun e _ _ => e.2.relaxes_indexes) trivial
  | dropIndex name n =>
      rw [effect]
      exact iff_of_true (hh.relax fun e _ _ => e.2.relaxes_indexes) trivial
  | truncate ns =>
      exact iff_of_true (fun e he => (hh e he).clear (h.present.2 e he)) trivial

end Op

-- =================================================================== executing

/-- Why a statement is refused: for the catalog's sake, or the rows'. -/
inductive Refusal
  | catalog
  | rows
deriving DecidableEq

/-- Execute a statement. -/
def Op.apply (now : V) (op : Op T V) (db : Database T V) :
    Except Refusal (Database T V) :=
  if ha : op.Allowed db.catalog then
    if hf : Catalog.Holds (op.effect db.catalog) (op.move now db.rows) then
      .ok ⟨op.effect db.catalog, op.move now db.rows, ha.sound,
        op.shaped_move db.shaped ha now, hf⟩
    else .error .rows
  else .error .catalog

/-- Execute statements in turn, as far as they go. -/
def run (now : V) : List (Op T V) → Database T V →
    Except Refusal (Database T V)
  | [], db => .ok db
  | op :: ops, db =>
      match op.apply now db with
      | .ok db' => run now ops db'
      | .error x => .error x

variable {now : V} {db db' db'' : Database T V} {ops ops' : List (Op T V)}

/-- A statement goes through exactly if the catalog allows it and the rows
fit it. -/
theorem apply_ok_iff : op.apply now db = .ok db'
    ↔ op.Allowed db.catalog ∧ op.Fits now db.rows
      ∧ db'.catalog = op.effect db.catalog
      ∧ db'.rows = op.move now db.rows := by
  unfold Op.apply
  constructor
  · intro h
    split at h
    next ha =>
      split at h
      next hf =>
        cases h
        have hfits := (Op.holds_iff_fits db.sound db.shaped db.holds ha now).mp hf
        exact ⟨ha, hfits, rfl, rfl⟩
      next => cases h
    next => cases h
  · rintro ⟨ha, hfits, hc, hr⟩
    rw [dif_pos ha, dif_pos
      ((Op.holds_iff_fits db.sound db.shaped db.holds ha now).mpr hfits)]
    exact congrArg Except.ok (Database.eq_of hc.symm hr.symm)

variable (now) in
/-- Where it does, it has a result. -/
theorem apply_ok (ha : op.Allowed db.catalog) (hf : op.Fits now db.rows) :
    ∃ db', op.apply now db = .ok db' :=
  ⟨⟨_, _, ha.sound, op.shaped_move db.shaped ha now,
    (Op.holds_iff_fits db.sound db.shaped db.holds ha now).mpr hf⟩,
    apply_ok_iff.mpr ⟨ha, hf, rfl, rfl⟩⟩

theorem run_cons (h : op.apply now db = .ok db') :
    run now (op :: ops) db = run now ops db' := by
  rw [run, h]

theorem run_cons_ok (h : run now (op :: ops) db = .ok db'') :
    ∃ db', op.apply now db = .ok db' ∧ run now ops db' = .ok db'' := by
  unfold run at h
  cases hop : op.apply now db with
  | error x =>
      rw [hop] at h
      cases h
  | ok db' =>
      rw [hop] at h
      exact ⟨db', rfl, h⟩

theorem run_append (h : run now ops db = .ok db') :
    run now (ops ++ ops') db = run now ops' db' := by
  induction ops generalizing db with
  | nil =>
      cases h
      rfl
  | cons op ops ih =>
      obtain ⟨db₁, hop, hrest⟩ := run_cons_ok h
      rw [List.cons_append, run_cons hop, ih hrest]

theorem run_append_ok (h : run now (ops ++ ops') db = .ok db'') :
    ∃ db', run now ops db = .ok db' ∧ run now ops' db' = .ok db'' := by
  induction ops generalizing db with
  | nil => exact ⟨db, rfl, h⟩
  | cons op ops ih =>
      obtain ⟨db₁, hop, hrest⟩ := run_cons_ok h
      obtain ⟨db', hops, hops'⟩ := ih hrest
      exact ⟨db', (run_cons hop).trans hops, hops'⟩

/-- What statements make of the catalog and of the rows. -/
def effects (σ : Catalog T V) : List (Op T V) → Catalog T V :=
  List.foldl Op.effect σ

def moves (now : V) (rows : Rows V) : List (Op T V) → Rows V :=
  List.foldl (Op.move now) rows

theorem run_ok (h : run now ops db = .ok db') :
    db'.catalog = effects db.catalog ops ∧ db'.rows = moves now db.rows ops := by
  induction ops generalizing db with
  | nil =>
      cases h
      exact ⟨rfl, rfl⟩
  | cons op ops ih =>
      obtain ⟨db₁, hop, hrest⟩ := run_cons_ok h
      obtain ⟨-, -, hc, hr⟩ := apply_ok_iff.mp hop
      obtain ⟨hc', hr'⟩ := ih hrest
      rw [hc', hr', hc, hr]
      exact ⟨rfl, rfl⟩

end Holds

end Ddl
