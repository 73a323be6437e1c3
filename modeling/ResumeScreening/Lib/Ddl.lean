/-
The statements that change a catalog, and what they do to the rows.

`Op.effect` is what a statement makes of the catalog and `Op.move` what it
makes of the rows. It is refused where something it names is missing, where
the catalog it leaves would not be sound, or where the rows do not meet
that catalog: `Op.apply` goes from database to database.

`apply_ok_iff` says the last without the constraints that were met before:
`Op.Fits` is all that a statement asks of the rows. So most statements ask
nothing, and one that asks something can be judged from what it asks.
-/
import ResumeScreening.Lib.Catalog

namespace Ddl

variable {T V : Type}

/-- The statements. -/
inductive Op (T V : Type)
  | createTable (name : String) (table : TableDef T V)
  | dropTable (name : String)
  | addColumn (table : String) (column : Column T V)
  | dropColumn (table column : String)
  | alterNullable (table column : String) (nullable : Bool)
  | createIndex (name table : String) (columns : List String)
  | dropIndex (name table : String)
  | createUnique (name table : String) (columns : List String)
  | createForeignKey (name source referent localCol remoteCol : String)
  | dropConstraint (name table : String)
  | truncate (tables : List String)
deriving DecidableEq

-- ================================================================ the catalog

namespace Catalog

/-- Change the definition of one table. -/
def modify (σ : Catalog T V) (n : String)
    (f : TableDef T V → TableDef T V) : Catalog T V :=
  σ.map fun e => if e.1 = n then (e.1, f e.2) else e

variable {σ : Catalog T V} {n : String} {f g : TableDef T V → TableDef T V}

theorem names_modify : names (modify σ n f) = names σ := by
  unfold names modify
  rw [List.map_map]
  refine List.map_congr_left fun e _ => ?_
  show (if e.1 = n then (e.1, f e.2) else e).1 = e.1
  split <;> rfl

theorem modify_modify :
    modify (modify σ n f) n g = modify σ n fun t => g (f t) := by
  unfold modify
  rw [List.map_map]
  refine List.map_congr_left fun e _ => ?_
  by_cases h : e.1 = n
  · simp [h]
  · simp [h]

theorem modify_eq (h : ∀ t, (n, t) ∈ σ → f t = t) : modify σ n f = σ := by
  unfold modify
  refine (List.map_congr_left fun e he => ?_).trans (List.map_id σ)
  by_cases hn : e.1 = n
  · subst hn
    rw [if_pos rfl, h e.2 he]
    rfl
  · rw [if_neg hn]
    rfl

theorem mem_modify {t : TableDef T V} (h : (n, t) ∈ σ) :
    (n, f t) ∈ modify σ n f :=
  List.mem_map.mpr ⟨(n, t), h, if_pos rfl⟩

theorem of_mem_modify {e : String × TableDef T V} (h : e ∈ modify σ n f) :
    ∃ e₀ ∈ σ, e.1 = e₀.1 ∧ (e₀.1 = n → e.2 = f e₀.2)
      ∧ (e₀.1 ≠ n → e.2 = e₀.2) := by
  obtain ⟨e₀, he₀, rfl⟩ := List.mem_map.mp h
  refine ⟨e₀, he₀, ?_⟩
  by_cases hn : e₀.1 = n
  · rw [if_pos hn]
    exact ⟨rfl, fun _ => rfl, fun hne => absurd hn hne⟩
  · rw [if_neg hn]
    exact ⟨rfl, fun heq => absurd heq hn, fun _ => rfl⟩

end Catalog

/-- The table without a column, and without what is about the column. -/
def TableDef.without (t : TableDef T V) (c : String) : TableDef T V :=
  { t with
    columns := t.columns.filter fun col => col.name != c
    uniques := t.uniques.filter fun k => !k.columns.contains c
    foreignKeys := t.foreignKeys.filter fun f => f.column != c
    indexes := t.indexes.filter fun x => !x.columns.contains c }

def TableDef.setNullable (t : TableDef T V) (c : String) (nullable : Bool) :
    TableDef T V :=
  { t with columns := t.columns.map fun col =>
      if col.name = c then { col with nullable := nullable } else col }

def TableDef.dropConstraint (t : TableDef T V) (name : String) :
    TableDef T V :=
  { t with
    uniques := t.uniques.filter fun k => k.name != some name
    foreignKeys := t.foreignKeys.filter fun f => f.name != some name }

namespace Op

/-- What a statement makes of the catalog. -/
def effect (σ : Catalog T V) : Op T V → Catalog T V
  | .createTable n t => σ ++ [(n, t)]
  | .dropTable n => σ.filter fun e => e.1 != n
  | .addColumn n c => Catalog.modify σ n fun t =>
      { t with columns := t.columns ++ [c] }
  | .dropColumn n c => Catalog.modify σ n fun t => t.without c
  | .alterNullable n c b => Catalog.modify σ n fun t => t.setNullable c b
  | .createIndex name n columns => Catalog.modify σ n fun t =>
      { t with indexes := t.indexes ++ [⟨name, columns⟩] }
  | .dropIndex name n => Catalog.modify σ n fun t =>
      { t with indexes := t.indexes.filter fun x => x.name != name }
  | .createUnique name n columns => Catalog.modify σ n fun t =>
      { t with uniques := t.uniques ++ [⟨some name, columns⟩] }
  | .createForeignKey name n referent c rc => Catalog.modify σ n fun t =>
      { t with
        foreignKeys := t.foreignKeys ++ [⟨some name, c, referent, rc⟩] }
  | .dropConstraint name n => Catalog.modify σ n fun t =>
      t.dropConstraint name
  | .truncate _ => σ

/-- What a statement names is there. A table that a foreign key of another
refers to is truncated only along with the other. -/
def Present (σ : Catalog T V) : Op T V → Prop
  | .createTable .. => True
  | .dropTable n | .addColumn n _ | .createIndex _ n _ | .createUnique _ n _
  | .createForeignKey _ n .. => n ∈ Catalog.names σ
  | .dropColumn n c | .alterNullable n c _ =>
      ∃ e ∈ σ, e.1 = n ∧ c ∈ e.2.columnNames
  | .dropIndex name n => ∃ e ∈ σ, e.1 = n ∧ ∃ x ∈ e.2.indexes, x.name = name
  | .dropConstraint name n => ∃ e ∈ σ, e.1 = n ∧ name ∈ e.2.constraintNames
  | .truncate ns => (∀ n ∈ ns, n ∈ Catalog.names σ)
      ∧ ∀ e ∈ σ, e.1 ∈ ns ∨ ∀ f ∈ e.2.foreignKeys, f.refTable ∉ ns

instance (σ : Catalog T V) (op : Op T V) : Decidable (op.Present σ) := by
  cases op <;> unfold Present <;> infer_instance

/-- The catalog lets the statement pass. -/
structure Allowed (σ : Catalog T V) (op : Op T V) : Prop where
  present : op.Present σ
  sound : Catalog.Sound (op.effect σ)

instance (σ : Catalog T V) (op : Op T V) : Decidable (op.Allowed σ) :=
  decidable_of_iff (op.Present σ ∧ Catalog.Sound (op.effect σ))
    ⟨fun ⟨h₁, h₂⟩ => ⟨h₁, h₂⟩, fun ⟨h₁, h₂⟩ => ⟨h₁, h₂⟩⟩

end Op

-- =================================================================== the rows

/-- What a new column holds in the rows there are. -/
def Column.filler (c : Column T V) (now : V) : Option V :=
  match c.serverDefault with
  | some (.value v) => some v
  | some .now => some now
  | none => none

/-- The rows, with a column of one table set. -/
def Rows.set (rows : Rows V) (n c : String) (v : Option V) : Rows V :=
  fun m => if m = n then (rows n).map fun r => r.set c v else rows m

/-- The rows, some tables emptied. -/
def Rows.clear (rows : Rows V) (ns : List String) : Rows V :=
  fun m => if m ∈ ns then [] else rows m

namespace Op

/-- What a statement makes of the rows. -/
def move (now : V) (rows : Rows V) : Op T V → Rows V
  | .dropTable n => rows.clear [n]
  | .addColumn n c => rows.set n c.name (c.filler now)
  | .dropColumn n c => rows.set n c none
  | .truncate ns => rows.clear ns
  | _ => rows

/-- What a statement asks of the rows. -/
def Fits [Typing T V] [DecidableEq V] (now : V) (rows : Rows V) :
    Op T V → Prop
  | .addColumn n c => rows n = [] ∨ c.admits (c.filler now) = true
  | .alterNullable n c false => ∀ r ∈ rows n, r c ≠ none
  | .createUnique _ n columns =>
      (rows n).Pairwise fun a b => clashes columns a b = false
  | .createForeignKey _ n referent c rc => ∀ r ∈ rows n,
      r c = none ∨ ∃ r' ∈ rows referent, r' rc = r c
  | _ => True

end Op

section Rows

variable {rows : Rows V} {n c : String} {v : Option V}

theorem Rows.set_same : rows.set n c v n = (rows n).map fun r => r.set c v :=
  if_pos rfl

theorem Rows.set_other {m : String} (h : m ≠ n) : rows.set n c v m = rows m :=
  if_neg h

theorem Rows.clear_mem {ns : List String} (h : n ∈ ns) :
    rows.clear ns n = [] := if_pos h

theorem Rows.clear_other {ns : List String} (h : n ∉ ns) :
    rows.clear ns n = rows n := if_neg h

/-- A row of a table with a column set, and the row it was. -/
theorem Rows.mem_set {m : String} {r : Row V} (h : r ∈ rows.set n c v m) :
    ∃ r₀ ∈ rows m, ∀ c', (m = n → c' ≠ c) → r c' = r₀ c' := by
  by_cases hm : m = n
  · subst hm
    rw [Rows.set_same] at h
    obtain ⟨r₀, hr₀, rfl⟩ := List.mem_map.mp h
    exact ⟨r₀, hr₀, fun c' hc' => r₀.set_other (hc' rfl) v⟩
  · rw [Rows.set_other hm] at h
    exact ⟨r, h, fun _ _ => rfl⟩

/-- A row, and what it is with a column of some table set. -/
theorem Rows.set_mem {m : String} {r : Row V} (h : r ∈ rows m) :
    ∃ r' ∈ rows.set n c v m, ∀ c', (m = n → c' ≠ c) → r' c' = r c' := by
  by_cases hm : m = n
  · subst hm
    refine ⟨r.set c v, ?_, fun c' hc' => r.set_other (hc' rfl) v⟩
    rw [Rows.set_same]
    exact List.mem_map_of_mem h
  · refine ⟨r, ?_, fun _ _ => rfl⟩
    rw [Rows.set_other hm]
    exact h

end Rows

-- ======================================================= keeping constraints

section Holds

variable [Typing T V] [DecidableEq V] {t t' : TableDef T V} {rows : Rows V}
  {m n c : String} {v : Option V}

/-- A table whose constraints are among these, or weaker. -/
structure TableDef.Relaxes (t' t : TableDef T V) : Prop where
  columns : ∀ c' ∈ t'.columns, ∃ c ∈ t.columns, c.name = c'.name
    ∧ c.type = c'.type ∧ (c.nullable = true → c'.nullable = true)
  keys : ∀ k ∈ t'.keys, k ∈ t.keys
  foreign : ∀ f ∈ t'.foreignKeys, f ∈ t.foreignKeys

theorem TableDef.Holds.relax (h : t.Holds rows m) (hr : t'.Relaxes t) :
    t'.Holds rows m where
  columns r hmem c' hc' := by
    obtain ⟨c, hc, hname, htype, hnull⟩ := hr.columns c' hc'
    have hadmits := h.columns r hmem c hc
    rw [hname] at hadmits
    cases hv : r c'.name with
    | none =>
        rw [hv] at hadmits
        exact hnull hadmits
    | some v =>
        rw [hv] at hadmits
        show Typing.fits c'.type v = true
        rw [← htype]
        exact hadmits
  keys k hk := h.keys k (hr.keys k hk)
  references f hf := h.references f (hr.foreign f hf)

/-- No constraint is about this column of this table. -/
structure TableDef.Ignores (t : TableDef T V) (m n c : String) : Prop where
  columns : m = n → c ∉ t.columnNames
  keys : m = n → ∀ k ∈ t.keys, c ∉ k
  foreign : ∀ f ∈ t.foreignKeys, (m = n → f.column ≠ c)
    ∧ (f.refTable = n → f.refColumn ≠ c)

/-- So it may be set to anything. -/
theorem TableDef.Holds.set (h : t.Holds rows m) (hi : t.Ignores m n c) :
    t.Holds (rows.set n c v) m where
  columns r hr col hcol := by
    obtain ⟨r₀, hr₀, hsame⟩ := Rows.mem_set hr
    rw [hsame col.name fun hm heq =>
      hi.columns hm (heq ▸ List.mem_map_of_mem hcol)]
    exact h.columns r₀ hr₀ col hcol
  keys k hk := by
    by_cases hm : m = n
    · subst hm
      rw [Rows.set_same]
      refine List.pairwise_map.mpr ((h.keys k hk).imp fun {a b} hab => ?_)
      rw [← hab]
      refine clashes_congr (fun c' hc' => ?_) fun c' hc' => ?_
      · exact a.set_other (ne_of_mem_of_not_mem hc' (hi.keys rfl k hk)) v
      · exact b.set_other (ne_of_mem_of_not_mem hc' (hi.keys rfl k hk)) v
    · rw [Rows.set_other hm]
      exact h.keys k hk
  references f hf r hr := by
    obtain ⟨r₀, hr₀, hsame⟩ := Rows.mem_set hr
    obtain ⟨hcol, href⟩ := hi.foreign f hf
    rw [hsame f.column hcol]
    rcases h.references f hf r₀ hr₀ with hnone | ⟨r', hr', heq⟩
    · exact .inl hnone
    · obtain ⟨r'', hr'', hsame'⟩ := Rows.set_mem (n := n) (c := c) (v := v) hr'
      exact .inr ⟨r'', hr'', (hsame' _ href).trans heq⟩

/-- Tables that nothing else refers to may be emptied. -/
theorem TableDef.Holds.clear {ns : List String} (h : t.Holds rows m)
    (hf : m ∈ ns ∨ ∀ f ∈ t.foreignKeys, f.refTable ∉ ns) :
    t.Holds (rows.clear ns) m := by
  by_cases hm : m ∈ ns
  · exact t.holds_empty (Rows.clear_mem hm)
  · have hrows : rows.clear ns m = rows m := Rows.clear_other hm
    refine ⟨fun r hr => ?_, fun k hk => ?_, fun f hmem r hr => ?_⟩
    · rw [hrows] at hr
      exact h.columns r hr
    · rw [hrows]
      exact h.keys k hk
    · rw [hrows] at hr
      rw [Rows.clear_other ((hf.resolve_left hm) f hmem)]
      exact h.references f hmem r hr

end Holds

end Ddl
