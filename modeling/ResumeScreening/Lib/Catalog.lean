/-
What a relational database declares of its tables, and what it stores in
them.

A `Catalog` names tables, each with its columns, keys, foreign keys and
indexes. It is `Sound` if the names are distinct and every constraint is about
columns that are there. `Holds` says that stored rows meet the declared
constraints, under SQL's rules for NULL: a key forbids two rows that agree
on all its columns, but never where one of them is NULL, and a foreign key
that is NULL refers to nothing. A row is a function of the column's name,
NULL where it is `none`, and `Shaped` says that it is NULL outside the
columns of its table.

A `Database` is a catalog with rows of that kind, so that a database that
violates its own catalog cannot be built.
-/
import Mathlib.Data.List.Nodup
import Mathlib.Data.List.Pairwise

namespace Ddl

/-- Which values a column of a type takes. -/
class Typing (T V : Type) where
  fits : T → V → Bool

/-- What fills a column where nothing else does: a fixed value, or the time
of the transaction. -/
inductive Default (V : Type)
  | value (v : V)
  | now
deriving DecidableEq

structure Column (T V : Type) where
  name : String
  type : T
  nullable : Bool
  serverDefault : Option (Default V) := none
deriving DecidableEq

/-- A unique constraint. -/
structure Key where
  name : Option String
  columns : List String
deriving DecidableEq

/-- A column that refers to a column of a table. -/
structure ForeignKey where
  name : Option String
  column : String
  refTable : String
  refColumn : String
deriving DecidableEq

structure Index where
  name : String
  columns : List String
deriving DecidableEq

structure TableDef (T V : Type) where
  columns : List (Column T V)
  primaryKey : List String
  uniques : List Key := []
  foreignKeys : List ForeignKey := []
  indexes : List Index := []
deriving DecidableEq

/-- The tables, by name. -/
abbrev Catalog (T V : Type) : Type := List (String × TableDef T V)

/-- A row: a value for each column, `none` where it is NULL. -/
abbrev Row (V : Type) : Type := String → Option V

/-- The rows of each table. -/
abbrev Rows (V : Type) : Type := String → List (Row V)

variable {T V : Type}

-- ============================================================ the declarations

namespace TableDef

variable (t : TableDef T V)

def columnNames : List String := t.columns.map Column.name

/-- What no two rows may agree on. -/
def keys : List (List String) := t.primaryKey :: t.uniques.map Key.columns

/-- The names of the constraints that have one. -/
def constraintNames : List String :=
  t.uniques.filterMap Key.name ++ t.foreignKeys.filterMap ForeignKey.name

/-- The definition makes sense, whatever other tables there are. -/
structure Sound : Prop where
  columns : t.columnNames.Nodup
  keyed : ∀ k ∈ t.keys, k ≠ [] ∧ ∀ c ∈ k, c ∈ t.columnNames
  primary : ∀ c ∈ t.columns, c.name ∈ t.primaryKey → c.nullable = false
  foreign : ∀ f ∈ t.foreignKeys, f.column ∈ t.columnNames
  indexed : ∀ x ∈ t.indexes, ∀ c ∈ x.columns, c ∈ t.columnNames
  constraints : t.constraintNames.Nodup

instance : Decidable t.Sound :=
  decidable_of_iff
    (t.columnNames.Nodup
      ∧ (∀ k ∈ t.keys, k ≠ [] ∧ ∀ c ∈ k, c ∈ t.columnNames)
      ∧ (∀ c ∈ t.columns, c.name ∈ t.primaryKey → c.nullable = false)
      ∧ (∀ f ∈ t.foreignKeys, f.column ∈ t.columnNames)
      ∧ (∀ x ∈ t.indexes, ∀ c ∈ x.columns, c ∈ t.columnNames)
      ∧ t.constraintNames.Nodup)
    ⟨fun ⟨h₁, h₂, h₃, h₄, h₅, h₆⟩ => ⟨h₁, h₂, h₃, h₄, h₅, h₆⟩,
      fun ⟨h₁, h₂, h₃, h₄, h₅, h₆⟩ => ⟨h₁, h₂, h₃, h₄, h₅, h₆⟩⟩

end TableDef

namespace Catalog

variable (σ : Catalog T V)

def names : List String := σ.map Prod.fst

def indexNames : List String :=
  σ.flatMap fun e => e.2.indexes.map Index.name

/-- The foreign key's target is there, and is a key. -/
def Refers (f : ForeignKey) : Prop :=
  ∃ e ∈ σ, e.1 = f.refTable ∧ [f.refColumn] ∈ e.2.keys

instance (f : ForeignKey) : Decidable (Refers σ f) :=
  inferInstanceAs (Decidable (∃ e ∈ σ, _))

/-- The declarations make sense together. -/
structure Sound : Prop where
  names : (names σ).Nodup
  indexes : (indexNames σ).Nodup
  tables : ∀ e ∈ σ, e.2.Sound
  foreign : ∀ e ∈ σ, ∀ f ∈ e.2.foreignKeys, Refers σ f

instance : Decidable (Sound σ) :=
  decidable_of_iff
    ((names σ).Nodup ∧ (indexNames σ).Nodup ∧ (∀ e ∈ σ, e.2.Sound)
      ∧ ∀ e ∈ σ, ∀ f ∈ e.2.foreignKeys, Refers σ f)
    ⟨fun ⟨h₁, h₂, h₃, h₄⟩ => ⟨h₁, h₂, h₃, h₄⟩,
      fun ⟨h₁, h₂, h₃, h₄⟩ => ⟨h₁, h₂, h₃, h₄⟩⟩

variable {σ}

/-- A table of a sound catalog has one definition. -/
theorem Sound.unique (h : Sound σ) {n : String} {t t' : TableDef T V}
    (ht : (n, t) ∈ σ) (ht' : (n, t') ∈ σ) : t = t' := by
  have hpair := List.inj_on_of_nodup_map h.names ht ht' rfl
  exact congrArg Prod.snd hpair

end Catalog

-- ==================================================================== the rows

/-- Two rows a key forbids together. -/
def clashes [DecidableEq V] (k : List String) (a b : Row V) : Bool :=
  k.all fun c => (a c).isSome && a c == b c

/-- One of the key's columns is NULL: nothing clashes. -/
theorem clashes_null [DecidableEq V] {k : List String} {c : String}
    (hc : c ∈ k) {a : Row V} (ha : a c = none) (b : Row V) :
    clashes k a b = false := by
  cases hall : clashes k a b with
  | false => rfl
  | true =>
      have hsome := List.all_eq_true.mp hall c hc
      rw [ha] at hsome
      cases hsome

/-- A row with one column replaced. -/
def Row.set (r : Row V) (c : String) (v : Option V) : Row V :=
  fun c' => if c' = c then v else r c'

@[simp] theorem Row.set_same (r : Row V) (c : String) (v : Option V) :
    r.set c v c = v := if_pos rfl

theorem Row.set_other (r : Row V) {c c' : String} (h : c' ≠ c)
    (v : Option V) : r.set c v c' = r c' := if_neg h

/-- A key is about its own columns only. -/
theorem clashes_congr [DecidableEq V] {k : List String} {a a' b b' : Row V}
    (ha : ∀ c ∈ k, a' c = a c) (hb : ∀ c ∈ k, b' c = b c) :
    clashes k a' b' = clashes k a b := by
  unfold clashes
  refine Bool.eq_iff_iff.mpr ?_
  rw [List.all_eq_true, List.all_eq_true]
  refine forall_congr' fun c => forall_congr' fun hc => ?_
  rw [ha c hc, hb c hc]

section Holds

variable [Typing T V]

/-- May the column take the value? -/
def Column.admits (c : Column T V) : Option V → Bool
  | none => c.nullable
  | some v => Typing.fits c.type v

variable [DecidableEq V]

/-- The table's rows meet its constraints. -/
structure TableDef.Holds (t : TableDef T V) (rows : Rows V) (n : String) :
    Prop where
  columns : ∀ r ∈ rows n, ∀ c ∈ t.columns, c.admits (r c.name) = true
  keys : ∀ k ∈ t.keys, (rows n).Pairwise fun a b => clashes k a b = false
  references : ∀ f ∈ t.foreignKeys, ∀ r ∈ rows n,
    r f.column = none ∨ ∃ r' ∈ rows f.refTable, r' f.refColumn = r f.column

instance (t : TableDef T V) (rows : Rows V) (n : String) :
    Decidable (t.Holds rows n) :=
  decidable_of_iff
    ((∀ r ∈ rows n, ∀ c ∈ t.columns, c.admits (r c.name) = true)
      ∧ (∀ k ∈ t.keys, (rows n).Pairwise fun a b => clashes k a b = false)
      ∧ ∀ f ∈ t.foreignKeys, ∀ r ∈ rows n,
        r f.column = none ∨ ∃ r' ∈ rows f.refTable, r' f.refColumn = r f.column)
    ⟨fun ⟨h₁, h₂, h₃⟩ => ⟨h₁, h₂, h₃⟩, fun ⟨h₁, h₂, h₃⟩ => ⟨h₁, h₂, h₃⟩⟩

/-- An empty table meets any. -/
theorem TableDef.holds_empty (t : TableDef T V) {rows : Rows V} {n : String}
    (h : rows n = []) : t.Holds rows n where
  columns r hr := by
    rw [h] at hr
    cases hr
  keys k _ := by
    rw [h]
    exact .nil
  references f _ r hr := by
    rw [h] at hr
    cases hr

/-- Every table's rows meet its constraints. -/
def Catalog.Holds (σ : Catalog T V) (rows : Rows V) : Prop :=
  ∀ e ∈ σ, e.2.Holds rows e.1

instance (σ : Catalog T V) (rows : Rows V) : Decidable (Catalog.Holds σ rows) :=
  inferInstanceAs (Decidable (∀ e ∈ σ, e.2.Holds rows e.1))

end Holds

-- =================================================================== agreement

/-- What a foreign key says, whatever its name. -/
def ForeignKey.says (f : ForeignKey) : String × String × String :=
  (f.column, f.refTable, f.refColumn)

/-- Two definitions say the same, up to order and the names of
constraints. -/
structure TableDef.Like (t t' : TableDef T V) : Prop where
  columns : t.columns.Perm t'.columns
  keys : t.keys.Perm t'.keys
  foreign : (t.foreignKeys.map ForeignKey.says).Perm
    (t'.foreignKeys.map ForeignKey.says)
  indexes : t.indexes.Perm t'.indexes

instance [DecidableEq T] [DecidableEq V] (t t' : TableDef T V) :
    Decidable (t.Like t') :=
  decidable_of_iff
    (t.columns.Perm t'.columns ∧ t.keys.Perm t'.keys
      ∧ (t.foreignKeys.map ForeignKey.says).Perm
        (t'.foreignKeys.map ForeignKey.says)
      ∧ t.indexes.Perm t'.indexes)
    ⟨fun ⟨h₁, h₂, h₃, h₄⟩ => ⟨h₁, h₂, h₃, h₄⟩,
      fun ⟨h₁, h₂, h₃, h₄⟩ => ⟨h₁, h₂, h₃, h₄⟩⟩

theorem TableDef.Like.symm {t t' : TableDef T V} (h : t.Like t') : t'.Like t :=
  ⟨h.columns.symm, h.keys.symm, h.foreign.symm, h.indexes.symm⟩

/-- Two catalogs declare the same tables. -/
def Catalog.Alike (σ σ' : Catalog T V) : Prop :=
  (∀ e ∈ σ, ∃ e' ∈ σ', e'.1 = e.1 ∧ e.2.Like e'.2)
    ∧ ∀ e' ∈ σ', ∃ e ∈ σ, e.1 = e'.1 ∧ e.2.Like e'.2

instance [DecidableEq T] [DecidableEq V] (σ σ' : Catalog T V) :
    Decidable (Catalog.Alike σ σ') :=
  inferInstanceAs (Decidable (_ ∧ _))

section Alike

variable [Typing T V] [DecidableEq V] {rows : Rows V}

/-- Definitions that say the same are met by the same rows. -/
theorem TableDef.Like.holds {t t' : TableDef T V} (h : t.Like t') {n : String}
    (ht : t.Holds rows n) : t'.Holds rows n where
  columns r hr c hc := ht.columns r hr c (h.columns.mem_iff.mpr hc)
  keys k hk := ht.keys k (h.keys.mem_iff.mpr hk)
  references f hf r hr := by
    have hmem : f.says ∈ t.foreignKeys.map ForeignKey.says :=
      h.foreign.mem_iff.mpr (List.mem_map_of_mem hf)
    obtain ⟨f₀, hf₀, heq⟩ := List.mem_map.mp hmem
    unfold ForeignKey.says at heq
    rw [Prod.mk.injEq, Prod.mk.injEq] at heq
    obtain ⟨hcol, htable, href⟩ := heq
    have hholds := ht.references f₀ hf₀ r hr
    rw [hcol, htable, href] at hholds
    exact hholds

theorem Catalog.Alike.holds_iff {σ σ' : Catalog T V} (h : Catalog.Alike σ σ') :
    Catalog.Holds σ rows ↔ Catalog.Holds σ' rows := by
  constructor
  · intro hσ e' he'
    obtain ⟨e, he, hname, hlike⟩ := h.2 e' he'
    rw [← hname]
    exact hlike.holds (hσ e he)
  · intro hσ' e he
    obtain ⟨e', he', hname, hlike⟩ := h.1 e he
    rw [← hname]
    exact hlike.symm.holds (hσ' e' he')

end Alike

/-- There is nothing but what the catalog names. -/
structure Catalog.Shaped (σ : Catalog T V) (rows : Rows V) : Prop where
  tables : ∀ n, n ∉ Catalog.names σ → rows n = []
  columns : ∀ e ∈ σ, ∀ r ∈ rows e.1, ∀ c, c ∉ e.2.columnNames → r c = none

section Written

/-- A row written out. -/
def Row.written (fields : List (String × V)) : Row V := fun c => fields.lookup c

/-- Rows written out, table by table. -/
def Rows.written (data : List (String × List (List (String × V)))) : Rows V :=
  fun n => ((data.lookup n).getD []).map Row.written

/-- Written rows are in shape if they are of tables and columns there are. -/
theorem Catalog.shaped_written {σ : Catalog T V}
    {data : List (String × List (List (String × V)))}
    (htables : ∀ p ∈ data, p.1 ∈ Catalog.names σ)
    (hcolumns : ∀ e ∈ σ, ∀ fields ∈ (data.lookup e.1).getD [],
      ∀ f ∈ fields, f.1 ∈ e.2.columnNames) :
    Catalog.Shaped σ (Rows.written data) where
  tables n hn := by
    unfold Rows.written
    rw [List.lookup_eq_none_iff.mpr fun p hp => bne_iff_ne.mpr ?_]
    · rfl
    · exact (ne_of_mem_of_not_mem (htables p hp) hn).symm
  columns e he r hr c hc := by
    obtain ⟨fields, hfields, rfl⟩ := List.mem_map.mp hr
    refine List.lookup_eq_none_iff.mpr fun f hf => bne_iff_ne.mpr ?_
    exact (ne_of_mem_of_not_mem (hcolumns e he fields hfields f hf) hc).symm

end Written

/-- A catalog, and rows that meet it. -/
structure Database (T V : Type) [Typing T V] [DecidableEq V] where
  catalog : Catalog T V
  rows : Rows V
  sound : Catalog.Sound catalog
  shaped : Catalog.Shaped catalog rows
  holds : Catalog.Holds catalog rows

namespace Database

variable [Typing T V] [DecidableEq V]

/-- Databases are told apart by their catalog and rows. -/
theorem eq_of {a b : Database T V} (hc : a.catalog = b.catalog)
    (hr : a.rows = b.rows) : a = b := by
  cases a
  cases b
  cases hc
  cases hr
  rfl

/-- No tables. -/
def empty (T V : Type) [Typing T V] [DecidableEq V] : Database T V where
  catalog := []
  rows _ := []
  sound := ⟨.nil, .nil, fun _ h => (by cases h), fun _ h => (by cases h)⟩
  shaped := ⟨fun _ _ => rfl, fun _ h => (by cases h)⟩
  holds := fun _ h => (by cases h)

end Database

end Ddl
