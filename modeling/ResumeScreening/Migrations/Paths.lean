/-
Where the migrations lead.

What they do to a catalog is settled by running them on catalogs alone,
and so is that no upgrade can meet rows it does not fit: these are the
closed facts below, checked by evaluation. The results are about every
database of a version, whatever it stores: an upgrade always succeeds and
loses no value, except that 11d5ffa87cbb empties the tables it finds
(`upgrade_head`); a downgrade leads back to where the upgrade started
(`downgrade_undoes`); and one across 6bf8f532381d fails while a candidate
has no name (`downgrade_iff`).
-/
import ResumeScreening.Migrations.Revisions

namespace ResumeScreening.Migrations

open Ddl

variable {d d' : Deployed} {now : Value}

-- ================================================================ one revision

/-- The revision that follows a position. -/
def revisionAt (k : Nat) : Revision := revisions.getD k initialSchema

/-- The upgrade of a revision fits whatever is stored, and but for
11d5ffa87cbb the downgrade takes back statement by statement what it
added. -/
theorem upgrades_checked : ∀ k < 5,
    foreseen {} (catalogAt k) (revisionAt k).upgrade = true
      ∧ (k ≠ 1 →
        inverses (revisionAt k).upgrade = some (revisionAt k).downgrade
          ∧ changesAll (catalogAt k) (revisionAt k).upgrade = true) := by
  decide +kernel

theorem upgrade_foreseen {k : Nat} (h : k < 5) :
    foreseen {} (catalogAt k) (revisionAt k).upgrade = true :=
  (upgrades_checked k h).1

theorem downgrade_inverse {k : Nat} (h : k < 5) (h1 : k ≠ 1) :
    inverses (revisionAt k).upgrade = some (revisionAt k).downgrade
      ∧ changesAll (catalogAt k) (revisionAt k).upgrade = true :=
  (upgrades_checked k h).2 h1

/-- The downgrade leads back as far as the catalog goes, and but for
6bf8f532381d it fits whatever is stored. -/
theorem downgrades_checked : ∀ k < 5,
    effects (catalogAt (k + 1)) (revisionAt k).downgrade = catalogAt k
      ∧ (k ≠ 2 →
        foreseen {} (catalogAt (k + 1)) (revisionAt k).downgrade = true) := by
  decide +kernel

theorem downgrade_effects {k : Nat} (h : k < 5) :
    effects (catalogAt (k + 1)) (revisionAt k).downgrade = catalogAt k :=
  (downgrades_checked k h).1

theorem downgrade_foreseen {k : Nat} (h : k < 5) (h2 : k ≠ 2) :
    foreseen {} (catalogAt (k + 1)) (revisionAt k).downgrade = true :=
  (downgrades_checked k h).2 h2

/-- The downgrade of 6bf8f532381d asks for the candidates' names. -/
def requireNames : Statement := .alterNullable "candidates" "full_name" false

/-- Otherwise an upgrade only adds columns to what there is, and a downgrade
before 6bf8f532381d leaves the candidates alone. What 11d5ffa87cbb has
emptied stays empty, and nothing after 6bf8f532381d is about the status
that it adds. -/
theorem paths_checked :
    (∀ k < 6, (k ≠ 1 → ∀ e ∈ catalogAt k,
        (∀ op ∈ upgrades k, op.empties e.1 = false)
          ∧ ∀ c ∈ e.2.columnNames,
            c ∉ (upgrades k).flatMap (Op.columnOf e.1))
      ∧ (∀ op ∈ downgrades k 3, op.empties "candidates" = false)
      ∧ (downgrades k 3).flatMap (Op.columnOf "candidates") = []
      ∧ (k < 2 → "candidates" ∈ (Facts.afterAll {} (upgrades k)).empty))
    ∧ (∀ e ∈ catalogAt 1, e.1 ∈ (Facts.afterAll {} (upgrades 1)).empty
      ∧ e.1 ∈ ((Facts.afterAll {} (upgrades 1)).afterAll
        (downgrades 5 1)).empty)
    ∧ (requireNames.Allowed (catalogAt 3)
      ∧ foreseen {} (requireNames.effect (catalogAt 3))
        [.dropColumn "candidates" "status"] = true)
    ∧ (∀ op ∈ (upgrades 2).tail, op.empties "candidates" = false)
    ∧ "status" ∉ (upgrades 2).tail.flatMap (Op.columnOf "candidates") := by
  decide +kernel

theorem upgrades_add {k : Nat} (h : k < 6) (h1 : k ≠ 1) :
    ∀ e ∈ catalogAt k, (∀ op ∈ upgrades k, op.empties e.1 = false)
      ∧ ∀ c ∈ e.2.columnNames,
        c ∉ (upgrades k).flatMap (Op.columnOf e.1) :=
  (paths_checked.1 k h).1 h1

theorem candidates_apart {k : Nat} (h : k < 6) :
    (∀ op ∈ downgrades k 3, op.empties "candidates" = false)
      ∧ (downgrades k 3).flatMap (Op.columnOf "candidates") = [] :=
  ⟨(paths_checked.1 k h).2.1, (paths_checked.1 k h).2.2.1⟩

theorem candidates_emptied {k : Nat} (h : k < 2) :
    "candidates" ∈ (Facts.afterAll {} (upgrades k)).empty :=
  (paths_checked.1 k (by omega)).2.2.2 h

theorem emptied : ∀ e ∈ catalogAt 1,
    e.1 ∈ (Facts.afterAll {} (upgrades 1)).empty
      ∧ e.1 ∈ ((Facts.afterAll {} (upgrades 1)).afterAll
        (downgrades 5 1)).empty :=
  paths_checked.2.1

theorem requireNames_allowed : requireNames.Allowed (catalogAt 3)
    ∧ foreseen {} (requireNames.effect (catalogAt 3))
      [.dropColumn "candidates" "status"] = true :=
  paths_checked.2.2.1

theorem status_alone :
    (∀ op ∈ (upgrades 2).tail, op.empties "candidates" = false)
      ∧ "status" ∉ (upgrades 2).tail.flatMap (Op.columnOf "candidates") :=
  paths_checked.2.2.2

-- ======================================================================= paths

section Paths

variable {k j i : Nat}

theorem revisionAt_eq (h : k < revisions.length) :
    revisionAt k = revisions[k] := by
  unfold revisionAt
  rw [List.getD_eq_getElem?_getD, List.getElem?_eq_getElem h,
    Option.getD_some]

theorem drop_revisions (h : k < 5) :
    revisions.drop k = revisionAt k :: revisions.drop (k + 1) := by
  rw [List.drop_eq_getElem_cons h, revisionAt_eq h]

theorem take_revisions (h : k < 5) :
    revisions.take (k + 1) = revisions.take k ++ [revisionAt k] := by
  rw [List.take_succ_eq_append_getElem h, revisionAt_eq h]

theorem upgrades_succ (h : k < 5) :
    upgrades k = (revisionAt k).upgrade ++ upgrades (k + 1) := by
  unfold upgrades
  rw [drop_revisions h, List.flatMap_cons]

theorem catalogAt_succ (h : k < 5) :
    catalogAt (k + 1) = effects (catalogAt k) (revisionAt k).upgrade := by
  unfold catalogAt effects
  rw [take_revisions h, List.flatMap_append, List.foldl_append,
    List.flatMap_singleton]

theorem downgrades_self : downgrades k k = [] := by
  unfold downgrades
  rw [List.drop_eq_nil_of_le (List.length_take_le k revisions)]
  rfl

theorem downgrades_succ (hj : j ≤ k) (hk : k < 5) :
    downgrades (k + 1) j = (revisionAt k).downgrade ++ downgrades k j := by
  have hlen : j ≤ (revisions.take k).length := by
    have hfive : revisions.length = 5 := rfl
    rw [List.length_take, hfive]
    omega
  unfold downgrades
  rw [take_revisions hk, List.drop_append_of_le_length hlen,
    List.reverse_append, List.flatMap_append]
  simp

/-- A downgrade by way of a position between. -/
theorem downgrades_trans (hji : j ≤ i) (hik : i ≤ k) (hk : k ≤ 5) :
    downgrades k j = downgrades k i ++ downgrades i j := by
  induction k with
  | zero =>
      obtain rfl : i = 0 := by omega
      rw [downgrades_self, List.nil_append]
  | succ k ih =>
      by_cases hi : i = k + 1
      · rw [hi, downgrades_self, List.nil_append]
      · rw [downgrades_succ (by omega) hk, downgrades_succ (by omega) hk,
          ih (by omega) (by omega), List.append_assoc]

theorem downgrades_one (hk : k < 5) :
    downgrades (k + 1) k = (revisionAt k).downgrade := by
  rw [downgrades_succ (Nat.le_refl k) hk, downgrades_self, List.append_nil]

theorem effects_downgrades (hj : j ≤ k) (hk : k ≤ 5) :
    effects (catalogAt k) (downgrades k j) = catalogAt j := by
  induction k with
  | zero =>
      obtain rfl : j = 0 := by omega
      rw [downgrades_self]
      rfl
  | succ k ih =>
      by_cases hjk : j = k + 1
      · rw [hjk, downgrades_self]
        rfl
      · rw [downgrades_succ (by omega) hk]
        unfold effects
        rw [List.foldl_append]
        show effects (effects _ _) _ = _
        rw [downgrade_effects hk, ih (by omega) (by omega)]

variable {db db' : Database}

/-- An upgrade goes through from everywhere. -/
theorem run_upgrades (now : Value) : ∀ (m k : Nat), k + m = 5 →
    ∀ db : Database, db.catalog = catalogAt k →
      ∃ db', run now (upgrades k) db = .ok db'
        ∧ db'.catalog = catalogAt 5 := by
  intro m
  induction m with
  | zero =>
      intro k hk db hdb
      obtain rfl : k = 5 := by omega
      exact ⟨db, rfl, hdb⟩
  | succ m ih =>
      intro k hk db hdb
      have hlt : k < 5 := by omega
      obtain ⟨db₁, hrev⟩ := run_foreseen now (Facts.true_nothing db.rows)
        (by rw [hdb]; exact upgrade_foreseen hlt)
      obtain ⟨hcat, -⟩ := run_ok hrev
      obtain ⟨db', hrest, hlast⟩ := ih (k + 1) (by omega) db₁
        (by rw [hcat, hdb, catalogAt_succ hlt])
      refine ⟨db', ?_, hlast⟩
      rw [upgrades_succ hlt, run_append hrev, hrest]

/-- After 11d5ffa87cbb the way back undoes the way up. -/
theorem undo_upgrades (now now' : Value) : ∀ (m k : Nat), k + m = 5 → 2 ≤ k →
    ∀ db db' : Database, db.catalog = catalogAt k →
      run now (upgrades k) db = .ok db' →
      run now' (downgrades 5 k) db' = .ok db := by
  intro m
  induction m with
  | zero =>
      intro k hk _ db db' _ hrun
      obtain rfl : k = 5 := by omega
      cases hrun
      rfl
  | succ m ih =>
      intro k hk h2 db db' hdb hrun
      have hlt : k < 5 := by omega
      rw [upgrades_succ hlt] at hrun
      obtain ⟨db₁, hrev, hrest⟩ := run_append_ok hrun
      obtain ⟨hcat, -⟩ := run_ok hrev
      have hback := ih (k + 1) (by omega) (by omega) db₁ db'
        (by rw [hcat, hdb, catalogAt_succ hlt]) hrest
      obtain ⟨hinv, hchanges⟩ := downgrade_inverse hlt (by omega)
      have hundo := run_undo now' hrev (by rw [hdb]; exact hchanges) hinv
      rw [downgrades_trans (Nat.le_succ k) hlt (Nat.le_refl 5),
        downgrades_one hlt, run_append hback, hundo]

/-- A downgrade that does not cross 6bf8f532381d goes through. -/
theorem run_downgrades (now : Value) (hj : j ≤ k) (hk : k ≤ 5)
    (hcross : k ≤ 2 ∨ 3 ≤ j) (hdb : db.catalog = catalogAt k) :
    ∃ db', run now (downgrades k j) db = .ok db'
      ∧ db'.catalog = catalogAt j := by
  induction k generalizing db with
  | zero =>
      obtain rfl : j = 0 := by omega
      exact ⟨db, by rw [downgrades_self]; rfl, hdb⟩
  | succ k ih =>
      by_cases hjk : j = k + 1
      · subst hjk
        exact ⟨db, by rw [downgrades_self]; rfl, hdb⟩
      · obtain ⟨db₁, hrev⟩ := run_foreseen now (Facts.true_nothing db.rows)
          (by rw [hdb]; exact downgrade_foreseen hk (by omega))
        obtain ⟨hcat, -⟩ := run_ok hrev
        obtain ⟨db', hrest, hlast⟩ := ih (by omega) (by omega) (by omega)
          (by rw [hcat, hdb, downgrade_effects hk])
        refine ⟨db', ?_, hlast⟩
        rw [downgrades_succ (by omega) hk, run_append hrev, hrest]

/-- The downgrade of 6bf8f532381d, and on from there. -/
theorem run_requireNames (now : Value) (hj : j ≤ 2)
    (hdb : db.catalog = catalogAt 3) :
    (∃ db', run now (downgrades 3 j) db = .ok db')
      ↔ ∀ r ∈ db.rows "candidates", r "full_name" ≠ none := by
  obtain ⟨hallowed, hpost⟩ := requireNames_allowed
  have hops : downgrades 3 j
      = requireNames :: ([.dropColumn "candidates" "status"] ++ downgrades 2 j) :=
    downgrades_succ hj (by decide)
  rw [hops]
  constructor
  · rintro ⟨db', hrun⟩
    obtain ⟨db₁, hdb₁, -⟩ := run_cons_ok hrun
    exact (apply_ok_iff.mp hdb₁).2.1
  · intro hnames
    rw [← hdb] at hallowed hpost
    obtain ⟨db₁, hdb₁⟩ := apply_ok now hallowed hnames
    obtain ⟨-, -, hcat₁, -⟩ := apply_ok_iff.mp hdb₁
    rw [← hcat₁] at hpost
    obtain ⟨db₂, hdb₂⟩ := run_foreseen now (Facts.true_nothing db₁.rows) hpost
    obtain ⟨hcat₂, -⟩ := run_ok hdb₂
    have hcat : db₂.catalog = catalogAt 2 := by
      rw [hcat₂, hcat₁, hdb]
      exact downgrade_effects (k := 2) (by decide)
    obtain ⟨db', hrest, -⟩ := run_downgrades now hj (by decide)
      (.inl (Nat.le_refl 2)) hcat
    exact ⟨db', by rw [run_cons hdb₁, run_append hdb₂, hrest]⟩

/-- An upgrade ends with the upgrade from a later position. -/
theorem upgrades_split (h : k ≤ j) : ∃ pre, upgrades k = pre ++ upgrades j := by
  refine ⟨((revisions.drop k).take (j - k)).flatMap Revision.upgrade, ?_⟩
  unfold upgrades
  rw [← List.flatMap_append]
  congr 1
  have hdrop : revisions.drop j = (revisions.drop k).drop (j - k) := by
    rw [List.drop_drop]
    congr 1
    omega
  rw [hdrop, List.take_append_drop]

end Paths

-- ==================================================================== versions

theorem position_head : position (some addTenantAuth.revision) = 5 := by decide

/-- The version after the first revision. -/
theorem position_one {v : Option String} :
    position v = 1 ↔ v = some initialSchema.revision := by
  constructor
  · intro h
    cases v with
    | none => cases h
    | some r =>
        replace h : revisions.findIdx (fun x => x.revision == r) + 1 = 1 := h
        rw [revisions, List.findIdx_cons] at h
        cases hr : initialSchema.revision == r with
        | true => rw [eq_of_beq hr]
        | false =>
            rw [hr] at h
            simp at h
  · intro h
    subst h
    decide

theorem Migrated.lt (h : Migrated d) : position d.version < 6 :=
  Nat.lt_succ_of_le h.version

/-- There is a way up from every version. -/
theorem Migrated.upgraded (h : Migrated d) (now : Value) :
    ∃ db, run now (upgrades (position d.version)) d.db = .ok db
      ∧ db.catalog = catalogAt 5 :=
  run_upgrades now (5 - position d.version) _ (Nat.add_sub_cancel' h.version)
    d.db h.catalog

theorem deployed_eq {a b : Deployed} (hdb : a.db = b.db)
    (hv : a.version = b.version) : a = b := by
  cases a
  cases b
  cases hdb
  cases hv
  rfl

theorem upgradeHead_ok : upgradeHead now d = .ok d'
    ↔ run now (upgrades (position d.version)) d.db = .ok d'.db
      ∧ d'.version = some addTenantAuth.revision := by
  unfold upgradeHead
  cases run now (upgrades (position d.version)) d.db with
  | error x => simp
  | ok db =>
      constructor
      · intro h
        cases h
        exact ⟨rfl, rfl⟩
      · rintro ⟨hdb, hv⟩
        cases hdb
        exact congrArg Except.ok (deployed_eq rfl hv.symm)

theorem downgradeTo_ok {target : Option String} :
    downgradeTo now target d = .ok d'
      ↔ run now (downgrades (position d.version) (position target)) d.db
          = .ok d'.db ∧ d'.version = target := by
  unfold downgradeTo
  cases run now (downgrades (position d.version) (position target)) d.db with
  | error x => simp
  | ok db =>
      constructor
      · intro h
        cases h
        exact ⟨rfl, rfl⟩
      · rintro ⟨hdb, hv⟩
        cases hdb
        exact congrArg Except.ok (deployed_eq rfl hv.symm)

-- ===================================================================== a sample

/-- A tenant with an upload that is not yet parsed, and a plan. -/
def sampleData : List (String × List (List (String × Value))) :=
  [("tenants", [[("id", .uuid (UUID.ofNat 1)), ("name", .text "Acme"),
      ("created_at", .time .epoch), ("updated_at", .time .epoch)]]),
    ("candidates", [[("id", .uuid (UUID.ofNat 2)), ("skills", .json "[]"),
      ("experience", .json "[]"), ("education", .json "[]"),
      ("tenant_id", .uuid (UUID.ofNat 1)), ("status", .text "pending"),
      ("created_at", .time .epoch), ("updated_at", .time .epoch)]]),
    ("plans", [[("id", .uuid (UUID.ofNat 3)), ("name", .text "basic"),
      ("price", .integer 100), ("currency", .text "INR"),
      ("razorpay_plan_id", .text "plan_1"), ("created_at", .time .epoch)]])]

theorem sampleData_fits :
    (∀ p ∈ sampleData, p.1 ∈ Catalog.names (catalogAt 4))
      ∧ (∀ e ∈ catalogAt 4, ∀ fields ∈ (sampleData.lookup e.1).getD [],
        ∀ f ∈ fields, f.1 ∈ e.2.columnNames)
      ∧ Catalog.Sound (catalogAt 4)
      ∧ Catalog.Holds (catalogAt 4) (Rows.written sampleData) := by
  decide +kernel

/-- A deployment before f1a2b3c4d5e6. -/
def sample : Deployed where
  db := ⟨catalogAt 4, .written sampleData, sampleData_fits.2.2.1,
    Catalog.shaped_written sampleData_fits.1 sampleData_fits.2.1,
    sampleData_fits.2.2.2⟩
  version := some addBilling.revision

theorem sample_position : position sample.version = 4 := by decide

theorem sample_migrated : Migrated sample where
  version := by
    rw [sample_position]
    decide
  catalog := by
    rw [sample_position]
    rfl

-- ===================================================================== upgrades

/-- The duration comes last. -/
theorem duration_last : upgrades 4 = addTenantAuth.upgrade.dropLast
    ++ [.addColumn "plans"
      ⟨"duration_months", .integer, false, some (.value (.integer 1))⟩] :=
  rfl

/-- Every row is still there, with every value it had. -/
def Kept (columns : List String) (before after : List (Row Value)) : Prop :=
  List.Forall₂ (fun r r' => ∀ c ∈ columns, r' c = r c) before after

/-- `alembic upgrade head` succeeds from every version, whatever is stored.
It keeps every value, but for 11d5ffa87cbb, which empties the tables of the
initial schema; candidates that are older than their status are processed,
and plans that are older than their duration last a month. -/
theorem upgrade_head (h : Migrated d) (now : Value) :
    ∃ d', upgradeHead now d = .ok d' ∧ Migrated d'
      ∧ d'.version = some addTenantAuth.revision
      ∧ (d.version ≠ some initialSchema.revision → ∀ e ∈ d.db.catalog,
        Kept e.2.columnNames (d.db.rows e.1) (d'.db.rows e.1))
      ∧ (d.version = some initialSchema.revision → ∀ e ∈ d.db.catalog,
        d'.db.rows e.1 = [])
      ∧ (position d.version < 3 → ∀ r ∈ d'.db.rows "candidates",
        r "status" = some (.text "processed"))
      ∧ (position d.version < 5 → ∀ r ∈ d'.db.rows "plans",
        r "duration_months" = some (.integer 1)) := by
  have hlt := h.lt
  obtain ⟨db, hrun, hcat⟩ := h.upgraded now
  obtain ⟨-, hrows⟩ := run_ok hrun
  refine ⟨⟨db, some addTenantAuth.revision⟩, upgradeHead_ok.mpr ⟨hrun, rfl⟩,
    ⟨by rw [position_head]; decide, by rw [position_head]; exact hcat⟩, rfl,
    fun hv e he => ?_, fun hv e he => ?_, fun hk r hr => ?_, fun hk r hr => ?_⟩
  · rw [h.catalog] at he
    obtain ⟨hempties, hcolumns⟩ := upgrades_add hlt
      (fun heq => hv (position_one.mp heq)) e he
    have hagree := rows_kept now d.db.rows hempties
    rw [← hrows] at hagree
    exact hagree.imp fun r r' hsame c hc => hsame c (hcolumns c hc)
  · have hfacts := facts_run (Facts.true_nothing d.db.rows) hrun
    rw [h.catalog] at he
    rw [position_one.mpr hv] at he hfacts
    exact hfacts.empty _ (emptied e he).1
  · obtain ⟨pre, hops⟩ := upgrades_split (Nat.le_of_lt_succ hk)
    have hmem : r ∈ db.rows "candidates" := hr
    rw [hrows, hops] at hmem
    exact column_filled status_alone.1 status_alone.2 r hmem
  · obtain ⟨pre, hops⟩ := upgrades_split (Nat.le_of_lt_succ hk)
    have hmem : r ∈ db.rows "plans" := hr
    rw [hrows, hops, duration_last, ← List.append_assoc] at hmem
    exact column_filled (fun _ h => (by cases h)) List.not_mem_nil r hmem

/-- The sample's plan is as it was, and lasts a month. -/
theorem upgrade_head_sample : ∃ d',
    upgradeHead (.time .epoch) sample = .ok d'
      ∧ ∃ r ∈ d'.db.rows "plans", r "price" = some (.integer 100)
        ∧ r "duration_months" = some (.integer 1) := by
  obtain ⟨d', hup, -, -, hkept, -, -, hduration⟩ :=
    upgrade_head sample_migrated (.time .epoch)
  have hplans := hkept (by decide) _ (show ("plans", _) ∈ catalogAt 4 from
    List.mem_of_getElem? (i := 5) rfl)
  obtain ⟨r, hr, hsame⟩ : ∃ r ∈ d'.db.rows "plans",
      r "price" = some (.integer 100) := by
    obtain ⟨r, rs, hrow, -, hrows⟩ := List.forall₂_cons_left_iff.mp hplans
    exact ⟨r, by rw [hrows]; exact List.mem_cons_self ..,
      hrow "price" (by decide)⟩
  refine ⟨d', hup, r, hr, hsame, hduration ?_ r hr⟩
  rw [sample_position]
  decide

-- =================================================================== downgrades

/-- A downgrade succeeds exactly if it does not cross 6bf8f532381d, or
every candidate has a name. -/
theorem downgrade_iff (h : Migrated d) {target : Option String}
    (hle : position target ≤ position d.version) (now : Value) :
    (∃ d', downgradeTo now target d = .ok d')
      ↔ (position target ≤ 2 → 3 ≤ position d.version →
        ∀ r ∈ d.db.rows "candidates", r "full_name" ≠ none) := by
  have hlt := h.lt
  have hrun : (∃ d', downgradeTo now target d = .ok d')
      ↔ ∃ db, run now (downgrades (position d.version) (position target)) d.db
        = .ok db := by
    constructor
    · rintro ⟨d', hd'⟩
      exact ⟨d'.db, (downgradeTo_ok.mp hd').1⟩
    · rintro ⟨db, hdb⟩
      exact ⟨⟨db, target⟩, downgradeTo_ok.mpr ⟨hdb, rfl⟩⟩
  rw [hrun]
  by_cases hcross : position target ≤ 2 ∧ 3 ≤ position d.version
  · obtain ⟨hj, hk⟩ := hcross
    obtain ⟨hempties, hcolumns⟩ := candidates_apart hlt
    obtain ⟨db₃, hrun₃, hcat₃⟩ := run_downgrades now hk h.version
      (.inr (Nat.le_refl 3)) h.catalog
    obtain ⟨-, hrows₃⟩ := run_ok hrun₃
    have hagree := rows_kept now d.db.rows hempties
    rw [hcolumns, ← hrows₃] at hagree
    rw [downgrades_trans (Nat.le_succ_of_le hj) hk h.version,
      run_append hrun₃, run_requireNames now hj hcat₃, hagree.eq]
    exact ⟨fun hall _ _ => hall, fun hall => hall hj hk⟩
  · refine iff_of_true ?_ fun hj hk => absurd ⟨hj, hk⟩ hcross
    obtain ⟨db, hok, -⟩ := run_downgrades now hle h.version (by omega) h.catalog
    exact ⟨db, hok⟩

/-- The sample's upload has no name yet, so there is no way back past the
status. -/
theorem downgrade_iff_sample :
    ¬ ∃ d', downgradeTo (.time .epoch) (some addTenancy.revision) sample
      = .ok d' := by
  intro hok
  have hnames := (downgrade_iff sample_migrated
    (by rw [sample_position]; decide) _).mp hok (by decide)
    (by rw [sample_position]; decide)
  have hmem : Row.written [("id", .uuid (UUID.ofNat 2)),
      ("skills", .json "[]"), ("experience", .json "[]"),
      ("education", .json "[]"), ("tenant_id", .uuid (UUID.ofNat 1)),
      ("status", .text "pending"), ("created_at", .time .epoch),
      ("updated_at", .time .epoch)] ∈ sample.db.rows "candidates" :=
    List.mem_of_getElem? (i := 0) rfl
  exact hnames _ hmem (by decide)

/-- After an upgrade, the downgrade to where it started leads back there,
rows and all; across 11d5ffa87cbb it leads back to empty tables. -/
theorem downgrade_undoes (h : Migrated d) (hup : upgradeHead now d = .ok d')
    (now' : Value) : ∃ d'', downgradeTo now' d.version d' = .ok d''
      ∧ d''.db.catalog = d.db.catalog
      ∧ (d.version ≠ some initialSchema.revision → d'' = d)
      ∧ (d.version = some initialSchema.revision → ∀ n, d''.db.rows n = []) := by
  have hle : position d.version ≤ 5 := h.version
  have hsum : position d.version + (5 - position d.version) = 5 :=
    Nat.add_sub_cancel' hle
  obtain ⟨hrun, hv'⟩ := upgradeHead_ok.mp hup
  have hdown : position d'.version = 5 := by rw [hv', position_head]
  have hcat : d'.db.catalog = catalogAt 5 := by
    obtain ⟨db, hdb, hcat⟩ := h.upgraded now
    rw [hrun] at hdb
    cases hdb
    exact hcat
  by_cases hk : 2 ≤ position d.version
  · have hback := undo_upgrades now now' _ _ hsum hk d.db d'.db h.catalog hrun
    refine ⟨d, downgradeTo_ok.mpr ⟨by rw [hdown]; exact hback, rfl⟩, rfl,
      fun _ => rfl, fun hv => ?_⟩
    rw [position_one.mpr hv] at hk
    omega
  · have hfacts := facts_run (Facts.true_nothing d.db.rows) hrun
    -- no candidate is left that could lack a name
    have hnone := hfacts.empty _ (candidates_emptied (by omega))
    have hd : Migrated d' :=
      ⟨by rw [hdown]; exact Nat.le_refl 5, by rw [hdown]; exact hcat⟩
    have hbelow : position d.version ≤ position d'.version := by
      rw [hdown]
      exact hle
    obtain ⟨d'', hd''⟩ := (downgrade_iff hd hbelow now').mpr fun _ _ r hr => by
      rw [hnone] at hr
      cases hr
    obtain ⟨hback, hv''⟩ := downgradeTo_ok.mp hd''
    rw [hdown] at hback
    obtain ⟨hcat', -⟩ := run_ok hback
    rw [hcat, effects_downgrades hle (Nat.le_refl 5), ← h.catalog] at hcat'
    refine ⟨d'', hd'', hcat', fun hv => ?_, fun hv n => ?_⟩
    · -- at the very start there are no tables
      have hzero : position d.version = 0 := by
        have hne : position d.version ≠ 1 := fun heq => hv (position_one.mp heq)
        omega
      have htables : ∀ {db : Database}, db.catalog = d.db.catalog →
          ∀ n, db.rows n = [] := by
        intro db hdb n
        refine db.shaped.tables n ?_
        rw [hdb, h.catalog, hzero]
        exact List.not_mem_nil
      have hrows : d''.db.rows = d.db.rows :=
        funext fun n => (htables hcat' n).trans (htables rfl n).symm
      exact deployed_eq (Ddl.Database.eq_of hcat' hrows) hv''
    · by_cases hn : n ∈ Catalog.names d''.db.catalog
      · obtain ⟨t, ht⟩ := Catalog.mem_names.mp hn
        rw [hcat', h.catalog, position_one.mpr hv] at ht
        have hlast := facts_run hfacts hback
        rw [position_one.mpr hv] at hlast
        exact hlast.empty _ (emptied _ ht).2
      · exact d''.db.shaped.tables n hn

/-- The sample goes up and comes back. -/
theorem downgrade_undoes_sample : ∃ d',
    upgradeHead (.time .epoch) sample = .ok d'
      ∧ downgradeTo (.time .epoch) sample.version d' = .ok sample := by
  obtain ⟨db, hrun, -⟩ := sample_migrated.upgraded (.time .epoch)
  have hup : upgradeHead (.time .epoch) sample
      = .ok ⟨db, some addTenantAuth.revision⟩ := upgradeHead_ok.mpr ⟨hrun, rfl⟩
  obtain ⟨d'', hdown, -, hback, -⟩ :=
    downgrade_undoes sample_migrated hup (.time .epoch)
  rw [hback (by decide)] at hdown
  exact ⟨_, hup, hdown⟩

end ResumeScreening.Migrations
