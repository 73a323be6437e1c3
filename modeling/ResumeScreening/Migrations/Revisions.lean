/-
The migrations under alembic/versions, as lists of statements, and what
alembic/env.py makes of them.

A revision is upgraded or downgraded statement by statement. `env.py` runs
all revisions of one call in one transaction, so a call that fails leaves
the database and its recorded version as they were.

Left out: the `ON DELETE CASCADE` of the foreign keys (no statement here
deletes a row), and the types a revision repeats of a column it alters.
-/
import ResumeScreening.Lib.Undo
import ResumeScreening.Lib.Foresee
import ResumeScreening.Model.World

namespace ResumeScreening.Migrations

open Ddl

-- ====================================================================== columns

/-- The column types in use. -/
inductive ColumnType
  | uuid
  | string (length : Nat)
  | text
  | jsonb
  | timestamptz
  | float
  | integer
deriving DecidableEq

/-- What a column holds; a JSONB value by its text. -/
inductive Value
  | uuid (u : UUID)
  | text (s : String)
  | json (s : String)
  | time (t : Py.DateTime)
  | float (x : Rat)
  | integer (n : Int)
deriving DecidableEq

instance : Typing ColumnType Value where
  fits
    | .uuid, .uuid _ => true
    | .string n, .text s => ResumeScreening.fits n s
    | .text, .text s => storable s
    | .jsonb, .json _ => true
    | .timestamptz, .time _ => true
    | .float, .float _ => true
    | .integer, .integer n => fitsInt n
    | _, _ => false

abbrev Statement : Type := Op ColumnType Value

abbrev Database : Type := Ddl.Database ColumnType Value

/-- `sa.Column(name, type, nullable=False)`. -/
def required (name : String) (type : ColumnType) : Column ColumnType Value :=
  ⟨name, type, false, none⟩

/-- `sa.Column(name, type, nullable=True)`. -/
def optional (name : String) (type : ColumnType) : Column ColumnType Value :=
  ⟨name, type, true, none⟩

/-- A time that defaults to `now()`. -/
def stamped (name : String) : Column ColumnType Value :=
  ⟨name, .timestamptz, false, some .now⟩

-- ==================================================================== revisions

structure Revision where
  revision : String
  downRevision : Option String
  upgrade : List Statement
  downgrade : List Statement

/-- cb36370cdbb9_initial_schema.py -/
def initialSchema : Revision where
  revision := "cb36370cdbb9"
  downRevision := none
  upgrade := [
    .createTable "candidates" {
      columns := [required "id" .uuid, required "full_name" (.string 255),
        optional "email" (.string 255), optional "phone" (.string 50),
        optional "summary" .text, required "skills" .jsonb,
        required "experience" .jsonb, required "education" .jsonb,
        optional "raw_text" .text, optional "pinecone_id" (.string 255),
        stamped "created_at", stamped "updated_at"]
      primaryKey := ["id"]
      uniques := [⟨none, ["pinecone_id"]⟩] },
    .createTable "jobs" {
      columns := [required "id" .uuid, required "title" (.string 255),
        optional "company" (.string 255), required "description" .text,
        required "required_skills" .jsonb, required "preferred_skills" .jsonb,
        optional "pinecone_id" (.string 255), stamped "created_at",
        stamped "updated_at"]
      primaryKey := ["id"]
      uniques := [⟨none, ["pinecone_id"]⟩] },
    .createTable "match_results" {
      columns := [required "id" .uuid, required "candidate_id" .uuid,
        required "job_id" .uuid, optional "vector_score" .float,
        optional "llm_score" .float, optional "rank" .integer,
        optional "explanation" .text, stamped "created_at"]
      primaryKey := ["id"]
      foreignKeys := [⟨none, "candidate_id", "candidates", "id"⟩,
        ⟨none, "job_id", "jobs", "id"⟩] }]
  downgrade := [.dropTable "match_results", .dropTable "jobs",
    .dropTable "candidates"]

/-- 11d5ffa87cbb_add_tenancy.py -/
def addTenancy : Revision where
  revision := "11d5ffa87cbb"
  downRevision := some "cb36370cdbb9"
  upgrade := [
    .createTable "tenants" {
      columns := [required "id" .uuid, required "name" (.string 255),
        stamped "created_at", stamped "updated_at"]
      primaryKey := ["id"] },
    .createTable "api_keys" {
      columns := [required "id" .uuid, required "tenant_id" .uuid,
        required "hashed_key" (.string 64), required "key_prefix" (.string 12),
        stamped "created_at", optional "revoked_at" .timestamptz,
        optional "last_used_at" .timestamptz]
      primaryKey := ["id"]
      uniques := [⟨none, ["hashed_key"]⟩]
      foreignKeys := [⟨some "fk_api_keys_tenant_id", "tenant_id", "tenants",
        "id"⟩] },
    .createIndex "ix_api_keys_tenant_id" "api_keys" ["tenant_id"],
    .truncate ["match_results", "candidates", "jobs"],
    .addColumn "candidates" (required "tenant_id" .uuid),
    .createIndex "ix_candidates_tenant_id" "candidates" ["tenant_id"],
    .createForeignKey "fk_candidates_tenant_id" "candidates" "tenants"
      "tenant_id" "id",
    .addColumn "jobs" (required "tenant_id" .uuid),
    .createIndex "ix_jobs_tenant_id" "jobs" ["tenant_id"],
    .createForeignKey "fk_jobs_tenant_id" "jobs" "tenants" "tenant_id" "id"]
  downgrade := [
    .dropConstraint "fk_jobs_tenant_id" "jobs",
    .dropIndex "ix_jobs_tenant_id" "jobs",
    .dropColumn "jobs" "tenant_id",
    .dropConstraint "fk_candidates_tenant_id" "candidates",
    .dropIndex "ix_candidates_tenant_id" "candidates",
    .dropColumn "candidates" "tenant_id",
    .dropIndex "ix_api_keys_tenant_id" "api_keys",
    .dropTable "api_keys",
    .dropTable "tenants"]

/-- 6bf8f532381d_add_candidate_status_and_nullable_full_.py -/
def addCandidateStatus : Revision where
  revision := "6bf8f532381d"
  downRevision := some "11d5ffa87cbb"
  upgrade := [
    .addColumn "candidates"
      ⟨"status", .string 20, false, some (.value (.text "processed"))⟩,
    .alterNullable "candidates" "full_name" true]
  downgrade := [
    .alterNullable "candidates" "full_name" false,
    .dropColumn "candidates" "status"]

/-- e0566164803f_add_billing_plans_and_subscriptions.py -/
def addBilling : Revision where
  revision := "e0566164803f"
  downRevision := some "6bf8f532381d"
  upgrade := [
    .createTable "plans" {
      columns := [required "id" .uuid, required "name" (.string 100),
        required "price" .integer, required "currency" (.string 3),
        optional "monthly_resume_quota" .integer,
        required "razorpay_plan_id" (.string 255), stamped "created_at"]
      primaryKey := ["id"]
      uniques := [⟨none, ["razorpay_plan_id"]⟩] },
    .createTable "subscriptions" {
      columns := [required "id" .uuid, required "tenant_id" .uuid,
        required "plan_id" .uuid, required "status" (.string 20),
        required "razorpay_subscription_id" (.string 255),
        optional "current_period_end" .timestamptz, stamped "created_at",
        stamped "updated_at"]
      primaryKey := ["id"]
      uniques := [⟨none, ["tenant_id"]⟩, ⟨none, ["razorpay_subscription_id"]⟩]
      foreignKeys := [
        ⟨some "fk_subscriptions_tenant_id", "tenant_id", "tenants", "id"⟩,
        ⟨some "fk_subscriptions_plan_id", "plan_id", "plans", "id"⟩] }]
  downgrade := [.dropTable "subscriptions", .dropTable "plans"]

/-- f1a2b3c4d5e6_add_tenant_auth_and_plan_duration.py -/
def addTenantAuth : Revision where
  revision := "f1a2b3c4d5e6"
  downRevision := some "e0566164803f"
  upgrade := [
    .addColumn "tenants" (optional "email" (.string 255)),
    .addColumn "tenants" (optional "hashed_password" (.string 255)),
    .addColumn "tenants" (optional "google_sub" (.string 255)),
    .createUnique "uq_tenants_email" "tenants" ["email"],
    .createUnique "uq_tenants_google_sub" "tenants" ["google_sub"],
    .addColumn "plans"
      ⟨"duration_months", .integer, false, some (.value (.integer 1))⟩]
  downgrade := [
    .dropColumn "plans" "duration_months",
    .dropConstraint "uq_tenants_google_sub" "tenants",
    .dropConstraint "uq_tenants_email" "tenants",
    .dropColumn "tenants" "google_sub",
    .dropColumn "tenants" "hashed_password",
    .dropColumn "tenants" "email"]

/-- The revisions, each after the one it revises. -/
def revisions : List Revision :=
  [initialSchema, addTenancy, addCandidateStatus, addBilling, addTenantAuth]

example : revisions.map Revision.downRevision
    = none :: revisions.dropLast.map fun r => some r.revision := by decide

-- =================================================================== the runner

/-- How many revisions a database of this version has behind it. -/
def position : Option String → Nat
  | none => 0
  | some v => revisions.findIdx (fun r => r.revision == v) + 1

/-- The statements of an upgrade to the head, from a position. -/
def upgrades (k : Nat) : List Statement :=
  (revisions.drop k).flatMap Revision.upgrade

/-- The statements of a downgrade from one position to another. -/
def downgrades (k j : Nat) : List Statement :=
  ((revisions.take k).drop j).reverse.flatMap Revision.downgrade

/-- A database with the version it records in `alembic_version`. -/
structure Deployed where
  db : Database
  version : Option String

/-- `alembic upgrade head`, one transaction. -/
def upgradeHead (now : Value) (d : Deployed) : Except Refusal Deployed :=
  match run now (upgrades (position d.version)) d.db with
  | .ok db => .ok ⟨db, some addTenantAuth.revision⟩
  | .error x => .error x

/-- `alembic downgrade target`, one transaction. -/
def downgradeTo (now : Value) (target : Option String) (d : Deployed) :
    Except Refusal Deployed :=
  match run now (downgrades (position d.version) (position target)) d.db with
  | .ok db => .ok ⟨db, target⟩
  | .error x => .error x

/-- What the revisions before a position make of no tables. -/
def catalogAt (k : Nat) : Catalog ColumnType Value :=
  effects [] ((revisions.take k).flatMap Revision.upgrade)

/-- A database the migrations have brought to its version, whatever it
stores. -/
structure Migrated (d : Deployed) : Prop where
  version : position d.version ≤ revisions.length
  catalog : d.db.catalog = catalogAt (position d.version)

end ResumeScreening.Migrations
