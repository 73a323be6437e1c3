/-
The tables app/models/db.py declares, and the tables the migrations make.

The two are written apart and agree: at the head there are the declared
tables, with the declared columns, keys, references and indexes, in another
order and with constraints named otherwise (`head_like`). So the migrated
database takes the rows that the models declare, and no others
(`head_models`).
-/
import ResumeScreening.Migrations.Paths

namespace ResumeScreening.Migrations

open Ddl

-- ================================================================== the models

/-- `class Tenant`. -/
def tenantModel : TableDef ColumnType Value where
  columns := [required "id" .uuid, required "name" (.string 255),
    optional "email" (.string 255), optional "hashed_password" (.string 255),
    optional "google_sub" (.string 255), stamped "created_at",
    stamped "updated_at"]
  primaryKey := ["id"]
  uniques := [⟨none, ["email"]⟩, ⟨none, ["google_sub"]⟩]

/-- `class ApiKey`. -/
def apiKeyModel : TableDef ColumnType Value where
  columns := [required "id" .uuid, required "tenant_id" .uuid,
    required "hashed_key" (.string 64), required "key_prefix" (.string 12),
    stamped "created_at", optional "revoked_at" .timestamptz,
    optional "last_used_at" .timestamptz]
  primaryKey := ["id"]
  uniques := [⟨none, ["hashed_key"]⟩]
  foreignKeys := [⟨none, "tenant_id", "tenants", "id"⟩]
  indexes := [⟨"ix_api_keys_tenant_id", ["tenant_id"]⟩]

/-- `class Candidate`. -/
def candidateModel : TableDef ColumnType Value where
  columns := [required "id" .uuid, required "tenant_id" .uuid,
    optional "full_name" (.string 255), optional "email" (.string 255),
    optional "phone" (.string 50), optional "summary" .text,
    required "skills" .jsonb, required "experience" .jsonb,
    required "education" .jsonb, optional "raw_text" .text,
    optional "pinecone_id" (.string 255),
    ⟨"status", .string 20, false, some (.value (.text "processed"))⟩,
    stamped "created_at", stamped "updated_at"]
  primaryKey := ["id"]
  uniques := [⟨none, ["pinecone_id"]⟩]
  foreignKeys := [⟨none, "tenant_id", "tenants", "id"⟩]
  indexes := [⟨"ix_candidates_tenant_id", ["tenant_id"]⟩]

/-- `class Job`. -/
def jobModel : TableDef ColumnType Value where
  columns := [required "id" .uuid, required "tenant_id" .uuid,
    required "title" (.string 255), optional "company" (.string 255),
    required "description" .text, required "required_skills" .jsonb,
    required "preferred_skills" .jsonb, optional "pinecone_id" (.string 255),
    stamped "created_at", stamped "updated_at"]
  primaryKey := ["id"]
  uniques := [⟨none, ["pinecone_id"]⟩]
  foreignKeys := [⟨none, "tenant_id", "tenants", "id"⟩]
  indexes := [⟨"ix_jobs_tenant_id", ["tenant_id"]⟩]

/-- `class Plan`. -/
def planModel : TableDef ColumnType Value where
  columns := [required "id" .uuid, required "name" (.string 100),
    required "price" .integer, required "currency" (.string 3),
    optional "monthly_resume_quota" .integer,
    ⟨"duration_months", .integer, false, some (.value (.integer 1))⟩,
    required "razorpay_plan_id" (.string 255), stamped "created_at"]
  primaryKey := ["id"]
  uniques := [⟨none, ["razorpay_plan_id"]⟩]

/-- `class Subscription`. -/
def subscriptionModel : TableDef ColumnType Value where
  columns := [required "id" .uuid, required "tenant_id" .uuid,
    required "plan_id" .uuid, required "status" (.string 20),
    required "razorpay_subscription_id" (.string 255),
    optional "current_period_end" .timestamptz, stamped "created_at",
    stamped "updated_at"]
  primaryKey := ["id"]
  uniques := [⟨none, ["tenant_id"]⟩, ⟨none, ["razorpay_subscription_id"]⟩]
  foreignKeys := [⟨none, "tenant_id", "tenants", "id"⟩,
    ⟨none, "plan_id", "plans", "id"⟩]

/-- `class MatchResult`. -/
def matchResultModel : TableDef ColumnType Value where
  columns := [required "id" .uuid, required "candidate_id" .uuid,
    required "job_id" .uuid, optional "vector_score" .float,
    optional "llm_score" .float, optional "rank" .integer,
    optional "explanation" .text, stamped "created_at"]
  primaryKey := ["id"]
  foreignKeys := [⟨none, "candidate_id", "candidates", "id"⟩,
    ⟨none, "job_id", "jobs", "id"⟩]

/-- `Base.metadata`. -/
def metadata : Catalog ColumnType Value :=
  [("tenants", tenantModel), ("api_keys", apiKeyModel),
    ("candidates", candidateModel), ("jobs", jobModel), ("plans", planModel),
    ("subscriptions", subscriptionModel), ("match_results", matchResultModel)]

-- =================================================================== agreement

/-- The head and the models declare the same tables. -/
theorem head_like : Catalog.Alike (catalogAt 5) metadata := by
  decide +kernel

/-- Once upgraded, a database holds what the models declare, and takes what
they let in. -/
theorem head_models {d : Deployed} (h : Migrated d) (now : Value) :
    ∃ d', upgradeHead now d = .ok d' ∧ Catalog.Holds metadata d'.db.rows
      ∧ ∀ rows, Catalog.Holds d'.db.catalog rows
        ↔ Catalog.Holds metadata rows := by
  obtain ⟨db, hrun, hcat⟩ := h.upgraded now
  have hiff : ∀ rows, Catalog.Holds db.catalog rows
      ↔ Catalog.Holds metadata rows := by
    rw [hcat]
    exact fun rows => head_like.holds_iff
  exact ⟨⟨db, some addTenantAuth.revision⟩, upgradeHead_ok.mpr ⟨hrun, rfl⟩,
    (hiff db.rows).mp db.holds, hiff⟩

/-- The sample is among them. -/
theorem head_models_sample : ∃ d', upgradeHead (.time .epoch) sample = .ok d'
    ∧ Catalog.Holds metadata d'.db.rows := by
  obtain ⟨d', hup, hholds, -⟩ := head_models sample_migrated (.time .epoch)
  exact ⟨d', hup, hholds⟩

end ResumeScreening.Migrations
