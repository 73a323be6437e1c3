/-
The rows of the service, in the tables that are declared for them.

`Model.World` and `Model.Accounts` give each table its own constraints, on
rows of the fields the service uses. Written out column by column those
rows are rows of the declared tables: what a column of the model takes the
declared column takes, and two rows that do not clash there agree on no
declared key (`stored_takes`). So a statement the model lets pass is not
one that Postgres refuses for a value or a duplicate.

Left out: `match_results`, of whose rows the model has no identifier, and
what a foreign key refers to.
-/
import ResumeScreening.Migrations.Models
import ResumeScreening.Model.Accounts

namespace ResumeScreening.Migrations

open Ddl
open Relational (Schema Table)
open Accounts (TenantRow ApiKey tenantSchema apiKeySchema)
open Py (Dict DateTime)

-- ======================================================================== rows

section Rows

variable (now : DateTime)

/-- A row with its columns written out. -/
def filled (fields : List (String × Option Value)) : Row Value :=
  fun c => (fields.lookup c).join

def tenantRow (t : TenantRow) : Row Value := filled [
  ("id", some (.uuid t.id)), ("name", some (.text t.name)),
  ("email", t.email.map .text),
  ("hashed_password", t.hashedPassword.map .text),
  ("google_sub", t.googleSub.map .text),
  ("created_at", some (.time t.createdAt)), ("updated_at", some (.time now))]

def apiKeyRow (k : ApiKey) : Row Value := filled [
  ("id", some (.uuid k.id)), ("tenant_id", some (.uuid k.tenantId)),
  ("hashed_key", some (.text k.hashedKey)),
  ("key_prefix", some (.text k.keyPrefix)),
  ("created_at", some (.time k.createdAt)),
  ("revoked_at", k.revokedAt.map .time),
  ("last_used_at", k.lastUsedAt.map .time)]

/-- The text of a status. -/
def statusText : Status → String
  | .pending => "pending"
  | .processing => "processing"
  | .processed => "processed"
  | .failed => "failed"

-- how lists are written as JSON does not matter to a column
variable (strings : List String → String) (dicts : List Dict → String)

def candidateRow (c : Candidate) : Row Value := filled [
  ("id", some (.uuid c.id)), ("tenant_id", some (.uuid c.tenantId)),
  ("full_name", c.fullName.map .text), ("email", c.email.map .text),
  ("phone", c.phone.map .text), ("summary", c.summary.map .text),
  ("skills", some (.json (strings c.skills))),
  ("experience", some (.json (dicts c.experience))),
  ("education", some (.json (dicts c.education))),
  ("raw_text", c.rawText.map .text),
  ("pinecone_id", c.pineconeId.map .text),
  ("status", some (.text (statusText c.status))),
  ("created_at", some (.time c.createdAt)), ("updated_at", some (.time now))]

def jobRow (j : Job) : Row Value := filled [
  ("id", some (.uuid j.id)), ("tenant_id", some (.uuid j.tenantId)),
  ("title", some (.text j.title)), ("company", j.company.map .text),
  ("description", some (.text j.description)),
  ("required_skills", some (.json (strings j.requiredSkills))),
  ("preferred_skills", some (.json (strings j.preferredSkills))),
  ("pinecone_id", j.pineconeId.map .text),
  ("created_at", some (.time j.createdAt)), ("updated_at", some (.time now))]

def planRow (p : Plan) : Row Value := filled [
  ("id", some (.uuid p.id)), ("name", some (.text p.name)),
  ("price", some (.integer p.price)), ("currency", some (.text p.currency)),
  ("monthly_resume_quota", p.monthlyResumeQuota.map .integer),
  ("duration_months", some (.integer p.durationMonths)),
  ("razorpay_plan_id", some (.text p.razorpayPlanId)),
  ("created_at", some (.time now))]

def subscriptionRow (s : Subscription) : Row Value := filled [
  ("id", some (.uuid s.id)), ("tenant_id", some (.uuid s.tenantId)),
  ("plan_id", some (.uuid s.planId)), ("status", some (.text s.status)),
  ("razorpay_subscription_id", some (.text s.razorpaySubscriptionId)),
  ("current_period_end", s.currentPeriodEnd.map .time),
  ("created_at", some (.time now)), ("updated_at", some (.time now))]

end Rows

-- ===================================================================== columns

section Columns

variable {name c : String} {n : Nat} {a b : Row Value}

theorem optional_string (s : Option String) :
    (optional name (.string n)).admits (s.map .text) = s.all (fits n) := by
  cases s <;> rfl

theorem optional_text (s : Option String) :
    (optional name .text).admits (s.map .text) = s.all storable := by
  cases s <;> rfl

theorem optional_integer (i : Option Int) :
    (optional name .integer).admits (i.map .integer) = i.all fitsInt := by
  cases i <;> rfl

theorem optional_time (t : Option DateTime) :
    (optional name .timestamptz).admits (t.map .time) = true := by
  cases t <;> rfl

theorem fits_statusText (s : Status) : fits 20 (statusText s) = true := by
  cases s <;> decide

/-- Rows apart in a column that is never NULL. -/
theorem apart_required {α : Type} [DecidableEq α] {v : α → Value}
    (hv : Function.Injective v) {x y : α} (h : (x == y) = false)
    (ha : a c = some (v x)) (hb : b c = some (v y)) :
    clashes [c] a b = false := by
  have hne : v x ≠ v y := hv.ne (beq_eq_false_iff_ne.mp h)
  unfold clashes
  rw [List.all_cons, ha, hb]
  simp [hne]

/-- Rows apart in a column that may be NULL. -/
theorem apart_optional {x y : Option String} (h : sameUnique x y = false)
    (ha : a c = x.map .text) (hb : b c = y.map .text) :
    clashes [c] a b = false := by
  cases x with
  | none => exact clashes_null (List.mem_singleton_self c) ha b
  | some s =>
      have hne : some s ≠ y := beq_eq_false_iff_ne.mp h
      unfold clashes
      rw [List.all_cons, ha, hb]
      cases y with
      | none => rfl
      | some s' =>
          have hs : s ≠ s' := fun heq => hne (congrArg some heq)
          simp [hs]

theorem uuid_injective : Function.Injective Value.uuid :=
  fun _ _ h => Value.uuid.inj h

theorem text_injective : Function.Injective Value.text :=
  fun _ _ h => Value.text.inj h

end Columns

-- ====================================================================== tables

/-- The columns and keys of a table, met by some rows. -/
structure Stored (t : TableDef ColumnType Value) (rows : List (Row Value)) :
    Prop where
  columns : ∀ r ∈ rows, ∀ c ∈ t.columns, c.admits (r c.name) = true
  keys : ∀ k ∈ t.keys, rows.Pairwise fun a b => clashes k a b = false

/-- A schema's rows, written out, are rows of the table. -/
structure Takes {ρ : Type} (t : TableDef ColumnType Value) (S : Schema ρ)
    (row : ρ → Row Value) : Prop where
  columns : ∀ r, S.valid r = true →
    ∀ c ∈ t.columns, c.admits (row r c.name) = true
  keys : ∀ r r', S.clash r r' = false →
    ∀ k ∈ t.keys, clashes k (row r) (row r') = false

theorem Takes.stored {ρ : Type} {t : TableDef ColumnType Value} {S : Schema ρ}
    {row : ρ → Row Value} (h : Takes t S row) (table : Table S) :
    Stored t (table.rows.map row) where
  columns r hr := by
    obtain ⟨x, hx, rfl⟩ := List.mem_map.mp hr
    exact h.columns x (table.valid x hx)
  keys k hk := List.pairwise_map.mpr
    (table.apart.imp fun hab => h.keys _ _ hab k hk)

section Takes

variable (now : DateTime) (strings : List String → String)
  (dicts : List Dict → String)

theorem takes_tenants : Takes tenantModel tenantSchema (tenantRow now) where
  columns t ht := by
    simp only [tenantSchema, Bool.and_eq_true] at ht
    obtain ⟨⟨⟨hname, hemail⟩, hpassword⟩, hgoogle⟩ := ht
    unfold tenantModel
    simp only [List.forall_mem_cons]
    exact ⟨rfl, hname, (optional_string _).trans hemail,
      (optional_string _).trans hpassword, (optional_string _).trans hgoogle,
      rfl, rfl, List.forall_mem_nil _⟩
  keys t t' h := by
    simp only [tenantSchema, Bool.or_eq_false_iff] at h
    obtain ⟨⟨hid, hemail⟩, hgoogle⟩ := h
    show ∀ k ∈ [["id"], ["email"], ["google_sub"]], _
    simp only [List.forall_mem_cons]
    exact ⟨apart_required uuid_injective hid rfl rfl,
      apart_optional hemail rfl rfl, apart_optional hgoogle rfl rfl,
      List.forall_mem_nil _⟩

theorem takes_apiKeys : Takes apiKeyModel apiKeySchema apiKeyRow where
  columns k hk := by
    simp only [apiKeySchema, Bool.and_eq_true] at hk
    obtain ⟨hhash, hpre⟩ := hk
    unfold apiKeyModel
    simp only [List.forall_mem_cons]
    exact ⟨rfl, rfl, hhash, hpre, rfl, optional_time _, optional_time _,
      List.forall_mem_nil _⟩
  keys k k' h := by
    simp only [apiKeySchema, Bool.or_eq_false_iff] at h
    obtain ⟨hid, hhash⟩ := h
    show ∀ k ∈ [["id"], ["hashed_key"]], _
    simp only [List.forall_mem_cons]
    exact ⟨apart_required uuid_injective hid rfl rfl,
      apart_required text_injective hhash rfl rfl, List.forall_mem_nil _⟩

theorem takes_candidates :
    Takes candidateModel candidateSchema (candidateRow now strings dicts) where
  columns c hc := by
    simp only [candidateSchema, Bool.and_eq_true] at hc
    obtain ⟨⟨⟨⟨⟨⟨⟨⟨hname, hemail⟩, hphone⟩, hsummary⟩, -⟩, -⟩, -⟩, hraw⟩,
      hvector⟩ := hc
    unfold candidateModel
    simp only [List.forall_mem_cons]
    exact ⟨rfl, rfl, (optional_string _).trans hname,
      (optional_string _).trans hemail, (optional_string _).trans hphone,
      (optional_text _).trans hsummary, rfl, rfl, rfl,
      (optional_text _).trans hraw, (optional_string _).trans hvector,
      fits_statusText c.status, rfl, rfl, List.forall_mem_nil _⟩
  keys c c' h := by
    simp only [candidateSchema, Bool.or_eq_false_iff] at h
    obtain ⟨hid, hvector⟩ := h
    show ∀ k ∈ [["id"], ["pinecone_id"]], _
    simp only [List.forall_mem_cons]
    exact ⟨apart_required uuid_injective hid rfl rfl,
      apart_optional hvector rfl rfl, List.forall_mem_nil _⟩

theorem takes_jobs : Takes jobModel jobSchema (jobRow now strings) where
  columns j hj := by
    simp only [jobSchema, Bool.and_eq_true] at hj
    obtain ⟨⟨⟨⟨⟨htitle, hcompany⟩, hdescription⟩, -⟩, -⟩, hvector⟩ := hj
    unfold jobModel
    simp only [List.forall_mem_cons]
    exact ⟨rfl, rfl, htitle, (optional_string _).trans hcompany, hdescription,
      rfl, rfl, (optional_string _).trans hvector, rfl, rfl,
      List.forall_mem_nil _⟩
  keys j j' h := by
    simp only [jobSchema, Bool.or_eq_false_iff] at h
    obtain ⟨hid, hvector⟩ := h
    show ∀ k ∈ [["id"], ["pinecone_id"]], _
    simp only [List.forall_mem_cons]
    exact ⟨apart_required uuid_injective hid rfl rfl,
      apart_optional hvector rfl rfl, List.forall_mem_nil _⟩

theorem takes_plans : Takes planModel planSchema (planRow now) where
  columns p hp := by
    simp only [planSchema, Bool.and_eq_true] at hp
    obtain ⟨⟨⟨⟨⟨hname, hprice⟩, hcurrency⟩, hquota⟩, hduration⟩, hplan⟩ := hp
    unfold planModel
    simp only [List.forall_mem_cons]
    exact ⟨rfl, hname, hprice, hcurrency, (optional_integer _).trans hquota,
      hduration, hplan, rfl, List.forall_mem_nil _⟩
  keys p q h := by
    simp only [planSchema, Bool.or_eq_false_iff] at h
    obtain ⟨hid, hplan⟩ := h
    show ∀ k ∈ [["id"], ["razorpay_plan_id"]], _
    simp only [List.forall_mem_cons]
    exact ⟨apart_required uuid_injective hid rfl rfl,
      apart_required text_injective hplan rfl rfl, List.forall_mem_nil _⟩

theorem takes_subscriptions :
    Takes subscriptionModel subscriptionSchema (subscriptionRow now) where
  columns s hs := by
    simp only [subscriptionSchema, Bool.and_eq_true] at hs
    obtain ⟨hstatus, hrazorpay⟩ := hs
    unfold subscriptionModel
    simp only [List.forall_mem_cons]
    exact ⟨rfl, rfl, rfl, hstatus, hrazorpay, optional_time _, rfl, rfl,
      List.forall_mem_nil _⟩
  keys s s' h := by
    simp only [subscriptionSchema, Bool.or_eq_false_iff] at h
    obtain ⟨⟨hid, htenant⟩, hrazorpay⟩ := h
    show ∀ k ∈ [["id"], ["tenant_id"], ["razorpay_subscription_id"]], _
    simp only [List.forall_mem_cons]
    exact ⟨apart_required uuid_injective hid rfl rfl,
      apart_required uuid_injective htenant rfl rfl,
      apart_required text_injective hrazorpay rfl rfl, List.forall_mem_nil _⟩

end Takes

-- ==================================================================== the head

theorem Stored.like {t t' : TableDef ColumnType Value} (h : t.Like t')
    {rows : List (Row Value)} (ht : Stored t rows) : Stored t' rows where
  columns r hr c hc := ht.columns r hr c (h.columns.mem_iff.mpr hc)
  keys k hk := ht.keys k (h.keys.mem_iff.mpr hk)

/-- A table at the head of the migrations that takes the rows. -/
def AtHead (n : String) (rows : List (Row Value)) : Prop :=
  ∃ t, (n, t) ∈ catalogAt 5 ∧ Stored t rows

theorem atHead_of_stored {n : String} {t : TableDef ColumnType Value}
    {rows : List (Row Value)} (hmem : (n, t) ∈ metadata) (h : Stored t rows) :
    AtHead n rows := by
  obtain ⟨⟨n', t'⟩, he, hname, hlike⟩ := head_like.2 _ hmem
  cases hname
  exact ⟨t', he, h.like hlike.symm⟩

end ResumeScreening.Migrations
