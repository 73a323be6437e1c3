/-
Relational tables that carry their constraints.

A `Schema` declares what the columns of one row must satisfy and which
two rows a unique constraint forbids together. A `Table` is a list of
rows with the proof that both hold, so a table violating a constraint
cannot be built: the two writes, `insert?` and `update?`, answer `none`
exactly where the database would reject the statement.

Rows keep their insertion order. Nothing deletes.
-/
import Mathlib.Data.List.Pairwise

namespace Relational

/-- The declared constraints of a table: per row, and per pair of
rows. -/
structure Schema (ρ : Type) where
  valid : ρ → Bool
  clash : ρ → ρ → Bool
  clash_symm : ∀ a b, clash a b = clash b a

/-- A table: rows satisfying the declared constraints. -/
structure Table {ρ : Type} (σ : Schema ρ) where
  rows : List ρ
  valid : ∀ r ∈ rows, σ.valid r = true
  apart : rows.Pairwise fun a b => σ.clash a b = false

/-- A predicate that picks out at most one row of any table: two rows
satisfying it clash. -/
def Schema.Key {ρ : Type} (σ : Schema ρ) (p : ρ → Bool) : Prop :=
  ∀ a b, p a = true → p b = true → σ.clash a b = true

namespace Table

variable {ρ : Type} {σ : Schema ρ}

/-- The table with no rows. -/
def empty (σ : Schema ρ) : Table σ := ⟨[], by simp, .nil⟩

/-- Insert a row, unless a constraint forbids it. -/
def insert? (t : Table σ) (r : ρ) : Option (Table σ) :=
  if h : σ.valid r = true ∧ ∀ s ∈ t.rows, σ.clash s r = false then
    some ⟨t.rows ++ [r], by
      intro s hs
      rcases List.mem_append.mp hs with hs | hs
      · exact t.valid s hs
      · rw [List.mem_singleton.mp hs]
        exact h.1, by
      refine List.pairwise_append.mpr ⟨t.apart, List.pairwise_singleton _ _, ?_⟩
      intro s hs s' hs'
      rw [List.mem_singleton.mp hs']
      exact h.2 s hs⟩
  else none

/-- Rewrite the rows satisfying `p`, unless a constraint forbids the
result. -/
def update? (t : Table σ) (p : ρ → Bool) (f : ρ → ρ) : Option (Table σ) :=
  let rows := t.rows.map fun r => if p r then f r else r
  if h : (∀ r ∈ rows, σ.valid r = true)
      ∧ rows.Pairwise fun a b => σ.clash a b = false then
    some ⟨rows, h.1, h.2⟩
  else none

/-- The first row satisfying `p`. -/
def find? (t : Table σ) (p : ρ → Bool) : Option ρ := t.rows.find? p

/-- The rows satisfying `p`, in insertion order. -/
def select (t : Table σ) (p : ρ → Bool) : List ρ := t.rows.filter p

/-- How many rows satisfy `p`. -/
def count (t : Table σ) (p : ρ → Bool) : Nat := t.rows.countP p

-- ================================================================ writes

/-- What a successful insert did. -/
theorem insert?_rows {t t' : Table σ} {r : ρ} (h : t.insert? r = some t') :
    t'.rows = t.rows ++ [r] := by
  unfold insert? at h
  split at h
  · simp only [Option.some.injEq] at h
    rw [← h]
  · cases h

/-- A successful insert met the constraints. -/
theorem insert?_valid {t t' : Table σ} {r : ρ} (h : t.insert? r = some t') :
    σ.valid r = true ∧ ∀ s ∈ t.rows, σ.clash s r = false := by
  unfold insert? at h
  split at h
  next hc => exact hc
  next => cases h

/-- An insert succeeds where no constraint forbids it. -/
theorem insert?_isSome (t : Table σ) {r : ρ} (hv : σ.valid r = true)
    (hc : ∀ s ∈ t.rows, σ.clash s r = false) :
    ∃ t', t.insert? r = some t' := by
  unfold insert?
  rw [dif_pos ⟨hv, hc⟩]
  exact ⟨_, rfl⟩

/-- An insert of an invalid row fails. -/
theorem insert?_invalid (t : Table σ) {r : ρ} (hv : ¬ σ.valid r = true) :
    t.insert? r = none :=
  dif_neg fun h => hv h.1

/-- What a successful update did. -/
theorem update?_rows {t t' : Table σ} {p : ρ → Bool} {f : ρ → ρ}
    (h : t.update? p f = some t') :
    t'.rows = t.rows.map fun r => if p r then f r else r := by
  unfold update? at h
  dsimp only at h
  split at h
  · simp only [Option.some.injEq] at h
    rw [← h]
  · cases h

/-- An update succeeds where the rewritten rows meet the constraints and
clash as little as they did. -/
theorem update?_isSome (t : Table σ) {p : ρ → Bool} {f : ρ → ρ}
    (hv : ∀ r ∈ t.rows, p r = true → σ.valid (f r) = true)
    (hc : ∀ a b, σ.clash (f a) b = σ.clash a b) :
    ∃ t', t.update? p f = some t' := by
  have hc' : ∀ a b, σ.clash a (f b) = σ.clash a b := by
    intro a b
    rw [σ.clash_symm, hc, σ.clash_symm]
  unfold update?
  dsimp only
  rw [dif_pos]
  · exact ⟨_, rfl⟩
  · refine ⟨List.forall_mem_map.mpr fun r hr => ?_, List.pairwise_map.mpr ?_⟩
    · split
      next hp => exact hv r hr hp
      next => exact t.valid r hr
    · refine t.apart.imp fun {a b} h => ?_
      split <;> split <;> simp only [hc, hc', h]

theorem mem_insert? {t t' : Table σ} {r s : ρ} (h : t.insert? r = some t') :
    s ∈ t'.rows ↔ s ∈ t.rows ∨ s = r := by
  rw [insert?_rows h, List.mem_append, List.mem_singleton]

theorem mem_update? {t t' : Table σ} {p : ρ → Bool} {f : ρ → ρ} {s : ρ}
    (h : t.update? p f = some t') :
    s ∈ t'.rows ↔
      ∃ r ∈ t.rows, s = if p r then f r else r := by
  rw [update?_rows h, List.mem_map]
  exact ⟨fun ⟨r, hr, he⟩ => ⟨r, hr, he.symm⟩,
    fun ⟨r, hr, he⟩ => ⟨r, hr, he.symm⟩⟩

-- ============================================================ uniqueness

/-- Two rows of a table that a unique constraint would forbid together
are the same row. -/
theorem eq_of_clash (t : Table σ) {a b : ρ} (ha : a ∈ t.rows)
    (hb : b ∈ t.rows) (hc : σ.clash a b = true) : a = b := by
  have hsymm : Std.Symm fun a b => σ.clash a b = false :=
    ⟨fun a b h => by rw [σ.clash_symm]; exact h⟩
  by_contra hne
  rw [t.apart.forall ha hb hne] at hc
  cases hc

/-- Looking a row up by a key finds it exactly if it is there. -/
theorem find?_key (t : Table σ) {p : ρ → Bool} (hp : σ.Key p) {r : ρ} :
    t.find? p = some r ↔ r ∈ t.rows ∧ p r = true := by
  constructor
  · exact fun h => ⟨List.mem_of_find?_eq_some h, List.find?_some h⟩
  · rintro ⟨hr, hpr⟩
    cases hf : t.find? p with
    | none =>
        rw [find?, List.find?_eq_none] at hf
        exact absurd hpr (hf r hr)
    | some s =>
        have hs := List.mem_of_find?_eq_some hf
        have hps := List.find?_some hf
        rw [t.eq_of_clash hs hr (hp s r hps hpr)]

theorem find?_mem {t : Table σ} {p : ρ → Bool} {r : ρ}
    (h : t.find? p = some r) : r ∈ t.rows ∧ p r = true :=
  ⟨List.mem_of_find?_eq_some h, List.find?_some h⟩

-- ==================================================== counts and selections

theorem count_insert? {t t' : Table σ} {r : ρ} (h : t.insert? r = some t')
    (q : ρ → Bool) :
    t'.count q = t.count q + if q r then 1 else 0 := by
  rw [count, insert?_rows h, List.countP_append, count, List.countP_cons]
  simp

/-- An update no rewritten row can notice through `q` keeps `q`'s
count. -/
theorem count_update? {t t' : Table σ} {p : ρ → Bool} {f : ρ → ρ}
    (h : t.update? p f = some t') {q : ρ → Bool}
    (hq : ∀ r ∈ t.rows, p r = true → q (f r) = q r) :
    t'.count q = t.count q := by
  rw [count, update?_rows h, List.countP_map, count]
  refine List.countP_congr fun r hr => ?_
  show q (if p r then f r else r) = true ↔ q r = true
  split
  next hpr => rw [hq r hr hpr]
  next => rfl

theorem select_insert? {t t' : Table σ} {r : ρ} (h : t.insert? r = some t')
    (q : ρ → Bool) :
    t'.select q = t.select q ++ if q r then [r] else [] := by
  rw [select, insert?_rows h, List.filter_append, select, List.filter_cons,
    List.filter_nil]

/-- What an update shows of the rows satisfying `q`, where it takes no
row into or out of `q`. -/
theorem select_update? {t t' : Table σ} {p : ρ → Bool} {f : ρ → ρ}
    (h : t.update? p f = some t') {q : ρ → Bool}
    (hq : ∀ r ∈ t.rows, p r = true → q (f r) = q r) :
    t'.select q = (t.select q).map fun r => if p r then f r else r := by
  rw [select, update?_rows h, List.filter_map, select]
  congr 1
  refine List.filter_congr fun r hr => ?_
  show q (if p r then f r else r) = q r
  split
  next hpr => exact hq r hr hpr
  next => rfl

/-- An update of rows outside `q` shows nothing of the rows in `q`. -/
theorem select_update?_of_not {t t' : Table σ} {p : ρ → Bool} {f : ρ → ρ}
    (h : t.update? p f = some t') {q : ρ → Bool}
    (hq : ∀ r ∈ t.rows, p r = true → q r = false ∧ q (f r) = false) :
    t'.select q = t.select q := by
  rw [select_update? h fun r hr hpr => by
    rw [(hq r hr hpr).1, (hq r hr hpr).2]]
  have hid : ∀ r ∈ t.select q, (if p r then f r else r) = r := by
    intro r hr
    obtain ⟨hmem, hqr⟩ := List.mem_filter.mp hr
    split
    next hpr =>
      rw [(hq r hmem hpr).1] at hqr
      cases hqr
    next => rfl
  rw [List.map_congr_left hid, List.map_id']

theorem mem_select {t : Table σ} {q : ρ → Bool} {r : ρ} :
    r ∈ t.select q ↔ r ∈ t.rows ∧ q r = true :=
  List.mem_filter

/-- No row is in a table twice, where a row clashes with itself. -/
theorem nodup (t : Table σ) (hself : ∀ r, σ.clash r r = true) :
    t.rows.Nodup := by
  refine t.apart.imp fun {a b} hab heq => ?_
  rw [heq, hself b] at hab
  cases hab

-- ========================================================== two tables' views

/-- The rows in `p` are among those in `q`. -/
theorem select_within (t : Table σ) {p q : ρ → Bool}
    (h : ∀ r ∈ t.rows, p r = true → q r = true) :
    t.select p = (t.select q).filter p := by
  rw [select, select, List.filter_filter]
  apply List.filter_congr
  intro r hr
  cases hp : p r with
  | false => simp
  | true => simp [h r hr hp]

/-- A view of a view. -/
theorem select_of_select {t t' : Table σ} {p q : ρ → Bool}
    (h : t'.select q = t.select q) (hpq : ∀ r, p r = true → q r = true) :
    t'.select p = t.select p := by
  rw [t'.select_within fun r _ => hpq r, t.select_within fun r _ => hpq r, h]

/-- A lookup that only rows in `q` pass is a lookup among those. -/
theorem find?_select {t : Table σ} {p q : ρ → Bool}
    (h : ∀ r ∈ t.rows, p r = true → q r = true) :
    t.find? p = (t.select q).find? p := by
  rw [find?, ← List.head?_filter, ← List.head?_filter]
  exact congrArg List.head? (t.select_within h)

/-- So is a count. -/
theorem count_select {t : Table σ} {p q : ρ → Bool}
    (h : ∀ r ∈ t.rows, p r = true → q r = true) :
    t.count p = (t.select q).countP p := by
  rw [count, List.countP_eq_length_filter, List.countP_eq_length_filter]
  exact congrArg List.length (t.select_within h)

/-- Where only rows in `q` can clash with the new row, the view on `q`
decides whether it may be inserted. -/
theorem insert?_some_iff {t : Table σ} {q : ρ → Bool} {r : ρ}
    (h : ∀ s ∈ t.rows, q s = false → σ.clash s r = false) :
    (∃ t', t.insert? r = some t')
      ↔ σ.valid r = true ∧ ∀ s ∈ t.select q, σ.clash s r = false := by
  constructor
  · intro hsome
    obtain ⟨t', ht⟩ := hsome
    obtain ⟨hv, hc⟩ := insert?_valid ht
    exact ⟨hv, fun s hs => hc s (mem_select.mp hs).1⟩
  · intro hok
    refine t.insert?_isSome hok.1 fun s hs => ?_
    cases hq : q s with
    | false => exact h s hs hq
    | true => exact hok.2 s (mem_select.mpr ⟨hs, hq⟩)

/-- The same of an update of rows in `q`. -/
theorem update?_some_iff {t : Table σ} {p q : ρ → Bool} {f : ρ → ρ}
    (hp : ∀ r ∈ t.rows, p r = true → q r = true)
    (h : ∀ a ∈ t.rows, q a = false → ∀ b ∈ t.rows, p b = true →
      σ.clash a (f b) = false) :
    (∃ t', t.update? p f = some t')
      ↔ (∀ r ∈ t.select q, σ.valid (if p r then f r else r) = true)
        ∧ (t.select q).Pairwise fun a b =>
          σ.clash (if p a then f a else a) (if p b then f b else b)
            = false := by
  have hout : ∀ a ∈ t.rows, q a = false → (if p a then f a else a) = a := by
    intro a ha hq
    split
    next hpa =>
      rw [hp a ha hpa] at hq
      cases hq
    next => rfl
  have hsome : (∃ t', t.update? p f = some t')
      ↔ (∀ r ∈ t.rows, σ.valid (if p r then f r else r) = true)
        ∧ t.rows.Pairwise fun a b =>
          σ.clash (if p a then f a else a) (if p b then f b else b)
            = false := by
    unfold update?
    simp only [List.forall_mem_map, List.pairwise_map]
    split
    next hc => exact ⟨fun _ => hc, fun _ => ⟨_, rfl⟩⟩
    next hc => exact ⟨fun hx => (by obtain ⟨_, hx⟩ := hx; cases hx),
      fun hx => absurd hx hc⟩
  rw [hsome]
  constructor
  · exact fun hc => ⟨fun r hr => hc.1 r (mem_select.mp hr).1,
      hc.2.sublist List.filter_sublist⟩
  · intro hc
    refine ⟨fun r hr => ?_, ?_⟩
    · cases hq : q r with
      | true => exact hc.1 r (mem_select.mpr ⟨hr, hq⟩)
      | false =>
          rw [hout r hr hq]
          exact t.valid r hr
    · have hview := List.pairwise_filter.mp hc.2
      refine (t.apart.and hview).imp_of_mem fun {a b} ha hb hab => ?_
      obtain ⟨hapart, hin⟩ := hab
      cases hqa : q a with
      | true =>
          cases hqb : q b with
          | true => exact hin hqa hqb
          | false =>
              rw [hout b hb hqb, σ.clash_symm]
              split
              next hpa => exact h b hb hqb a ha hpa
              next => rw [σ.clash_symm]; exact hapart
      | false =>
          rw [hout a ha hqa]
          split
          next hpb => exact h a ha hqa b hb hpb
          next => exact hapart

-- =============================================================== one row by key

section Keyed

variable {t : Table σ} {p : ρ → Bool} {f : ρ → ρ} {r : ρ} (hp : σ.Key p)
  (hr : r ∈ t.rows) (hpr : p r = true)

include hp hr hpr

/-- A key picks its row. -/
theorem key_iff {s : ρ} (hs : s ∈ t.rows) : p s = true ↔ s = r := by
  constructor
  · exact fun hps => t.eq_of_clash hs hr (hp s r hps hpr)
  · rintro rfl
    exact hpr

/-- The update of a row by its key goes through exactly if the new row is
valid, where it clashes with no other. -/
theorem update?_key_some_iff
    (hc : ∀ a ∈ t.rows, a ≠ r → σ.clash a (f r) = false) :
    (∃ t', t.update? p f = some t') ↔ σ.valid (f r) = true := by
  have hone : ∀ s ∈ t.select p, s = r := fun s hs =>
    (key_iff hp hr hpr (mem_select.mp hs).1).mp (mem_select.mp hs).2
  rw [update?_some_iff (q := p) (fun _ _ h => h) ?_]
  · constructor
    · intro h
      have hv := h.1 r (mem_select.mpr ⟨hr, hpr⟩)
      rw [if_pos hpr] at hv
      exact hv
    · refine fun hv => ⟨fun s hs => ?_, ?_⟩
      · rw [hone s hs, if_pos hpr]
        exact hv
      · refine (t.apart.sublist List.filter_sublist).imp_of_mem ?_
        intro a b ha hb hab
        -- two selected rows would clash
        rw [hp a b (List.mem_filter.mp ha).2 (List.mem_filter.mp hb).2] at hab
        cases hab
  · intro a ha hpa b hb hpb
    rw [(key_iff hp hr hpr hb).mp hpb]
    refine hc a ha fun heq => ?_
    rw [heq, hpr] at hpa
    cases hpa

/-- Then it replaces that row. -/
theorem mem_update?_key {t' : Table σ} (h : t.update? p f = some t') {s : ρ} :
    s ∈ t'.rows ↔ (s ∈ t.rows ∧ s ≠ r) ∨ s = f r := by
  rw [mem_update? h]
  constructor
  · rintro ⟨a, ha, rfl⟩
    split
    next hpa =>
      rw [(key_iff hp hr hpr ha).mp hpa]
      exact .inr rfl
    next hpa => exact .inl ⟨ha, fun heq => hpa (heq ▸ hpr)⟩
  · rintro (⟨hs, hne⟩ | rfl)
    · refine ⟨s, hs, (if_neg fun hps => ?_).symm⟩
      exact hne ((key_iff hp hr hpr hs).mp hps)
    · exact ⟨r, hr, (if_pos hpr).symm⟩

end Keyed

/-- Two results that exist together. -/
theorem both_or_neither {α : Type} {x y : Option α}
    (h : (∃ a, x = some a) ↔ ∃ b, y = some b) :
    (x = none ∧ y = none) ∨ ∃ a b, x = some a ∧ y = some b := by
  cases x with
  | some a =>
      obtain ⟨b, hb⟩ := h.mp ⟨a, rfl⟩
      exact .inr ⟨a, b, rfl, hb⟩
  | none =>
      cases y with
      | none => exact .inl ⟨rfl, rfl⟩
      | some b =>
          obtain ⟨a, ha⟩ := h.mpr ⟨b, rfl⟩
          cases ha

/-- Two tables with one view take a new row that clashes with nothing
outside it, or both refuse it. -/
theorem insert?_agree {t₁ t₂ : Table σ} {q : ρ → Bool} {r : ρ}
    (hview : t₁.select q = t₂.select q)
    (h₁ : ∀ s ∈ t₁.rows, q s = false → σ.clash s r = false)
    (h₂ : ∀ s ∈ t₂.rows, q s = false → σ.clash s r = false) :
    (t₁.insert? r = none ∧ t₂.insert? r = none)
      ∨ ∃ t₁' t₂', t₁.insert? r = some t₁' ∧ t₂.insert? r = some t₂'
        ∧ t₁'.select q = t₂'.select q := by
  have hiff : (∃ t', t₁.insert? r = some t') ↔ ∃ t', t₂.insert? r = some t' := by
    rw [insert?_some_iff h₁, insert?_some_iff h₂, hview]
  rcases both_or_neither hiff with hnone | ⟨t₁', t₂', ht₁, ht₂⟩
  · exact .inl hnone
  · refine .inr ⟨t₁', t₂', ht₁, ht₂, ?_⟩
    rw [select_insert? ht₁, select_insert? ht₂, hview]

/-- The same of an update of rows in the view. -/
theorem update?_agree {t₁ t₂ : Table σ} {p q : ρ → Bool} {f : ρ → ρ}
    (hview : t₁.select q = t₂.select q) (hf : ∀ r, q (f r) = q r)
    (hp₁ : ∀ r ∈ t₁.rows, p r = true → q r = true)
    (hp₂ : ∀ r ∈ t₂.rows, p r = true → q r = true)
    (h₁ : ∀ a ∈ t₁.rows, q a = false → ∀ b ∈ t₁.rows, p b = true →
      σ.clash a (f b) = false)
    (h₂ : ∀ a ∈ t₂.rows, q a = false → ∀ b ∈ t₂.rows, p b = true →
      σ.clash a (f b) = false) :
    (t₁.update? p f = none ∧ t₂.update? p f = none)
      ∨ ∃ t₁' t₂', t₁.update? p f = some t₁' ∧ t₂.update? p f = some t₂'
        ∧ t₁'.select q = t₂'.select q := by
  have hiff : (∃ t', t₁.update? p f = some t')
      ↔ ∃ t', t₂.update? p f = some t' := by
    rw [update?_some_iff hp₁ h₁, update?_some_iff hp₂ h₂, hview]
  rcases both_or_neither hiff with hnone | ⟨t₁', t₂', ht₁, ht₂⟩
  · exact .inl hnone
  · refine .inr ⟨t₁', t₂', ht₁, ht₂, ?_⟩
    rw [select_update? ht₁ fun r _ _ => hf r,
      select_update? ht₂ fun r _ _ => hf r, hview]

end Table

end Relational
