/-
What the texts make of an absent optional field.

Both create paths store `model_dump()` dictionaries, which have every
key: an absent field is a key with `None`. The renderers read with
`dict.get` and a default, and a default replaces a missing key only, so
an absent field prints as `None` and its default is never used. The texts
are those of the entries without their null keys exactly where no
optional field is absent (`nulls_hidden_iff`).
-/
import ResumeScreening.Lib.Lines
import ResumeScreening.Model.Service

namespace ResumeScreening.Screening

open Lines
open Py (Dict format join)

-- ============================================================ the statement

/-- The dictionary without its null-valued keys. -/
def withoutNulls (d : Dict) : Dict := d.filter fun kv => kv.2.isSome

/-- The candidate with these entries stored, as both create paths store
them. -/
def storing (c : Candidate) (experience : List ExperienceEntry)
    (education : List EducationEntry) : Candidate :=
  { c with
    experience := experience.map ExperienceEntry.modelDump
    education := education.map EducationEntry.modelDump }

/-- The candidate with the null keys of its entries removed. -/
def nullsRemoved (c : Candidate) : Candidate :=
  { c with
    experience := c.experience.map withoutNulls
    education := c.education.map withoutNulls }

/-- The embedding text and the two prompt values do not tell a null key
from a missing one. -/
structure NullsHidden (c : Candidate) : Prop where
  embedded : buildCandidateEmbedText c
    = buildCandidateEmbedText (nullsRemoved c)
  experience : formatExperience c.experience
    = formatExperience (nullsRemoved c).experience
  education : formatEducation c.education
    = formatEducation (nullsRemoved c).education

/-- Nothing is absent. -/
structure ExperienceWhole (e : ExperienceEntry) : Prop where
  startDate : e.startDate.isSome = true
  endDate : e.endDate.isSome = true
  description : e.description.isSome = true

theorem createdCandidate_storing (t : UUID) (payload : CandidateCreate)
    (id : UUID) (now : Py.DateTime) :
    createdCandidate t payload id now
      = storing (createdCandidate t payload id now) payload.experience
        payload.education := rfl

theorem filled_storing (row : Candidate) (p : ParsedResume) (text : String) :
    filled row p text
      = storing (filled row p text) p.experience p.education := rfl

-- ================================================================ the lines

/-- A line of the experience value of a prompt. -/
def experiencePoint (exp : Dict) : String :=
  "- " ++ format (exp.get "title" (some "N/A")) ++ " at "
    ++ format (exp.get "company" (some "N/A")) ++ " ("
    ++ format (exp.get "start_date" (some "?")) ++ " – "
    ++ format (exp.get "end_date" (some "Present")) ++ ")"

def educationPoint (edu : Dict) : String :=
  "- " ++ format (edu.get "degree" (some "N/A")) ++ " from "
    ++ format (edu.get "institution" (some "N/A")) ++ " ("
    ++ format (edu.get "graduation_year" (some "N/A")) ++ ")"

/-- The text tells the two lines apart, unless they are one. -/
def Told (s s' : String) : Prop :=
  s = s' ∨ Apart "\n".toList s.toList s'.toList

theorem join_eq_iff {ls ls' : List String} (h : List.Forall₂ Told ls ls') :
    join "\n" ls = join "\n" ls' ↔ ls = ls' := by
  have hlines : List.Forall₂
      (fun a b => a = b ∨ Apart "\n".toList a b)
      (ls.map String.toList) (ls'.map String.toList) := by
    rw [List.forall₂_map_left_iff, List.forall₂_map_right_iff]
    refine h.imp fun s s' hs => ?_
    rcases hs with rfl | hapart
    · exact .inl rfl
    · exact .inr hapart
  unfold join
  rw [← String.toList_inj, String.toList_intercalate,
    String.toList_intercalate, intercalate_eq_iff hlines]
  exact List.map_inj_right fun _ _ => String.toList_inj.mp

/-- Lines whose first characters differ, or of which one is empty and the
other goes on with a character of its own, are apart. -/
theorem apart_of_head {a b : List Char} {c : Char} (ha : c ∈ a.head?)
    (hb : c ∉ b.head?) (hc : c ≠ '\n') : Apart "\n".toList a b := by
  intro u v hu hv heq
  cases a with
  | nil => cases ha
  | cons x a =>
      obtain rfl : x = c := by simpa using ha
      cases b with
      | nil =>
          rcases hv with rfl | ⟨v', rfl⟩
          · cases heq
          · exact hc (List.cons.inj heq).1
      | cons y b => exact hb (by simp [(List.cons.inj heq).1])

/-- One field per entry decides whether a joined text tells. -/
theorem joined_iff {ε : Type} {f g : ε → String} {Shown : ε → Prop}
    (hsame : ∀ e, Shown e → f e = g e)
    (htold : ∀ e, ¬ Shown e → Apart "\n".toList (f e).toList (g e).toList)
    (front back : List String) (es : List ε) :
    join "\n" (front ++ es.map f ++ back)
        = join "\n" (front ++ es.map g ++ back)
      ↔ ∀ e ∈ es, Shown e := by
  have hline : ∀ e, Told (f e) (g e) := by
    intro e
    by_cases he : Shown e
    · exact .inl (hsame e he)
    · exact .inr (htold e he)
  have hrefl : ∀ ls : List String, List.Forall₂ Told ls ls := by
    intro ls
    exact List.forall₂_same.mpr fun s _ => .inl rfl
  have hlines : List.Forall₂ Told (front ++ es.map f ++ back)
      (front ++ es.map g ++ back) := by
    refine List.rel_append (List.rel_append (hrefl front) ?_) (hrefl back)
    rw [List.forall₂_map_left_iff, List.forall₂_map_right_iff]
    exact List.forall₂_same.mpr fun e _ => hline e
  rw [join_eq_iff hlines, List.append_cancel_right_eq,
    List.append_cancel_left_eq, List.map_inj_left]
  constructor
  · intro heq e he
    by_contra hnot
    have happ := htold e hnot [] [] (.inl rfl) (.inl rfl)
    rw [heq e he] at happ
    exact happ rfl
  · exact fun hall e he => hsame e (hall e he)

/-- The same behind a common text. -/
theorem apart_behind (front : String) {s s' : String} {c : Char}
    (hs : c ∈ s.toList.head?) (hs' : c ∉ s'.toList.head?) (hc : c ≠ '\n') :
    Apart "\n".toList (front ++ s).toList (front ++ s').toList := by
  rw [String.toList_append, String.toList_append]
  exact (apart_of_head hs hs' hc).behind _

/-- Two values with different first characters, whatever follows them. -/
theorem apart_values (front : String) {s s' : String} {x y : Char}
    (hs : s.toList.head? = some x) (hs' : s'.toList.head? = some y)
    (hxy : x ≠ y) (hx : x ≠ '\n') (rest rest' : String) :
    Apart "\n".toList (front ++ (s ++ rest)).toList
      (front ++ (s' ++ rest')).toList := by
  refine apart_behind front (c := x) ?_ ?_ hx
  · rw [String.toList_append, List.head?_append, hs]
    rfl
  · rw [String.toList_append, List.head?_append, hs']
    simpa using hxy.symm

-- =================================================================== entries

section

variable (e : ExperienceEntry) (d : EducationEntry)

/-- What `get` finds in a stored entry, and in the entry without its null
keys: there an absent field yields the default. -/
theorem experience_gets (default : Option String) :
    (e.modelDump.get "title" default = some e.title
      ∧ e.modelDump.get "company" default = some e.company
      ∧ e.modelDump.get "start_date" default = e.startDate
      ∧ e.modelDump.get "end_date" default = e.endDate
      ∧ e.modelDump.get "description" default = e.description)
    ∧ (withoutNulls e.modelDump).get "title" default = some e.title
      ∧ (withoutNulls e.modelDump).get "company" default = some e.company
      ∧ (withoutNulls e.modelDump).get "start_date" default
        = e.startDate.or default
      ∧ (withoutNulls e.modelDump).get "end_date" default
        = e.endDate.or default
      ∧ (withoutNulls e.modelDump).get "description" default
        = e.description.or default := by
  obtain ⟨title, company, startDate, endDate, description⟩ := e
  refine ⟨⟨rfl, rfl, rfl, rfl, rfl⟩, ?_⟩
  cases startDate <;> cases endDate <;> cases description <;>
    exact ⟨rfl, rfl, rfl, rfl, rfl⟩

theorem education_gets (default : Option String) :
    (d.modelDump.get "degree" default = some d.degree
      ∧ d.modelDump.get "institution" default = some d.institution
      ∧ d.modelDump.get "graduation_year" default = d.graduationYear)
    ∧ (withoutNulls d.modelDump).get "degree" default = some d.degree
      ∧ (withoutNulls d.modelDump).get "institution" default
        = some d.institution
      ∧ (withoutNulls d.modelDump).get "graduation_year" default
        = d.graduationYear.or default := by
  obtain ⟨degree, institution, graduationYear⟩ := d
  refine ⟨⟨rfl, rfl, rfl⟩, ?_⟩
  cases graduationYear <;> exact ⟨rfl, rfl, rfl⟩

theorem experienceLine_same (h : e.description.isSome = true) :
    experienceLine e.modelDump = experienceLine (withoutNulls e.modelDump) := by
  obtain ⟨text, htext⟩ := Option.isSome_iff_exists.mp h
  unfold experienceLine
  simp only [experience_gets, htext, Option.some_or]

/-- An absent description prints as `None` where the default is empty. -/
theorem experienceLine_apart (h : ¬ e.description.isSome = true) :
    Apart "\n".toList (experienceLine e.modelDump).toList
      (experienceLine (withoutNulls e.modelDump)).toList := by
  have hnone : e.description = none := by simpa using h
  unfold experienceLine
  simp only [experience_gets, hnone, Option.none_or, format]
  exact apart_behind _ (c := 'N') rfl (by simp) (by decide)

/-- The year is not embedded. -/
theorem educationLine_same :
    educationLine d.modelDump = educationLine (withoutNulls d.modelDump) := by
  unfold educationLine
  simp only [education_gets]

theorem experiencePoint_same
    (h : e.startDate.isSome = true ∧ e.endDate.isSome = true) :
    experiencePoint e.modelDump
      = experiencePoint (withoutNulls e.modelDump) := by
  obtain ⟨start, hstart⟩ := Option.isSome_iff_exists.mp h.1
  obtain ⟨stop, hstop⟩ := Option.isSome_iff_exists.mp h.2
  unfold experiencePoint
  simp only [experience_gets, hstart, hstop, Option.some_or]

/-- An absent date prints as `None`, where the defaults are `?` and
`Present`. -/
theorem experiencePoint_apart
    (h : ¬ (e.startDate.isSome = true ∧ e.endDate.isSome = true)) :
    Apart "\n".toList (experiencePoint e.modelDump).toList
      (experiencePoint (withoutNulls e.modelDump)).toList := by
  cases hstart : e.startDate with
  | none =>
      have hcut : ∀ exp : Dict, experiencePoint exp
          = ("- " ++ format (exp.get "title" (some "N/A")) ++ " at "
              ++ format (exp.get "company" (some "N/A")) ++ " (")
            ++ (format (exp.get "start_date" (some "?")) ++ (" – "
              ++ (format (exp.get "end_date" (some "Present")) ++ ")"))) := by
        intro exp
        simp only [experiencePoint, String.append_assoc]
      rw [hcut, hcut]
      simp only [experience_gets, hstart, Option.none_or]
      exact apart_values _ rfl rfl (by decide) (by decide) _ _
  | some start =>
      have hstop : e.endDate = none := by simpa [hstart] using h
      have hcut : ∀ exp : Dict, experiencePoint exp
          = ("- " ++ format (exp.get "title" (some "N/A")) ++ " at "
              ++ format (exp.get "company" (some "N/A")) ++ " ("
              ++ format (exp.get "start_date" (some "?")) ++ " – ")
            ++ (format (exp.get "end_date" (some "Present")) ++ ")") := by
        intro exp
        simp only [experiencePoint, String.append_assoc]
      rw [hcut, hcut]
      simp only [experience_gets, hstart, hstop, Option.some_or,
        Option.none_or]
      exact apart_values _ rfl rfl (by decide) (by decide) _ _

theorem educationPoint_same (h : d.graduationYear.isSome = true) :
    educationPoint d.modelDump = educationPoint (withoutNulls d.modelDump) := by
  obtain ⟨year, hyear⟩ := Option.isSome_iff_exists.mp h
  unfold educationPoint
  simp only [education_gets, hyear, Option.some_or]

/-- An absent year prints as `None`, where the default is `N/A`. -/
theorem educationPoint_apart (h : ¬ d.graduationYear.isSome = true) :
    Apart "\n".toList (educationPoint d.modelDump).toList
      (educationPoint (withoutNulls d.modelDump)).toList := by
  have hnone : d.graduationYear = none := by simpa using h
  have hcut : ∀ edu : Dict, educationPoint edu
      = ("- " ++ format (edu.get "degree" (some "N/A")) ++ " from "
          ++ format (edu.get "institution" (some "N/A")) ++ " (")
        ++ (format (edu.get "graduation_year" (some "N/A")) ++ ")") := by
    intro edu
    simp only [educationPoint, String.append_assoc]
  rw [hcut, hcut]
  simp only [education_gets, hnone, Option.none_or]
  -- both values start with an N
  have hnull : format none = "N" ++ "one" := by decide
  have hdefault : format (some "N/A") = "N" ++ "/A" := by decide
  have hcut' : ∀ a b c d : String, a ++ (b ++ c ++ d) = (a ++ b) ++ (c ++ d) :=
    fun a b c d => by simp only [String.append_assoc]
  rw [hnull, hdefault, hcut', hcut']
  exact apart_values _ (x := 'o') (y := '/') (by decide) (by decide)
    (by decide) (by decide) _ _

end

-- ================================================================ the texts

variable (c : Candidate) (es : List ExperienceEntry) (ds : List EducationEntry)

theorem embed_hidden_iff :
    buildCandidateEmbedText (storing c es ds)
        = buildCandidateEmbedText (nullsRemoved (storing c es ds))
      ↔ ∀ e ∈ es, e.description.isSome = true := by
  rw [← joined_iff experienceLine_same experienceLine_apart
    ["Name: " ++ format c.fullName, "Summary: " ++ Py.optOr c.summary "",
      "Skills: " ++ join ", " c.skills]
    (ds.map fun d => educationLine d.modelDump) es]
  unfold buildCandidateEmbedText nullsRemoved storing
  simp only [List.map_map, Function.comp_def, educationLine_same]

theorem formatExperience_eq (exps : List Dict) :
    formatExperience exps = if exps = [] then "None listed"
      else join "\n" (exps.map experiencePoint) := rfl

theorem formatEducation_eq (edus : List Dict) :
    formatEducation edus = if edus = [] then "None listed"
      else join "\n" (edus.map educationPoint) := rfl

/-- The same of a list under its heading for an empty one. -/
theorem listed_iff {ε : Type} {point : Dict → String} {dump : ε → Dict}
    {Shown : ε → Prop}
    (hsame : ∀ e, Shown e → point (dump e) = point (withoutNulls (dump e)))
    (htold : ∀ e, ¬ Shown e → Apart "\n".toList (point (dump e)).toList
      (point (withoutNulls (dump e))).toList) (es : List ε) :
    (if es.map dump = [] then "None listed"
      else join "\n" ((es.map dump).map point))
        = (if (es.map dump).map withoutNulls = [] then "None listed"
          else join "\n" (((es.map dump).map withoutNulls).map point))
      ↔ ∀ e ∈ es, Shown e := by
  rw [← joined_iff hsame htold [] [] es]
  simp only [List.map_eq_nil_iff, List.map_map, Function.comp_def,
    List.nil_append, List.append_nil]
  split
  next hnil => simp [hnil]
  next => rfl

theorem experience_hidden_iff :
    formatExperience (storing c es ds).experience
        = formatExperience (nullsRemoved (storing c es ds)).experience
      ↔ ∀ e ∈ es, e.startDate.isSome = true ∧ e.endDate.isSome = true := by
  rw [formatExperience_eq, formatExperience_eq]
  exact listed_iff experiencePoint_same experiencePoint_apart es

theorem education_hidden_iff :
    formatEducation (storing c es ds).education
        = formatEducation (nullsRemoved (storing c es ds)).education
      ↔ ∀ d ∈ ds, d.graduationYear.isSome = true := by
  rw [formatEducation_eq, formatEducation_eq]
  exact listed_iff educationPoint_same educationPoint_apart ds

/-- The texts of stored entries are those of the entries without their
null keys exactly where no optional field is absent. -/
theorem nulls_hidden_iff :
    NullsHidden (storing c es ds)
      ↔ (∀ e ∈ es, ExperienceWhole e)
        ∧ ∀ d ∈ ds, d.graduationYear.isSome = true := by
  constructor
  · intro h
    have hdescription := (embed_hidden_iff c es ds).mp h.embedded
    have hdates := (experience_hidden_iff c es ds).mp h.experience
    refine ⟨fun e he => ?_, (education_hidden_iff c es ds).mp h.education⟩
    exact ⟨(hdates e he).1, (hdates e he).2, hdescription e he⟩
  · rintro ⟨hes, hds⟩
    refine ⟨(embed_hidden_iff c es ds).mpr fun e he => (hes e he).description,
      (experience_hidden_iff c es ds).mpr fun e he => ?_,
      (education_hidden_iff c es ds).mpr hds⟩
    exact ⟨(hes e he).startDate, (hes e he).endDate⟩

/-- An entry with no optional field. -/
def sampleExperience : ExperienceEntry where
  title := "Engineer"
  company := "Acme"

def sampleEducation : EducationEntry where
  degree := "BSc"
  institution := "MIT"

/-- The absent fields print as `None`, in all three texts. -/
theorem nulls_shown :
    experienceLine sampleExperience.modelDump
        = "Experience: Engineer at Acme - None"
    ∧ experienceLine (withoutNulls sampleExperience.modelDump)
        = "Experience: Engineer at Acme - "
    ∧ formatExperience [sampleExperience.modelDump]
        = "- Engineer at Acme (None – None)"
    ∧ formatExperience [withoutNulls sampleExperience.modelDump]
        = "- Engineer at Acme (? – Present)"
    ∧ formatEducation [sampleEducation.modelDump] = "- BSc from MIT (None)"
    ∧ formatEducation [withoutNulls sampleEducation.modelDump]
        = "- BSc from MIT (N/A)"
    ∧ ¬ NullsHidden (storing sampleRow [sampleExperience] [sampleEducation]) := by
  refine ⟨by decide, by decide, by decide, by decide, by decide, by decide,
    fun h => ?_⟩
  have hdescription := (embed_hidden_iff _ _ _).mp h.embedded sampleExperience
    (List.mem_singleton.mpr rfl)
  cases hdescription

end ResumeScreening.Screening
