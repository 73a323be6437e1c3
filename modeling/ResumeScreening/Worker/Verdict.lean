/-
Whose fault a permanent failure is.

The claim is that a resume is given up exactly if its file is bad: that it
cannot be read, or yields no text. The verdict is made by the class of the
exception alone, in the `except ValueError` of `process_pending_candidate`,
and that class is not the file's. pypdf's `PdfReadError` is no
`ValueError`, so an unreadable file is retried; the answer of a language
model that does not fit the schema raises one, so a good file is given up
(`verdict_misplaced`).

`verdict_iff` is exact: over two behaviours of the model, the verdict is
about the file where the file's error, if it has one, is a `ValueError`,
and the model's, if the file has text, is not.
-/
import ResumeScreening.Worker.Handling

namespace ResumeScreening.Worker

open Effect Prog Pipeline
open Py (DateTime)

variable {env : Env} {w w' : World} {r : Candidate} {bytes : List UInt8}
  {m : Message} {llm llm' : Except LibraryError ParsedResume} {id : UUID}
  {now : DateTime}

-- ============================================================ the statement

/-- The resume is given up: marked failed, its message deleted. -/
def Discarded (r : Candidate) (m : Message) (w' : World) : Prop :=
  StatusIs r.id .failed w' ∧ ¬ Waiting m.receiptHandle w'

/-- It is left for a retry. -/
def Retried (r : Candidate) (m : Message) (w' : World) : Prop :=
  StatusIs r.id .processing w' ∧ Waiting m.receiptHandle w'

/-- The file cannot be read or yields no text. -/
def BadFile (env : Env) (bytes : List UInt8) : Prop :=
  (∃ x, extractTextFromPdf env bytes = .error x)
    ∨ extractTextFromPdf env bytes = .ok ""

/-- The model was asked and failed. -/
def ModelFails (env : Env) (bytes : List UInt8)
    (llm : Except LibraryError ParsedResume) : Prop :=
  (∃ text, Reads env bytes text) ∧ ∃ x, llm = .error x

/-- A verdict about the file: it is given up exactly if it is bad, and a
failure of the model leaves it for a retry. -/
def AboutFile (env : Env) (bytes : List UInt8)
    (llm : Except LibraryError ParsedResume) (r : Candidate) (m : Message)
    (w' : World) : Prop :=
  (Discarded r m w' ↔ BadFile env bytes)
    ∧ (ModelFails env bytes llm → Retried r m w')

/-- The exceptions are of the classes the handler takes them for. -/
def RightClasses (env : Env) (bytes : List UInt8)
    (llm : Except LibraryError ParsedResume) : Prop :=
  (∀ msg, env.pdfPages bytes ≠ .error (.other msg))
    ∧ ∀ text, Reads env bytes text → ∀ msg, llm ≠ .error (.valueError msg)

-- ================================================================== the ends

theorem EndsAs.discarded_iff {s : Status} {gone : Bool}
    (h : EndsAs r m s gone w') :
    Discarded r m w' ↔ s = .failed ∧ gone = true := by
  unfold Discarded
  rw [h.status, h.message]

theorem EndsAs.retried (h : EndsAs r m .processing false w') :
    Retried r m w' := by
  refine ⟨(h.status _).mpr rfl, ?_⟩
  by_contra hgone
  cases h.message.mp hgone

/-- The text of a file, or its error, is what its pages give. -/
theorem extract_error {x : LibraryError} (h : env.pdfPages bytes = .error x) :
    extractTextFromPdf env bytes = .error x.exn := by
  unfold extractTextFromPdf
  rw [h]

theorem extract_ok {text : String}
    (h : extractTextFromPdf env bytes = .ok text) (x : LibraryError) :
    env.pdfPages bytes ≠ .error x := by
  intro hx
  rw [extract_error hx] at h
  cases h

/-- Another exception of a library is no `ValueError`. -/
theorem other_exn (msg msg' : String) :
    (LibraryError.other msg).exn ≠ .valueError msg' := by
  intro h
  cases h

section

variable (h : Uploaded env r bytes m w)

include h

/-- An unreadable file. -/
theorem unreadable_iff {x : LibraryError}
    (hx : env.pdfPages bytes = .error x) :
    AboutFile env bytes llm r m (handled env llm id now m w)
      ↔ RightClasses env bytes llm := by
  have herror := extract_error hx
  have hbad : BadFile env bytes := .inl ⟨_, herror⟩
  have hnone : ∀ text, ¬ Reads env bytes text := by
    intro text hreads
    rw [hreads.1] at herror
    cases herror
  have hquiet : ¬ ModelFails env bytes llm := fun hf =>
    hf.1.elim fun text => hnone text
  have hparsed : parsedFrom env bytes llm = .error x.exn := by
    unfold parsedFrom
    rw [herror]
  cases x with
  | valueError msg =>
      have hend := handled_bad id now h hparsed
      refine iff_of_true ⟨?_, fun hf => absurd hf hquiet⟩ ⟨?_, ?_⟩
      · exact iff_of_true (hend.discarded_iff.mpr ⟨rfl, rfl⟩) hbad
      · intro msg' hother
        rw [hx] at hother
        cases hother
      · exact fun text hreads => absurd hreads (hnone text)
  | other msg =>
      have hend := handled_later id now h (other_exn msg) hparsed
      refine iff_of_false (fun habout => ?_) fun hright => hright.1 msg hx
      cases (hend.discarded_iff.mp (habout.1.mpr hbad)).2

/-- A file that yields no text. -/
theorem empty_iff (hx : extractTextFromPdf env bytes = .ok "") :
    AboutFile env bytes llm r m (handled env llm id now m w)
      ↔ RightClasses env bytes llm := by
  have hnone : ∀ text, ¬ Reads env bytes text := by
    intro text hreads
    rw [hreads.1] at hx
    exact hreads.2 (Except.ok.inj hx)
  have hparsed : parsedFrom env bytes llm = .error noTextError := by
    unfold parsedFrom
    rw [hx]
    rfl
  have hend := handled_bad id now h hparsed
  refine iff_of_true ⟨?_, ?_⟩ ⟨fun msg => extract_ok hx _, ?_⟩
  · exact iff_of_true (hend.discarded_iff.mpr ⟨rfl, rfl⟩) (.inr hx)
  · exact fun hf => hf.1.elim fun text hreads => absurd hreads (hnone text)
  · exact fun text hreads => absurd hreads (hnone text)

/-- A file with text: the model decides. -/
theorem readable_iff {text : String} (hreads : Reads env bytes text) :
    AboutFile env bytes llm r m (handled env llm id now m w)
      ↔ RightClasses env bytes llm := by
  have hgood : ¬ BadFile env bytes := by
    rintro (⟨x, hx⟩ | hx)
    · rw [hreads.1] at hx
      cases hx
    · rw [hreads.1] at hx
      exact hreads.2 (Except.ok.inj hx)
  have hfile : ∀ msg, env.pdfPages bytes ≠ .error (.other msg) :=
    fun msg => extract_ok hreads.1 _
  cases llm with
  | ok p =>
      have hparsed := parsedFrom_ok hreads p
      have hkept : ¬ Discarded r m (handled env (.ok p) id now m w) := by
        rcases handled_whole id now h hparsed with
          ⟨-, hend⟩ | ⟨-, hend⟩
        · intro hd
          cases (hend.discarded_iff.mp hd).1
        · intro hd
          cases (hend.discarded_iff.mp hd).1
      refine iff_of_true ⟨iff_of_false hkept hgood, ?_⟩
        ⟨hfile, fun _ _ _ heq => by cases heq⟩
      rintro ⟨-, x, hx⟩
      cases hx
  | error x =>
      have hparsed := parsedFrom_error hreads x
      cases x with
      | valueError msg =>
          have hend := handled_bad id now h hparsed
          refine iff_of_false (fun habout => ?_) fun hright =>
            hright.2 text hreads msg rfl
          exact hgood (habout.1.mp (hend.discarded_iff.mpr ⟨rfl, rfl⟩))
      | other msg =>
          have hend := handled_later id now h (other_exn msg) hparsed
          refine iff_of_true ⟨iff_of_false (fun hd => ?_) hgood,
            fun _ => hend.retried⟩ ⟨hfile, fun _ _ _ heq => by cases heq⟩
          cases (hend.discarded_iff.mp hd).2

variable (llm id now) in
theorem aboutFile_iff :
    AboutFile env bytes llm r m (handled env llm id now m w)
      ↔ RightClasses env bytes llm := by
  cases hx : env.pdfPages bytes with
  | error x => exact unreadable_iff h hx
  | ok pages =>
      have htext : extractTextFromPdf env bytes
          = .ok (Py.strip (Py.join "\n" pages)) := by
        unfold extractTextFromPdf
        rw [hx]
      by_cases hempty : Py.strip (Py.join "\n" pages) = ""
      · rw [hempty] at htext
        exact empty_iff h htext
      · exact readable_iff h ⟨htext, hempty⟩

end

variable (llm llm' id now) in
/-- Under two behaviours of the model the verdict is about the file, and
the same, exactly if the exceptions are of the right classes. -/
theorem verdict_iff (h : Uploaded env r bytes m w) :
    (AboutFile env bytes llm r m (handled env llm id now m w)
      ∧ AboutFile env bytes llm' r m (handled env llm' id now m w)
      ∧ (Discarded r m (handled env llm id now m w)
        ↔ Discarded r m (handled env llm' id now m w)))
      ↔ RightClasses env bytes llm ∧ RightClasses env bytes llm' := by
  rw [← aboutFile_iff llm id now h, ← aboutFile_iff llm' id now h]
  constructor
  · exact fun ⟨hone, htwo, _⟩ => ⟨hone, htwo⟩
  · exact fun ⟨hone, htwo⟩ => ⟨hone, htwo, hone.1.trans htwo.1.symm⟩

-- ================================================================== samples

/-- A model that is down. -/
def down : Except LibraryError ParsedResume := .error (.other "refused")

/-- A model whose answer does not fit the schema. -/
def misfit : Except LibraryError ParsedResume :=
  .error (.valueError "ValidationError")

/-- The sample settings, with a file pypdf cannot read. -/
def unreadableEnv : Env :=
  { sampleEnv with pdfPages := fun _ => .error (.other "PdfReadError") }

/-- A file with text is not given up, whether the model answers or is
down. -/
theorem verdict_sample :
    ¬ Discarded sampleRow uploadedMessage (handled sampleEnv
        (.ok { fullName := "Ada" }) sampleRow.id DateTime.epoch uploadedMessage
        uploaded.world)
      ∧ ¬ Discarded sampleRow uploadedMessage (handled sampleEnv down
        sampleRow.id DateTime.epoch uploadedMessage uploaded.world) := by
  have hfile : ∀ msg, sampleEnv.pdfPages samplePdf.bytes
      ≠ .error (.other msg) := fun _ => nofun
  have hgood : ¬ BadFile sampleEnv samplePdf.bytes := by
    rintro (⟨x, hx⟩ | hx)
    · cases hx
    · exact absurd hx (by decide)
  obtain ⟨⟨hone, -⟩, ⟨htwo, -⟩, -⟩ :=
    (verdict_iff (.ok { fullName := "Ada" }) down sampleRow.id DateTime.epoch
      (sample_uploaded sampleEnv rfl)).mpr
      ⟨⟨hfile, fun _ _ _ => nofun⟩, ⟨hfile, fun _ _ _ => nofun⟩⟩
  exact ⟨fun hd => hgood (hone.mp hd), fun hd => hgood (htwo.mp hd)⟩

/-- A good file is given up because the model's answer does not fit, and
an unreadable one is retried. -/
theorem verdict_misplaced :
    (¬ BadFile sampleEnv samplePdf.bytes
      ∧ Discarded sampleRow uploadedMessage (handled sampleEnv misfit
        sampleRow.id DateTime.epoch uploadedMessage uploaded.world))
    ∧ BadFile unreadableEnv samplePdf.bytes
      ∧ Retried sampleRow uploadedMessage (handled unreadableEnv down
        sampleRow.id DateTime.epoch uploadedMessage uploaded.world) := by
  have hmisfit : parsedFrom sampleEnv samplePdf.bytes misfit
      = .error (.valueError "ValidationError") := by
    decide
  have hunread : parsedFrom unreadableEnv samplePdf.bytes down
      = .error (.external "PdfReadError") := by
    decide
  refine ⟨⟨?_, ?_⟩, .inl ⟨_, rfl⟩, ?_⟩
  · rintro (⟨x, hx⟩ | hx)
    · cases hx
    · exact absurd hx (by decide)
  · have hend := handled_bad sampleRow.id DateTime.epoch (sample_uploaded sampleEnv rfl)
      hmisfit
    exact hend.discarded_iff.mpr ⟨rfl, rfl⟩
  · have hend := handled_later sampleRow.id DateTime.epoch
      (sample_uploaded unreadableEnv rfl) (fun _ h => by cases h) hunread
    exact hend.retried

end ResumeScreening.Worker
