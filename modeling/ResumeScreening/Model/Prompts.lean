/-
The texts the service builds for its models: the embedding texts of
app/services/ranking.py and the prompt values of
app/services/matching.py.

Stored experience and education entries are JSON objects: both create
paths store `model_dump()` dictionaries, so the `isinstance(exp, dict)`
tests of the source always hold and its `else` branches are left out.
-/
import ResumeScreening.Model.World

namespace ResumeScreening

open Py (Dict format optOr orStr join)

/-- One `Experience:` line. `get` without a default yields `None`, which
an f-string prints. -/
def experienceLine (exp : Dict) : String :=
  "Experience: " ++ format (exp.get "title" none) ++ " at "
    ++ format (exp.get "company" none) ++ " - "
    ++ format (exp.get "description" (some ""))

def educationLine (edu : Dict) : String :=
  "Education: " ++ format (edu.get "degree" none) ++ " from "
    ++ format (edu.get "institution" none)

def buildCandidateEmbedText (candidate : Candidate) : String :=
  join "\n"
    (["Name: " ++ format candidate.fullName,
      "Summary: " ++ optOr candidate.summary "",
      "Skills: " ++ join ", " candidate.skills]
      ++ candidate.experience.map experienceLine
      ++ candidate.education.map educationLine)

def buildJobEmbedText (job : Job) : String :=
  "Title: " ++ job.title ++ "\n"
    ++ "Company: " ++ optOr job.company "" ++ "\n"
    ++ "Description: " ++ job.description ++ "\n"
    ++ "Required Skills: " ++ join ", " job.requiredSkills ++ "\n"
    ++ "Preferred Skills: " ++ join ", " job.preferredSkills

def formatExperience (experience : List Dict) : String :=
  if experience = [] then "None listed"
  else join "\n" (experience.map fun exp =>
    "- " ++ format (exp.get "title" (some "N/A")) ++ " at "
      ++ format (exp.get "company" (some "N/A")) ++ " ("
      ++ format (exp.get "start_date" (some "?")) ++ " – "
      ++ format (exp.get "end_date" (some "Present")) ++ ")")

def formatEducation (education : List Dict) : String :=
  if education = [] then "None listed"
  else join "\n" (education.map fun edu =>
    "- " ++ format (edu.get "degree" (some "N/A")) ++ " from "
      ++ format (edu.get "institution" (some "N/A")) ++ " ("
      ++ format (edu.get "graduation_year" (some "N/A")) ++ ")")

/-- The values `generate_match_explanation` is asked with for a
candidate of a shortlist. -/
def matchPrompt (job : Job) (candidate : Candidate) : MatchPrompt where
  jobTitle := job.title
  company := optOr job.company "N/A"
  jobDescription := job.description
  requiredSkills := orStr (join ", " job.requiredSkills) "None specified"
  preferredSkills := orStr (join ", " job.preferredSkills) "None specified"
  candidateName := candidate.fullName
  candidateSummary := optOr candidate.summary "Not provided"
  candidateSkills := orStr (join ", " candidate.skills) "None listed"
  candidateExperience := formatExperience candidate.experience
  candidateEducation := formatEducation candidate.education

end ResumeScreening
