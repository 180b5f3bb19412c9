import ProposalReview.Calendar.Instant
import ProposalReview.Decision.Decision
/-!
Incident records: the text that is filed for every proposal with a reason against it.
-/

namespace ProposalReview.Incident

/-- The text of an incident record. -/
def textChars (d : Decision) (now : RunClock) (dryRun : Bool) : List Char :=
  "# INCIDENT\n\n- time_utc: ".toList ++ now.timeUtcChars
    ++ "\n- file: ".toList ++ d.file.toList
    ++ "\n- action: ".toList ++ d.action.word.toList
    ++ "\n- reasons: ".toList ++ (", ".intercalate d.reasons).toList
    ++ "\n- kpi: ".toList ++ d.kpi.toJson.write
    ++ "\n- age_hours: ".toList ++ Decimal.twoPlaces d.ageHours
    ++ "\n- dry_run: ".toList ++ (if dryRun then "true" else "false").toList ++ ['\n']

/-- The text of an incident record. -/
def text (d : Decision) (now : RunClock) (dryRun : Bool) : String :=
  String.ofList (textChars d now dryRun)

/-- The base name of an incident record. -/
def fileName (d : Decision) (now : RunClock) : String :=
  "INC-" ++ now.stamp ++ "-" ++ d.fileStem ++ ".md"

/-- The path of an incident record in a directory. -/
def path (directory : Path) (d : Decision) (now : RunClock) : Path :=
  directory.join (.ofString (fileName d now))

end ProposalReview.Incident
