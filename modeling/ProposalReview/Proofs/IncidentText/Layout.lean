import Mathlib
import ProposalReview.Proofs.Json.Null
import ProposalReview.Proofs.Naming
/-!
How the text of an incident record is laid out.

The record of a decision about a scanned proposal is written as nine lines. Eight of them are made of fixed
words, digits and a few marks, and hold no end of a line. The other one is the path of the file as it is
shown, and that may hold anything.

    # INCIDENT                    ┐
                                  │ headLines
    - time_utc: ..                ┘
    - file: ..                      may be several lines
    - action: ..                  ┐
      :                           │ tailLines
    - dry_run: ..                 ┘
-/

namespace ProposalReview

open Text (Unbroken unbroken_append)

/-! ### Decisions about what was scanned -/

/-- A decision about a proposal that a scan gives: the local one, or that with another action. -/
inductive Decision.OfScan : Decision → Prop
  | decided {w w' : World} {inbox : Path} {files : List ProposalFile} {p : ProposalFile}
      (hw : w.tree.WellFormed) (hscan : w.exec (Inbox.scan inbox) = (.ok files, w')) (hp : p ∈ files)
      (gates : GateSettings) (now : RunClock) : OfScan (Run.decideOn gates now p)
  | overridden {d : Decision} (h : OfScan d) (a : Action) : OfScan (d.override a)

variable {d : Decision} {now : RunClock} {dryRun : Bool} {line : List Char}

/-- All reasons are codes of gates. -/
theorem Decision.OfScan.exists_gate (h : d.OfScan) :
    ∀ r ∈ d.reasons, ∃ t, ∃ g : Gate, r = g.code t := by
  induction h with
  | decided _ _ _ gates now =>
    intro r hr
    obtain ⟨g, -, rfl⟩ := List.mem_map.mp hr
    exact ⟨_, g, rfl⟩
  | overridden _ a ih => rwa [Decision.reasons_override]

/-- The path of a child is shown with the name at its end. -/
theorem Path.display_child {n : Name} (h : Name.Valid n) (p : Path) :
    ∃ before, (p.child n).display.toList = before ++ Text.decode n := by
  rw [Path.display, Text.decodeString, String.toList_ofList]
  rcases Path.child_bytes h p with ⟨-, hc⟩ | ⟨as, -, hc⟩
  · exact ⟨[], by rw [hc, List.nil_append]⟩
  · exact ⟨Text.decode as ++ ['/'], by rw [hc, Text.decode_append_slash]; simp⟩

/-- The path of the file is shown with the extension of a proposal at its end. -/
theorem Decision.OfScan.file_ends (h : d.OfScan) :
    ∃ before, d.file.toList = before ++ ['.', 'm', 'd'] := by
  induction h with
  | decided hw hscan hp gates now =>
    obtain ⟨-, ns, hns⟩ := Inbox.scan_ok hw hscan
    obtain ⟨n, hread, hn⟩ := hns.of_mem hp
    obtain ⟨before, hbefore⟩ := Path.display_child hn _
    rw [(Run.about_decideOn hread gates now).file, hbefore, Inbox.decode_proposal hread.proposal]
    exact ⟨before ++ _, (List.append_assoc ..).symm⟩
  | overridden _ a ih => rwa [Decision.file_override]

namespace Incident

/-! ### Texts that part nothing -/

/-- The characters that part lines, and what is listed in a line. -/
def marks : List Char := ['\n', '\r', ',']

/-- Whether a text holds none of the marks. -/
def Plain (cs : List Char) : Prop := ∀ c ∈ cs, c ∉ marks

-- the instance for all characters of the type would be found first
instance : DecidablePred Plain := fun cs => List.decidableBAll (· ∉ marks) cs

@[simp] theorem plain_append {as bs : List Char} : Plain (as ++ bs) ↔ Plain as ∧ Plain bs :=
  List.forall_mem_append

theorem not_mark_of_isNumeric {c : Char} (h : Decimal.IsNumeric c) : c ∉ marks := by
  intro hmark
  simp only [marks, List.mem_cons, List.not_mem_nil, or_false] at hmark
  rcases hmark with rfl | rfl | rfl <;> exact absurd h (by decide)

theorem plain_of_isNumeric (h : ∀ c ∈ line, Decimal.IsNumeric c) : Plain line :=
  fun c hc => not_mark_of_isNumeric (h c hc)

theorem plain_notFinite (b : Decimal.Binary) : Plain (Decimal.notFinite b) := by
  rw [Decimal.notFinite.eq_def]
  split <;> decide

theorem plain_finite? {s : Decimal.Style} {x : Float} (h : s.finite? x = some line) : Plain line :=
  plain_of_isNumeric fun _ hc => Decimal.isNumeric_of_mem_finite? h hc

theorem plain_write (s : Decimal.Style) (x : Float) : Plain (s.write x) := by
  rw [Decimal.Style.write]
  rcases hcs : s.finite? x with _ | cs
  · exact plain_notFinite _
  · exact plain_finite? hcs

theorem plain_twoPlaces (x : Float) : Plain (Decimal.twoPlaces x) := by
  rw [Decimal.twoPlaces]
  split
  · refine plain_of_isNumeric fun c hc => Decimal.isNumeric_of_mem_signed ?_ hc
    intro c hc
    rcases List.mem_append.mp hc with hc | hc
    · exact Decimal.isNumeric_of_mem_natDigits hc
    · rcases List.mem_cons.mp hc with rfl | hc
      · decide
      · exact Decimal.isNumeric_of_mem_padded hc
  · exact plain_notFinite _

/-- The text of a figure is a number, or null. -/
theorem plain_figure (x : Option Float) : Plain (Json.figure x).write := by
  have hnull : Plain ['n', 'u', 'l', 'l'] := by decide
  cases x with
  | none => exact hnull
  | some x =>
    change Plain (Json.writeFloat x)
    rw [Json.writeFloat]
    rcases hcs : Json.floatStyle.finite? x with _ | cs
    · exact hnull
    · exact plain_finite? hcs

/-- The code of the age gate is a word with a number in it, and all other codes are fixed words. -/
theorem plain_code (t : Thresholds) (g : Gate) : Plain (g.code t).toList := by
  cases g
  case sla =>
    have hhours : Plain (String.ofList (codeStyle.write t.slaHours)).toList := by
      rw [String.toList_ofList]
      exact plain_write codeStyle t.slaHours
    rw [Gate.code, slaCode, String.toList_append, String.toList_append, plain_append, plain_append]
    exact ⟨⟨by decide, hhours⟩, by decide⟩
  all_goals
    rw [Gate.code]
    decide

theorem Plain.unbroken (h : Plain line) : Unbroken line :=
  ⟨fun hc => absurd (h _ hc) (by decide), fun hc => absurd (h _ hc) (by decide)⟩

end Incident

open Incident

/-- No reason holds the mark that stands between reasons. -/
theorem Decision.OfScan.plain_reasons (h : d.OfScan) : ∀ r ∈ d.reasons, Plain r.toList := by
  intro r hr
  obtain ⟨t, g, rfl⟩ := h.exists_gate r hr
  exact plain_code t g

/-! ### Key figures -/

/-- The key figures by name, in the order in which they are written. -/
def Kpi.namedFigures (k : Kpi) : List (String × Option Float) :=
  [("success_rate", k.successRate), ("drift", k.drift), ("reproducibility", k.reproducibility),
    ("revenue_usdc", k.revenueUsdc), ("token_cost_usdc", k.tokenCostUsdc), ("margin_rate", k.marginRate)]

/-- A member of the key figures, as it is written. -/
def Kpi.writeFigure (f : String × Option Float) : List Char :=
  Json.writeString f.1 ++ ':' :: (Json.figure f.2).write

theorem Kpi.write_toJson (k : Kpi) :
    k.toJson.write = '\x7b' :: ([','].intercalate (k.namedFigures.map writeFigure) ++ ['\x7d']) := by
  simp only [toJson, Json.write, Json.writeMembers, namedFigures, writeFigure, List.map_cons, List.map_nil,
    Text.intercalate_cons, List.flatMap_cons, List.flatMap_nil, List.append_assoc, List.cons_append,
    List.nil_append]

theorem Kpi.plain_writeFigure (k : Kpi) : ∀ cs ∈ k.namedFigures.map writeFigure, Plain cs := by
  have hkeys : ∀ f ∈ k.namedFigures, Plain (Json.writeString f.1) := by
    simp only [namedFigures, List.forall_mem_cons, List.not_mem_nil, false_imp_iff, implies_true, and_true]
    decide
  have hcolon : Plain [':'] := by decide
  intro cs hcs
  obtain ⟨f, hf, rfl⟩ := List.mem_map.mp hcs
  rw [writeFigure, ← List.singleton_append, plain_append, plain_append]
  exact ⟨hkeys f hf, hcolon, plain_figure f.2⟩

theorem Kpi.unbroken_write (k : Kpi) : Unbroken k.toJson.write := by
  have hopen : Unbroken ['\x7b'] := by decide
  have hclose : Unbroken ['\x7d'] := by decide
  rw [write_toJson, ← List.singleton_append, unbroken_append, unbroken_append]
  exact ⟨hopen, .intercalate (by decide) fun cs hcs => (k.plain_writeFigure cs hcs).unbroken, hclose⟩

namespace Incident

/-! ### The layout -/

/-- The lines of a record before that of the file. -/
def headLines (now : RunClock) : List (List Char) :=
  ["# INCIDENT".toList, [], "- time_utc: ".toList ++ now.timeUtcChars]

/-- The line of the file, which may hold line feeds of its own. -/
def fileLine (d : Decision) : List Char := "- file: ".toList ++ d.file.toList

/-- The lines of a record after that of the file. -/
def tailLines (d : Decision) (dryRun : Bool) : List (List Char) :=
  ["- action: ".toList ++ d.action.word.toList,
    "- reasons: ".toList ++ (", ".intercalate d.reasons).toList,
    "- kpi: ".toList ++ d.kpi.toJson.write,
    "- age_hours: ".toList ++ Decimal.twoPlaces d.ageHours,
    "- dry_run: ".toList ++ (if dryRun then "true" else "false").toList]

theorem textChars_eq (d : Decision) (now : RunClock) (dryRun : Bool) : textChars d now dryRun =
    Text.unlines (headLines now) ++ (fileLine d ++ '\n' :: Text.unlines (tailLines d dryRun)) := by
  have hhead : "# INCIDENT\n\n- time_utc: ".toList
      = "# INCIDENT".toList ++ '\n' :: '\n' :: "- time_utc: ".toList := rfl
  have hfile : "\n- file: ".toList = '\n' :: "- file: ".toList := rfl
  have haction : "\n- action: ".toList = '\n' :: "- action: ".toList := rfl
  have hreasons : "\n- reasons: ".toList = '\n' :: "- reasons: ".toList := rfl
  have hkpi : "\n- kpi: ".toList = '\n' :: "- kpi: ".toList := rfl
  have hage : "\n- age_hours: ".toList = '\n' :: "- age_hours: ".toList := rfl
  have hdry : "\n- dry_run: ".toList = '\n' :: "- dry_run: ".toList := rfl
  unfold textChars fileLine
  simp only [hhead, hfile, haction, hreasons, hkpi, hage, hdry]
  simp only [headLines, tailLines, Text.unlines_cons, Text.unlines_nil, List.append_assoc,
    List.cons_append, List.nil_append]

theorem unbroken_headLines (now : RunClock) : ∀ l ∈ headLines now, Unbroken l := by
  have htime : Plain now.timeUtcChars := by
    intro c hc
    rcases Instant.isNumeric_of_mem_timeUtcChars hc with hc | rfl | rfl
    · exact not_mark_of_isNumeric hc
    · decide
    · decide
  simp only [headLines, List.forall_mem_cons, List.not_mem_nil, false_imp_iff, implies_true, and_true,
    unbroken_append]
  exact ⟨by decide, by decide, by decide, htime.unbroken⟩

theorem unbroken_tailLines (h : d.OfScan) (dryRun : Bool) : ∀ l ∈ tailLines d dryRun, Unbroken l := by
  have haction : Unbroken d.action.word.toList := by cases d.action <;> decide
  have hreasons : Unbroken (", ".intercalate d.reasons).toList := by
    rw [String.toList_intercalate]
    refine Unbroken.intercalate (by decide) ?_
    simpa using fun r hr => (h.plain_reasons r hr).unbroken
  have hage := (plain_twoPlaces d.ageHours).unbroken
  have hdry : Unbroken (if dryRun then "true" else "false").toList := by cases dryRun <;> decide
  simp only [tailLines, List.forall_mem_cons, List.not_mem_nil, false_imp_iff, implies_true, and_true,
    unbroken_append]
  exact ⟨⟨by decide, haction⟩, ⟨by decide, hreasons⟩, ⟨by decide, d.kpi.unbroken_write⟩,
    ⟨by decide, hage⟩, by decide, hdry⟩

/-- Between the line feeds of a record stand its own lines, and the pieces of the file's. -/
theorem pieces_textChars (h : d.OfScan) (now : RunClock) (dryRun : Bool) :
    Text.pieces (textChars d now dryRun) =
      headLines now ++ (Text.pieces (fileLine d) ++ (tailLines d dryRun ++ [[]])) := by
  rw [textChars_eq, Text.pieces_unlines_append fun l hl => (unbroken_headLines now l hl).1,
    Text.pieces_append_feed, Text.pieces_unlines fun l hl => (unbroken_tailLines h dryRun l hl).1]

/-- A reader of lines finds those of the record, and those of the file's line between them. -/
theorem lines_textChars (h : d.OfScan) (now : RunClock) (dryRun : Bool) :
    Text.lines (textChars d now dryRun) =
      headLines now ++ (Text.lines (fileLine d) ++ (tailLines d dryRun ++ [[]])) := by
  have hlast : (fileLine d).getLast? ≠ some '\r' := by
    obtain ⟨before, hfile⟩ := h.file_ends
    unfold fileLine
    rw [hfile, ← List.append_assoc, List.getLast?_append]
    simp
  rw [textChars_eq, Text.lines_unlines_append (unbroken_headLines now),
    Text.lines_append_feed_of_getLast? hlast, Text.lines_unlines (unbroken_tailLines h dryRun)]

end Incident

end ProposalReview
