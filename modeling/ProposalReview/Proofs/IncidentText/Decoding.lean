import Mathlib
import ProposalReview.Proofs.IncidentText.Layout
import ProposalReview.Proofs.Incidents
/-!
What an incident record tells.

A record has as many lines before the file's as after it, whatever the path of the file holds: three and
five. So all lines can be told apart by counting from both ends, and what is left in the middle is the path.
Within a line the parts are told apart by marks that they do not hold themselves.
-/

namespace ProposalReview

variable {d d' : Decision} {now now' : RunClock} {dryRun dryRun' : Bool} {k k' : Kpi}

/-! ### Key figures -/

/-- The key figures by name, as they are printed. -/
def Kpi.printed (k : Kpi) : List (String × List Char) :=
  k.namedFigures.map fun f => (f.1, (Json.figure f.2).write)

/-- The names of the key figures that are printed as null. -/
def Kpi.nulls (k : Kpi) : List String := (k.printed.filter (·.2 = "null".toList)).map Prod.fst

theorem Kpi.printed_eq (h : k.toJson.write = k'.toJson.write) : k.printed = k'.printed := by
  have hcomma : ∀ k : Kpi, ∀ cs ∈ k.namedFigures.map writeFigure, ',' ∉ cs :=
    fun k cs hcs hc => absurd (k.plain_writeFigure cs hcs _ hc) (by decide)
  rw [write_toJson, write_toJson] at h
  have hmembers : k.namedFigures.map writeFigure = k'.namedFigures.map writeFigure :=
    Text.intercalate_inj (List.cons_ne_nil _ _) (List.cons_ne_nil _ _) (hcomma k) (hcomma k')
      (List.append_cancel_right (List.cons_injective h))
  simpa [namedFigures, writeFigure, printed] using hmembers

/-! ### Reasons -/

/-- Flagged decisions give the same reasons if these are listed alike. -/
theorem Decision.OfScan.reasons_eq (hd : d.OfScan) (hd' : d'.OfScan) (hflagged : d.reasons ≠ [])
    (hflagged' : d'.reasons ≠ []) (h : ", ".intercalate d.reasons = ", ".intercalate d'.reasons) :
    d.reasons = d'.reasons := by
  have hcomma : ∀ d : Decision, d.OfScan → ∀ cs ∈ d.reasons.map String.toList, ',' ∉ cs := by
    intro d hd cs hcs hc
    obtain ⟨r, hr, rfl⟩ := List.mem_map.mp hcs
    exact absurd (hd.plain_reasons r hr _ hc) (by decide)
  have hlisted := congrArg String.toList h
  rw [String.toList_intercalate, String.toList_intercalate] at hlisted
  have hne : d.reasons.map String.toList ≠ [] := by simpa using hflagged
  have hne' : d'.reasons.map String.toList ≠ [] := by simpa using hflagged'
  have hparts := Text.intercalate_inj hne hne' (hcomma d hd) (hcomma d' hd') hlisted
  exact List.map_injective_iff.mpr (fun _ _ => String.toList_injective) hparts

theorem Action.word_injective : Function.Injective Action.word := by
  intro a a' h
  cases a <;> cases a' <;> first | rfl | exact absurd h (by decide)

namespace Incident

/-! ### Records -/

/-- Two records of one text have the same lines. -/
theorem lines_eq (hd : d.OfScan) (hd' : d'.OfScan)
    (h : textChars d now dryRun = textChars d' now' dryRun') : headLines now = headLines now' ∧
      fileLine d = fileLine d' ∧ tailLines d dryRun = tailLines d' dryRun' := by
  have hpieces := congrArg Text.pieces h
  rw [pieces_textChars hd, pieces_textChars hd'] at hpieces
  have hlength : ∀ d dryRun, (tailLines d dryRun ++ [[]]).length = 6 := fun _ _ => by simp [tailLines]
  obtain ⟨hhead, hpieces⟩ := List.append_inj hpieces (by simp [headLines])
  obtain ⟨hfile, htail⟩ := List.append_inj' hpieces (by rw [hlength, hlength])
  exact ⟨hhead, Text.pieces_injective hfile, List.append_cancel_right htail⟩

/-- The record of a flagged decision tells the file, the action and the reasons, which key figures are
printed as null, whether the run was dry, and the microsecond of the run. -/
theorem text_tells (hd : d.OfScan) (hd' : d'.OfScan) (hflagged : d.reasons ≠ [])
    (hflagged' : d'.reasons ≠ []) (h : text d now dryRun = text d' now' dryRun') :
    d.file = d'.file ∧ d.action = d'.action ∧ d.reasons = d'.reasons ∧ d.kpi.nulls = d'.kpi.nulls ∧
      dryRun = dryRun' ∧ now.seconds = now'.seconds ∧ now.nanos / 1000 = now'.nanos / 1000 := by
  obtain ⟨hhead, hfile, htail⟩ := lines_eq hd hd' (String.ofList_injective h)
  have htime : now.timeUtcChars = now'.timeUtcChars := by
    simpa only [headLines, List.cons.injEq, List.append_cancel_left_eq, and_true, true_and] using hhead
  have hfile : d.file = d'.file := String.toList_injective (List.append_cancel_left hfile)
  simp only [tailLines, List.cons.injEq, List.append_cancel_left_eq, and_true] at htail
  obtain ⟨haction, hreasons, hkpi, -, hdry⟩ := htail
  have haction := Action.word_injective (String.toList_injective haction)
  have hreasons := hd.reasons_eq hd' hflagged hflagged' (String.toList_injective hreasons)
  have hnulls : d.kpi.nulls = d'.kpi.nulls := by rw [Kpi.nulls, Kpi.printed_eq hkpi, Kpi.nulls]
  have hdry : dryRun = dryRun' := by
    cases dryRun <;> cases dryRun' <;> first | rfl | exact absurd hdry (by decide)
  obtain ⟨hseconds, hmicros⟩ := Instant.timeUtcChars_inj.mp htime
  exact ⟨hfile, haction, hreasons, hnulls, hdry, hseconds, hmicros⟩

/-- Two proposals whose names look alike have one record in one microsecond, which tells what is the same
about them. -/
theorem text_tells_lookalikes : ∃ d d' : Decision, d.OfScan ∧ d'.OfScan ∧ d.source ≠ d'.source ∧
    d.reasons ≠ [] ∧ d'.reasons ≠ [] ∧ text d (.utc ⟨0, 1000⟩) false = text d' (.utc ⟨0, 1999⟩) false ∧
    d.file = d'.file ∧ d.action = d'.action ∧ d.reasons = d'.reasons ∧ d.kpi.nulls = d'.kpi.nulls := by
  let p (b : UInt8) (bytes : Bytes) : ProposalFile :=
    ⟨Specimen.dirs.inbox.child [0x61, b, 0x2e, 0x6d, 0x64], "a\ufffd.md", ⟨0, 0⟩, Text.decode bytes⟩
  let d := Run.decideOn Specimen.settings.gates (.utc ⟨0, 0⟩) (p 0xfe [1])
  let d' := Run.decideOn Specimen.settings.gates (.utc ⟨0, 0⟩) (p 0xff [2])
  have hscan : World.exec { tree := Run.lookalikes } (Inbox.scan Specimen.dirs.inbox)
      = (.ok [p 0xfe [1], p 0xff [2]], { tree := Run.lookalikes }) := rfl
  have hd : d.OfScan := .decided Run.lookalikes_wellFormed hscan (by simp) _ _
  have hd' : d'.OfScan := .decided Run.lookalikes_wellFormed hscan (by simp) _ _
  have hflagged : d.reasons ≠ [] := by decide +kernel
  have hflagged' : d'.reasons ≠ [] := by decide +kernel
  have hsame : d' = { d with source := d'.source } := by decide +kernel
  have htext : text d (.utc ⟨0, 1000⟩) false = text d' (.utc ⟨0, 1999⟩) false := by
    rw [hsame]
    rfl
  obtain ⟨hfile, haction, hreasons, hnulls, -⟩ := text_tells hd hd' hflagged hflagged' htext
  exact ⟨d, d', hd, hd', by decide +kernel, hflagged, hflagged', htext, hfile, haction, hreasons, hnulls⟩

end Incident

end ProposalReview
