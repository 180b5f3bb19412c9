import Mathlib
import ProposalReview.Proofs.IncidentText.Layout
import ProposalReview.Proofs.Survey
/-!
What a reader of lines finds in an incident record.

Such a reader takes for a field what follows its label in the first line that begins with it. The path of
the file stands before the action and the reasons. So the reader finds those of the decision if the path is
shown on one line. But each line feed in the path begins one more line, and what such a line says is read
first.

    - file: i/a
    - action: promote     ◀── still the path
    .md
    - action: demote      ◀── the decision's own
-/

namespace ProposalReview.Incident

variable {d : Decision} {now : RunClock} {dryRun : Bool} {label : String} {own : List Char}

/-- What follows a label in the first of some lines that begins with it. -/
def field? (label : String) (ls : List (List Char)) : Option (List Char) :=
  ls.findSome? (label.toList.isPrefixOf? ·)

theorem field?_append (label : String) (ls ls' : List (List Char)) :
    field? label (ls ++ ls') = (field? label ls).or (field? label ls') :=
  List.findSome?_append

theorem field?_label_cons (label : String) (value : List Char) (ls : List (List Char)) :
    field? label ((label.toList ++ value) :: ls) = some value := by
  rw [field?, List.findSome?_cons, List.isPrefixOf?_eq_some_iff_append_eq.mpr rfl]

/-- A field after that of the file is found unless the file's line already has one of its label. -/
theorem field?_textChars (h : d.OfScan) (hhead : field? label (headLines now) = none)
    (htail : field? label (tailLines d dryRun) = some own) :
    field? label (Text.lines (textChars d now dryRun))
      = some ((field? label (Text.lines (fileLine d))).getD own) := by
  rw [lines_textChars h, field?_append, field?_append, field?_append, hhead, htail]
  cases field? label (Text.lines (fileLine d)) <;> rfl

theorem field?_action (h : d.OfScan) (now : RunClock) (dryRun : Bool) :
    field? "- action: " (Text.lines (textChars d now dryRun)) = some
      ((field? "- action: " (Text.lines (fileLine d))).getD d.action.word.toList) := by
  refine field?_textChars h ?_ ?_
  · rfl
  · exact field?_label_cons ..

theorem field?_reasons (h : d.OfScan) (now : RunClock) (dryRun : Bool) :
    field? "- reasons: " (Text.lines (textChars d now dryRun)) = some
      ((field? "- reasons: " (Text.lines (fileLine d))).getD (", ".intercalate d.reasons).toList) := by
  have haction : "- reasons: ".toList.isPrefixOf? ("- action: ".toList ++ d.action.word.toList) = none := rfl
  refine field?_textChars h ?_ ?_
  · rfl
  · rw [tailLines, field?, List.findSome?_cons, haction]
    exact field?_label_cons ..

theorem count_fileLine (d : Decision) : (fileLine d).count '\n' = d.file.toList.count '\n' := by
  have hlabel : "- file: ".toList.count '\n' = 0 := by decide
  unfold fileLine
  rw [List.count_append, hlabel, Nat.zero_add]

/-- The lines of a record are its own nine if the path of the file is shown on one line, with one more for
each line feed in the path otherwise, and an empty one at the end. A reader of lines takes the action and
the reasons from the decision, unless a line that begins in the path has their label. -/
theorem reader_finds_fields (h : d.OfScan) (now : RunClock) (dryRun : Bool) :
    let ls := Text.lines (text d now dryRun).toList
    let shown := Text.lines (fileLine d)
    ls = headLines now ++ (shown ++ (tailLines d dryRun ++ [[]])) ∧
    ls.length = 9 + d.file.toList.count '\n' + 1 ∧
    field? "- action: " ls = some ((field? "- action: " shown).getD d.action.word.toList) ∧
    field? "- reasons: " ls
      = some ((field? "- reasons: " shown).getD (", ".intercalate d.reasons).toList) ∧
    ('\n' ∉ d.file.toList →
      ls = headLines now ++ (fileLine d :: (tailLines d dryRun ++ [[]])) ∧
      field? "- action: " ls = some d.action.word.toList ∧
      field? "- reasons: " ls = some (", ".intercalate d.reasons).toList) := by
  intro ls shown
  have hls : ls = headLines now ++ (shown ++ (tailLines d dryRun ++ [[]])) := by
    simp only [ls, text, String.toList_ofList]
    exact lines_textChars h now dryRun
  have haction := field?_action h now dryRun
  have hreasons := field?_reasons h now dryRun
  rw [lines_textChars h] at haction hreasons
  rw [hls]
  refine ⟨rfl, ?_, haction, hreasons, ?_⟩
  · have hshown : shown.length = d.file.toList.count '\n' + 1 := by
      rw [Text.length_lines, count_fileLine]
    simp only [List.length_append, hshown, headLines, tailLines, List.length_cons, List.length_nil]
    omega
  · intro hfile
    have hshown : Text.lines (fileLine d) = [fileLine d] := by
      refine Text.lines_of_not_mem ?_
      rwa [← List.count_eq_zero, count_fileLine, List.count_eq_zero]
    -- the labels differ in their third characters
    have hnoAction : field? "- action: " [fileLine d] = none := rfl
    have hnoReasons : field? "- reasons: " [fileLine d] = none := rfl
    rw [hshown] at haction hreasons
    rw [hnoAction, Option.getD_none] at haction
    rw [hnoReasons, Option.getD_none] at hreasons
    simp only [shown, hshown, List.singleton_append] at haction hreasons ⊢
    exact ⟨trivial, haction, hreasons⟩

/-- The record of an ordinary proposal has nine lines, and what is read in it is the decision's own. -/
theorem reader_finds_fields_specimen :
    let d := Run.decideOn Specimen.settings.gates (.utc ⟨0, 0⟩) Specimen.proposal
    let ls := Text.lines (text d (.utc ⟨0, 0⟩) false).toList
    d.OfScan ∧ d.reasons ≠ [] ∧ '\n' ∉ d.file.toList ∧ ls.length = 9 + 1 ∧
    field? "- action: " ls = some "demote".toList ∧
    field? "- reasons: " ls = some (", ".intercalate d.reasons).toList := by
  intro d ls
  have hscan : World.exec { tree := Specimen.twoProposals } (Inbox.scan Specimen.dirs.inbox)
      = (.ok [Specimen.proposal, Specimen.otherProposal], { tree := Specimen.twoProposals }) := rfl
  have hd : d.OfScan := .decided Specimen.twoProposals_wellFormed hscan (by simp) _ _
  have hflagged : d.reasons ≠ [] := by decide +kernel
  have hfile : '\n' ∉ d.file.toList := by decide +kernel
  have haction : d.action = .demote := by decide +kernel
  obtain ⟨-, hlength, -, -, hown⟩ := reader_finds_fields hd (.utc ⟨0, 0⟩) false
  obtain ⟨-, hreadAction, hreadReasons⟩ := hown hfile
  rw [List.count_eq_zero.mpr hfile] at hlength
  rw [haction] at hreadAction
  exact ⟨hd, hflagged, hfile, hlength, hreadAction, hreadReasons⟩

/-- The name of a proposal that spells fields of its own. -/
def forgedName : Name := Text.encodeString "a\n- action: promote\n- reasons: none\n.md"

/-- A tree with a proposal of this name. -/
def forged : Tree := ⟨[([[0x69]], .directory), ([[0x69], forgedName], .file [1] ⟨0, 0⟩)]⟩

/-- What stands after a line feed in the name of a proposal can pass for a field: this proposal is demoted,
but a reader of lines finds it promoted. -/
theorem forged_name_misleads_reader :
    ¬ ∀ (d : Decision) (now : RunClock) (dryRun : Bool), d.OfScan → d.reasons ≠ [] →
      let ls := Text.lines (text d now dryRun).toList
      ls = headLines now ++ (fileLine d :: (tailLines d dryRun ++ [[]])) ∧
      field? "- action: " ls = some d.action.word.toList ∧
      field? "- reasons: " ls = some (", ".intercalate d.reasons).toList := by
  intro h
  have hw : forged.WellFormed := .of_entries (by decide) (by decide)
  have hseen : (World.exec { tree := forged } (Inbox.scan Specimen.dirs.inbox)).1.toOption.map
      (List.map fun p =>
        let d := Run.decideOn Specimen.settings.gates (.utc ⟨0, 0⟩) p
        (decide (d.reasons ≠ []), d.action, field? "- action: " (Text.lines (fileLine d))))
      = some [(true, .demote, some "promote".toList)] := by decide +kernel
  obtain ⟨files, w', hscan, hseen⟩ := World.exists_of_seen hseen
  obtain ⟨p, files, rfl, hp, -⟩ := List.map_eq_cons_iff.mp hseen
  simp only [Prod.mk.injEq, decide_eq_true_eq] at hp
  obtain ⟨hflagged, haction, hforged⟩ := hp
  have hd := Decision.OfScan.decided hw hscan List.mem_cons_self Specimen.settings.gates (.utc ⟨0, 0⟩)
  have hread := (h _ (.utc ⟨0, 0⟩) false hd hflagged).2.1
  rw [text, String.toList_ofList, field?_action hd, hforged, haction] at hread
  exact absurd hread (by decide)

end ProposalReview.Incident
