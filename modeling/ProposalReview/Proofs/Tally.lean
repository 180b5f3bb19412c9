import Mathlib
import ProposalReview.Summary
/-!
What a summary counts.

Every record has one action, so the counts of the actions add up to the total. A low margin rate is one
of the warnings, so the files that are listed for their margins are no more than the records with a
warning. Counting goes record by record: of two lists the counts add up, and no order matters.

    files listed for margins  ≤  warn  ≤  total  =  promote + demote + hold
-/

namespace ProposalReview

/-- Counts added up, each with its like. -/
def Counts.add (a b : Counts) : Counts where
  total := a.total + b.total
  promote := a.promote + b.promote
  demote := a.demote + b.demote
  hold := a.hold + b.hold
  warn := a.warn + b.warn

instance : Add Counts := ⟨Counts.add⟩

/-- The value of a member of an object. -/
def Json.member? (key : String) (j : Json) : Option Json := j.object?.bind (JsonObject.last? key)

namespace Summary

variable {rs rs' : List Record}

/-! ### Actions and warnings -/

/-- Every record is counted for just one action. -/
theorem countAction_add (rs : List Record) :
    countAction .promote rs + countAction .demote rs + countAction .hold rs = rs.length := by
  induction rs with
  | nil => rfl
  | cons r rs ih =>
    simp only [countAction, List.countP_cons, List.length_cons] at ih ⊢
    cases r.decision.action <;> simp <;> omega

theorem warn_le_total (rs : List Record) : (countsOf rs).warn ≤ (countsOf rs).total :=
  List.countP_le_length

/-- A record that is listed for its margin bears a warning. -/
theorem length_marginFilesOf_le (rs : List Record) :
    (marginFilesOf rs).length ≤ (countsOf rs).warn := by
  rw [marginFilesOf, List.length_map, ← List.countP_eq_length_filter]
  refine List.countP_mono_left fun r _ hlow => ?_
  cases hwarnings : r.decision.warnings with
  | nil => simp [Decision.hasWarning, hwarnings] at hlow
  | cons => rfl

/-- There is no average margin rate just when no record has a margin rate. -/
theorem avgMarginRate_eq_none {least : Float} : (economicsOf least rs).avgMarginRate = none ↔
    ∀ r ∈ rs, r.decision.kpi.marginRate = none := by
  rw [← List.filterMap_eq_nil_iff, ← List.isEmpty_iff]
  simp only [economicsOf, mean?]
  split_ifs with h <;> simp [h]

/-! ### Two lists, and another order -/

theorem countsOf_append (rs rs' : List Record) :
    countsOf (rs ++ rs') = countsOf rs + countsOf rs' := by
  change countsOf (rs ++ rs') = (countsOf rs).add (countsOf rs')
  simp only [countsOf, countAction, List.length_append, List.countP_append, Counts.add]

theorem marginFilesOf_append (rs rs' : List Record) :
    marginFilesOf (rs ++ rs') = marginFilesOf rs ++ marginFilesOf rs' := by
  simp only [marginFilesOf, List.filter_append, List.map_append]

theorem countsOf_perm (h : rs.Perm rs') : countsOf rs = countsOf rs' := by
  simp only [countsOf, countAction, h.length_eq, h.countP_eq]

theorem marginFilesOf_perm (h : rs.Perm rs') : (marginFilesOf rs).Perm (marginFilesOf rs') :=
  (h.filter _).map _

/-- A summary accounts for every record. The counts of the actions add up to the total, and the files
listed for their margins, whose number is reported with them, are at most as many as the records with a
warning. The records are passed on as they are, and an average margin rate is missing just when no
record has a margin rate. Of two lists the counts add up and the files come one after the other; in
another order the counts are the same and the files are the same up to their order. -/
theorem ofRecords_accounts (timeUtc : String) (dryRun : Bool) (least : Float)
    (xs ys : List Record) :
    let s := ofRecords timeUtc dryRun least
    ((s xs).counts.promote + (s xs).counts.demote + (s xs).counts.hold = (s xs).counts.total ∧
      (s xs).counts.total = xs.length) ∧
    ((s xs).toJson.member? "margin_warnings").bind (Json.member? "count")
      = some (natJson (s xs).marginFiles.length) ∧
    ((s xs).marginFiles.length ≤ (s xs).counts.warn ∧ (s xs).counts.warn ≤ (s xs).counts.total) ∧
    (s xs).decisions = xs ∧
    ((s xs).economics.avgMarginRate = none ↔ ∀ r ∈ xs, r.decision.kpi.marginRate = none) ∧
    (s (xs ++ ys)).counts = (s xs).counts + (s ys).counts ∧
    (s (xs ++ ys)).marginFiles = (s xs).marginFiles ++ (s ys).marginFiles ∧
    ∀ zs, zs.Perm xs → (s zs).counts = (s xs).counts ∧
      (s zs).marginFiles.Perm (s xs).marginFiles :=
  ⟨⟨countAction_add xs, rfl⟩, rfl, ⟨length_marginFilesOf_le xs, warn_le_total xs⟩, rfl,
    avgMarginRate_eq_none, countsOf_append xs ys, marginFilesOf_append xs ys,
    fun _ hzs => ⟨countsOf_perm hzs, marginFilesOf_perm hzs⟩⟩

end Summary

/-- A record of a proposal that was promoted with a low margin rate. -/
def Specimen.cheap : Record where
  decision := ⟨"a.md", ⟨[]⟩, .promote, [], [marginWarning], { marginRate := some 0.1 }, 0.0⟩
  destination := "p/a.md"
  incident := none

/-- A record of a proposal that was demoted against the local decision. -/
def Specimen.overruled : Record where
  decision := ⟨"b.md", ⟨[]⟩, .demote, [], [overrideWarning], {}, 0.0⟩
  destination := "d/b.md"
  incident := none

/-- Two records with a warning each, of which one is about the margin, in both orders. -/
theorem Summary.ofRecords_accounts_twoRecords :
    let s := ofRecords "t" false 0.3
    [Specimen.overruled, Specimen.cheap].Perm [Specimen.cheap, Specimen.overruled] ∧
    (s [Specimen.overruled, Specimen.cheap]).counts = (s [Specimen.cheap, Specimen.overruled]).counts ∧
    (s [Specimen.cheap, Specimen.overruled]).counts = ⟨2, 1, 1, 0, 2⟩ ∧
    (s [Specimen.cheap, Specimen.overruled]).marginFiles = ["a.md"] ∧
    (s [Specimen.cheap, Specimen.overruled]).economics.avgMarginRate ≠ none := by
  intro s
  have hperm : [Specimen.overruled, Specimen.cheap].Perm [Specimen.cheap, Specimen.overruled] :=
    .swap ..
  obtain ⟨-, -, -, -, havg, -, -, horder⟩ := ofRecords_accounts "t" false 0.3
    [Specimen.cheap, Specimen.overruled] []
  refine ⟨hperm, (horder _ hperm).1, by decide +kernel, by decide +kernel, fun hnone => ?_⟩
  have hrate := havg.mp hnone Specimen.cheap (by simp)
  cases hrate

end ProposalReview
