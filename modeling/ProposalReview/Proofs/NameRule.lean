import Mathlib
import ProposalReview.Proofs.Pattern.Reader
import ProposalReview.Settings
/-!
Which file names a rule accepts.

A rule looks only at where the leftmost match of its pattern starts. No match starts before that one, so
it is at the start of the name exactly if some match is. Whether the pattern is anchored itself, how it
ranks its matches and what it matches further on make no difference, and neither does what compiled it.
-/

namespace ProposalReview.GateSettings

variable {compile : Pattern.Compiler} {text : String} {g : GateSettings}

theorem compile_of_withPrefix (h : withPrefix compile text = .ok g) :
    compile text = .ok g.nameRule.pattern := by
  rw [withPrefix, NameRule.ofText] at h
  cases hp : compile text with
  | error detail =>
    rw [hp] at h
    cases h
  | ok p =>
    rw [hp] at h
    cases h
    rfl

/-- Whatever compiles a rule to a pattern whose repetitions have their bounds in order: a name is accepted
exactly if the pattern has a match that starts where the name does. -/
theorem accepts_iff_match_at_start (hordered : ∀ p, compile text = .ok p → p.WellFormed)
    (h : withPrefix compile text = .ok g) (name : String) : g.nameRule.accepts name = true ↔
      ∃ p, compile text = .ok p ∧ ∃ j, Pattern.Matches name.toList.toArray p 0 j := by
  have hcompile := compile_of_withPrefix h
  rw [NameRule.accepts, Pattern.matchesStart_iff (hordered _ hcompile), hcompile]
  simp only [Except.ok.injEq, exists_eq_left']

/-- The rule `\bDOC|Y+?` is not anchored. It has a match that starts `DOC-1.md`, and none that starts
`MY-DOC.md`, where it matches twice further on. -/
theorem accepts_iff_match_at_start_document :
    ∃ g p, withPrefix Pattern.compile "\\bDOC|Y+?" = .ok g ∧
      Pattern.compile "\\bDOC|Y+?" = .ok p ∧
      (∃ j, Pattern.Matches "DOC-1.md".toList.toArray p 0 j) ∧
      ∀ j, ¬ Pattern.Matches "MY-DOC.md".toList.toArray p 0 j := by
  obtain ⟨g, hg, haccepted, hrefused⟩ : ∃ g, withPrefix Pattern.compile "\\bDOC|Y+?" = .ok g ∧
      g.nameRule.accepts "DOC-1.md" = true ∧ g.nameRule.accepts "MY-DOC.md" = false :=
    ⟨_, rfl, rfl, rfl⟩
  have hordered : ∀ p, Pattern.compile "\\bDOC|Y+?" = .ok p → p.WellFormed :=
    fun _ => Pattern.wellFormed_of_compile
  obtain ⟨p, hp, hmatch⟩ := (accepts_iff_match_at_start hordered hg "DOC-1.md").mp haccepted
  refine ⟨g, p, hg, hp, hmatch, fun j hj => ?_⟩
  have haccepted := (accepts_iff_match_at_start hordered hg "MY-DOC.md").mpr ⟨p, hp, j, hj⟩
  rw [hrefused] at haccepted
  cases haccepted

end ProposalReview.GateSettings
