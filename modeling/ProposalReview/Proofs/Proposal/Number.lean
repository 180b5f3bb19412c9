import Mathlib
import ProposalReview.Proofs.Decimal.Arithmetic
import ProposalReview.Proposal.Metadata
/-!
Which texts are numbers.

A text is a number if every underscore in it stands between two digits and the rest of it is the
numeral of a finite value. As a ratio it is a hundredth of that value if a percent sign or the value
itself says that it is a percentage, and a hundredth is finite as well.
-/

namespace ProposalReview.Proposal

variable {raw cs : List Char} {x y : Float} {afterDigit : Bool}

/-! ### Groups of digits -/

/-- Every underscore stands between two digits, given whether the character before the text is one. -/
def Grouped (afterDigit : Bool) (cs : List Char) : Prop :=
  ∀ before after, cs = before ++ '_' :: after →
    before.getLast?.elim afterDigit Char.isDigit ∧ after.head?.any Char.isDigit

theorem startsWithDigit_eq (cs : List Char) : startsWithDigit cs = cs.head?.any Char.isDigit := by
  cases cs <;> rfl

theorem grouped_nil : Grouped afterDigit [] := by
  intro before after h
  simp at h

/-- The last character of a text, or of what comes before it, after one more character. -/
theorem elim_getLast?_cons (afterDigit : Bool) (c : Char) (cs : List Char) :
    (c :: cs).getLast?.elim afterDigit Char.isDigit = cs.getLast?.elim c.isDigit Char.isDigit := by
  rw [List.getLast?_cons]
  cases cs.getLast? <;> rfl

theorem grouped_cons {c : Char} : Grouped afterDigit (c :: cs) ↔
    (c = '_' → afterDigit ∧ cs.head?.any Char.isDigit) ∧ Grouped c.isDigit cs := by
  constructor
  · intro h
    refine ⟨?_, fun before after hcs => ?_⟩
    · rintro rfl
      exact h [] cs rfl
    · rw [← elim_getLast?_cons afterDigit]
      exact h (c :: before) after (by rw [hcs, List.cons_append])
  · rintro ⟨hfirst, hrest⟩ before after hcs
    rcases before with _ | ⟨d, before⟩
    · obtain ⟨rfl, rfl⟩ := List.cons.inj hcs
      exact hfirst rfl
    · obtain ⟨rfl, rfl⟩ := List.cons.inj hcs
      rw [elim_getLast?_cons]
      exact hrest before after rfl

/-- Underscores are removed only where they group digits. -/
theorem ungroup?_eq_some_iff {out : List Char} :
    ungroup? afterDigit cs = some out ↔ Grouped afterDigit cs ∧ out = cs.filter (· != '_') := by
  induction cs generalizing afterDigit out with
  | nil => simp [ungroup?, grouped_nil, eq_comm]
  | cons c cs ih =>
    rw [ungroup?, grouped_cons, startsWithDigit_eq]
    split_ifs with hc hdigits
    · subst hc
      rw [ih, List.filter_cons_of_neg (by decide)]
      simp only [Bool.and_eq_true] at hdigits
      simp [hdigits]
    · simp only [Bool.and_eq_true] at hdigits
      simp [hc, hdigits]
    · rw [List.filter_cons_of_pos (by simpa using hc)]
      simp only [hc, false_implies, true_and, Option.map_eq_some_iff, ih]
      constructor
      · rintro ⟨out, ⟨hgrouped, rfl⟩, rfl⟩
        exact ⟨hgrouped, rfl⟩
      · rintro ⟨hgrouped, rfl⟩
        exact ⟨_, ⟨hgrouped, rfl⟩, rfl⟩

/-! ### Numbers -/

/-- A text is the number of a value: without percent signs and outer blanks its digits are grouped, and
without underscores it is the numeral of that finite value. -/
structure Writes (raw : List Char) (x : Float) : Prop where
  grouped : Grouped false (withoutPercent raw)
  reads : Decimal.readFloat? ((withoutPercent raw).filter (· != '_')) = some x
  finite : x.isFinite = true

theorem plainNumber?_eq_some_iff : plainNumber? raw = some x ↔ Writes raw x := by
  have hread : (ungroup? false (withoutPercent raw)).bind Decimal.readFloat? = some x ↔
      Grouped false (withoutPercent raw) ∧
        Decimal.readFloat? ((withoutPercent raw).filter (· != '_')) = some x := by
    simp [Option.bind_eq_some_iff, ungroup?_eq_some_iff, and_assoc]
  rw [plainNumber?]
  constructor
  · intro h
    split at h
    · split_ifs at h with hfinite
      obtain rfl := Option.some.inj h
      obtain ⟨hgrouped, hreads⟩ := hread.mp ‹_›
      exact ⟨hgrouped, hreads, hfinite⟩
    · cases h
  · intro h
    rw [hread.mpr ⟨h.grouped, h.reads⟩]
    exact if_pos h.finite

/-- A text is the ratio of a value: a percentage if it bears a percent sign or is above one. -/
def WritesRatio (raw : List Char) (y : Float) : Prop :=
  ∃ x, Writes raw x ∧ y = if '%' ∈ raw ∨ 1.0 < x then x / 100.0 else x

theorem number?_magnitude (raw : List Char) : number? .magnitude raw = plainNumber? raw :=
  Option.map_id'

theorem number?_ratio (raw : List Char) : number? .ratio raw =
    (plainNumber? raw).map fun x => if '%' ∈ raw ∨ 1.0 < x then x / 100.0 else x := by
  rw [number?]
  congr 1
  funext x
  by_cases hpercent : '%' ∈ raw <;> simp [hpercent]

theorem number?_ratio_eq_some_iff : number? .ratio raw = some y ↔ WritesRatio raw y := by
  rw [number?_ratio, Option.map_eq_some_iff]
  exact exists_congr fun x => and_congr plainNumber?_eq_some_iff eq_comm

/-- A ratio is finite. -/
theorem WritesRatio.isFinite (h : WritesRatio raw y) : y.isFinite = true := by
  obtain ⟨x, hx, rfl⟩ := h
  split_ifs
  · exact Decimal.isFinite_div_hundred hx.finite
  · exact hx.finite

/-- A text gives a finite number or none. -/
theorem isFinite_of_number? {scale : Scale} (h : number? scale raw = some y) : y.isFinite = true := by
  cases scale with
  | ratio => exact (number?_ratio_eq_some_iff.mp h).isFinite
  | magnitude =>
    rw [number?_magnitude, plainNumber?_eq_some_iff] at h
    exact h.finite

end ProposalReview.Proposal

namespace ProposalReview

/-- A field holds a finite number or none. -/
theorem Metadata.isFinite_of_number? {fs : Fields} {f : Field} {scale : Scale} {x : Float}
    (h : number? fs f scale = some x) : x.isFinite = true := by
  obtain ⟨raw, -, hraw⟩ := Option.bind_eq_some_iff.mp h
  exact Proposal.isFinite_of_number? hraw

end ProposalReview
