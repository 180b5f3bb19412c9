import Mathlib
import ProposalReview.Proofs.Proposal.Grammar
/-!
The fields of two texts with a line feed between them.

A blank end of a line says nothing: the line gives the same field and the same value without it. So it does
not matter that the line feed may take the last return of the first text, and reading the whole comes to
reading the second text after the first.

    text  ──▶ fields found so far ──rest──▶ fields of both
    seen         either text
    values       the first text's, else the second's
-/

namespace ProposalReview

open Proposal

variable {f : Field} {line rest tail : List Char}

/-! ### Blank ends of lines -/

/-- The colon of a field is not in a blank end of its line. -/
theorem Proposal.gives_append (h : ∀ c ∈ tail, Text.isBlank c) {rest' : List Char} :
    Gives (line ++ tail) f rest' ↔ ∃ rest, Gives line f rest ∧ rest' = rest ++ tail := by
  constructor
  · rintro ⟨lead, key, gap, hsplit, hlead, hkey, hgap⟩
    have hcolon : ':' ∉ tail := fun hmem => absurd (h _ hmem) (by decide)
    have hends : line ++ tail = (lead ++ (key ++ gap)) ++ ':' :: rest' := by simp [hsplit]
    rcases List.append_eq_append_iff.mp hends with ⟨as, -, htail⟩ | ⟨bs, hline, hafter⟩
    · exact absurd (by simp [htail]) hcolon
    · cases bs with
      | nil => exact absurd (by simp [← show ':' :: rest' = tail from hafter]) hcolon
      | cons b bs =>
        obtain ⟨rfl, rfl⟩ := List.cons.inj hafter
        exact ⟨bs, ⟨lead, key, gap, by simp [hline], hlead, hkey, hgap⟩, rfl⟩
  · rintro ⟨rest, ⟨lead, key, gap, rfl, hlead, hkey, hgap⟩, rfl⟩
    exact ⟨lead, key, gap, by simp, hlead, hkey, hgap⟩

theorem Proposal.fieldLine?_append (h : ∀ c ∈ tail, Text.isBlank c) :
    fieldLine? (line ++ tail) = (fieldLine? line).map fun fr => (fr.1, fr.2 ++ tail) := by
  apply Option.ext
  rintro ⟨f, rest'⟩
  simp only [Option.map_eq_some_iff, Prod.exists, Prod.mk.injEq, fieldLine?_eq_some_iff,
    gives_append h]
  constructor
  · rintro ⟨rest, hgives, rfl⟩
    exact ⟨f, rest, hgives, rfl, rfl⟩
  · rintro ⟨g, rest, hgives, rfl, rfl⟩
    exact ⟨rest, hgives, rfl⟩

theorem Field.valueIn_append (h : ∀ c ∈ tail, Text.isBlank c) (f : Field) :
    f.valueIn (rest ++ tail) = f.valueIn rest := by
  rw [valueIn, valueIn, Text.trim_append h, Text.firstToken_append h]

namespace Fields

variable {fs : Fields}

/-- A line says the same without its return. -/
theorem step_dropReturn (fs : Fields) (line : List Char) :
    fs.step (Text.dropReturn line) = fs.step line := by
  obtain ⟨tail, htail, hline⟩ := Text.exists_dropReturn line
  conv_rhs => rw [hline]
  rw [step, step, fieldLine?_append htail]
  cases fieldLine? (Text.dropReturn line) with
  | none => rfl
  | some fr => simp only [Option.map_some, Field.valueIn_append htail]

/-! ### Two texts -/

/-- Reading both texts is reading on with the lines of the second one. -/
theorem ofText_append_feed (text rest : List Char) :
    ofText (text ++ '\n' :: rest) = (Text.lines rest).foldl step (ofText text) := by
  obtain ⟨ls, last, hlines, hboth⟩ := Text.lines_append_feed text rest
  rw [ofText, ofText, hlines, hboth]
  simp only [List.foldl_append, List.foldl_cons, List.foldl_nil, step_dropReturn]

theorem isPresent_append_feed (text rest : List Char) (f : Field) :
    (ofText (text ++ '\n' :: rest)).isPresent f ↔
      (ofText text).isPresent f ∨ (ofText rest).isPresent f := by
  rw [ofText_append_feed, isPresent_foldl, ← isPresent_ofText]

theorem value?_append_feed (text rest : List Char) (f : Field) :
    (ofText (text ++ '\n' :: rest)).value? f
      = ((ofText text).value? f).or ((ofText rest).value? f) := by
  have hrest : (ofText rest).value? f
      = ((Text.lines rest).findSome? (filling? f)).map f.valueIn := by
    rw [ofText, value?_foldl, show value? {} f = none from rfl, Option.none_or]
  rw [ofText_append_feed, value?_foldl, hrest]

/-- Whatever key is asked for, the fields of two texts with a line feed between them are those of both: a
key is present if it is in either, and its value is that of the first text if it has one there, and else
that of the second. A return at the end of the first text makes no difference. -/
theorem ofText_joins (text rest : List Char) (k : String) :
    (k ∈ (ofText (text ++ '\n' :: rest)).presentKeys ↔
      k ∈ (ofText text).presentKeys ∨ k ∈ (ofText rest).presentKeys) ∧
    (ofText (text ++ '\n' :: rest)).valueOf? k
      = ((ofText text).valueOf? k).or ((ofText rest).valueOf? k) := by
  constructor
  · simp only [mem_presentKeys, isPresent_append_feed, or_and_right, exists_or]
  · by_cases hk : ∃ f : Field, f.key = k
    · obtain ⟨f, rfl⟩ := hk
      simp only [valueOf?_key, value?_append_feed]
    · have hnone : ∀ fs : Fields, fs.valueOf? k = none := by
        intro fs
        refine Option.eq_none_iff_forall_ne_some.mpr fun v hv => ?_
        obtain ⟨f, hf, -⟩ := valueOf?_eq_some_iff.mp hv
        exact hk ⟨f, hf⟩
      simp only [hnone, Option.or_none]

example : (ofText "drift:\r\ndrift: 5%".toList).valueOf? "drift" = some ['5', '%'] := by decide +kernel

end Fields

end ProposalReview
