import ProposalReview.Proofs.Proposal.Number
import ProposalReview.Proofs.Text.Blank
/-!
Which spellings give the same number.

Percent signs and outer blanks are taken off before a number is read, wherever the signs stand. An
underscore goes unread if it stands between two digits, and leaves no number if it stands elsewhere.

    500   5_00   5e2   5_00e0         500
    _500  500_   5__00  5_.0   5e_2   no number
    50%   %50    " 5%0 "              50, as a ratio its hundredth
-/

namespace ProposalReview.Proposal

variable {raw cs before after : List Char} {x : Float} {afterDigit : Bool}

/-! ### One more underscore -/

/-- Whether the character before a text is a digit matters only if the text begins with an underscore. -/
theorem grouped_congr (h : after.head?.any Char.isDigit) (b : Bool) :
    Grouped b after ↔ Grouped afterDigit after := by
  cases after with
  | nil => cases h
  | cons c cs =>
    have hc : c ≠ '_' := by
      rintro rfl
      cases h
    simp only [grouped_cons, hc, false_implies, true_and]

/-- An underscore more is in its place if it stands between two digits, and then the others are as they
were before. -/
theorem grouped_underscore : Grouped afterDigit (before ++ '_' :: after) ↔
    (before.getLast?.elim afterDigit Char.isDigit ∧ after.head?.any Char.isDigit) ∧
      Grouped afterDigit (before ++ after) := by
  induction before generalizing afterDigit with
  | nil =>
    simp only [List.nil_append, grouped_cons, List.getLast?_nil, Option.elim_none, true_implies]
    exact and_congr_right fun h => grouped_congr h.2 _
  | cons c before ih =>
    rw [List.cons_append, List.cons_append, grouped_cons, grouped_cons, ih, elim_getLast?_cons]
    -- if a digit comes last before the new underscore, no other underscore has it as its neighbour
    have hnext : before.getLast?.elim c.isDigit Char.isDigit = true → c = '_' →
        (before ++ '_' :: after).head? = (before ++ after).head? := by
      rintro hdigit rfl
      cases before with
      | nil => cases hdigit
      | cons => rfl
    constructor
    · rintro ⟨hc, hbetween, hrest⟩
      exact ⟨hbetween, fun h => hnext hbetween.1 h ▸ hc h, hrest⟩
    · rintro ⟨hbetween, hc, hrest⟩
      exact ⟨fun h => hnext hbetween.1 h ▸ hc h, hbetween, hrest⟩

/-- Whether a text has neither percent signs nor blanks. -/
def Plain (raw : List Char) : Prop := ∀ c ∈ raw, c ≠ '%' ∧ Text.isBlank c = false

theorem Plain.withoutPercent_eq (h : Plain raw) : withoutPercent raw = raw := by
  have htrim : Text.trim raw = raw := by
    refine Text.trim_eq_iff.mpr ⟨[], [], by simp, by simp, by simp, fun c hc => ?_, fun c hc => ?_⟩
    · exact (h c (List.mem_of_head? hc)).2
    · exact (h c (List.mem_of_getLast? hc)).2
  have hfilter : raw.filter (· != '%') = raw :=
    List.filter_eq_self.mpr fun c hc => by simpa using (h c hc).1
  rw [withoutPercent, htrim, hfilter, htrim]

theorem Plain.underscore (h : Plain (before ++ after)) : Plain (before ++ '_' :: after) := by
  intro c hc
  rcases List.mem_append.mp hc with hc | hc
  · exact h c (List.mem_append_left _ hc)
  · rcases List.mem_cons.mp hc with rfl | hc
    · exact ⟨by decide, by decide⟩
    · exact h c (List.mem_append_right _ hc)

theorem Plain.writes_iff (h : Plain raw) : Writes raw x ↔ Grouped false raw ∧
    Decimal.readFloat? (raw.filter (· != '_')) = some x ∧ x.isFinite = true := by
  constructor
  · rintro ⟨hgrouped, hreads, hfinite⟩
    rw [h.withoutPercent_eq] at hgrouped hreads
    exact ⟨hgrouped, hreads, hfinite⟩
  · rintro ⟨hgrouped, hreads, hfinite⟩
    exact ⟨by rwa [h.withoutPercent_eq], by rwa [h.withoutPercent_eq], hfinite⟩

theorem Plain.plainNumber?_underscore (h : Plain (before ++ after)) :
    plainNumber? (before ++ '_' :: after) =
      if before.getLast?.any Char.isDigit ∧ after.head?.any Char.isDigit
      then plainNumber? (before ++ after) else none := by
  have hlast : before.getLast?.elim false Char.isDigit = before.getLast?.any Char.isDigit := by
    cases before.getLast? <;> rfl
  have hread : (before ++ '_' :: after).filter (· != '_') = (before ++ after).filter (· != '_') := by
    rw [List.filter_append, List.filter_cons_of_neg (by decide), List.filter_append]
  have hwrites : ∀ x, Writes (before ++ '_' :: after) x ↔
      (before.getLast?.any Char.isDigit ∧ after.head?.any Char.isDigit) ∧
        Writes (before ++ after) x := by
    intro x
    rw [h.underscore.writes_iff, h.writes_iff, grouped_underscore, hlast, hread, and_assoc]
  ext x
  rw [plainNumber?_eq_some_iff, hwrites]
  split_ifs with hbetween
  · rw [plainNumber?_eq_some_iff]
    exact and_iff_right hbetween
  · simp [hbetween]

/-- Wherever one more underscore is put into a text without percent signs and blanks, whatever stands in
it: between two digits it changes nothing, and anywhere else it leaves no number. -/
theorem number?_underscore (scale : Scale) (before after : List Char)
    (h : Plain (before ++ after)) :
    number? scale (before ++ '_' :: after) =
      if before.getLast?.any Char.isDigit ∧ after.head?.any Char.isDigit
      then number? scale (before ++ after) else none := by
  have hsign : (before ++ '_' :: after).contains '%' = (before ++ after).contains '%' := by
    rw [Bool.eq_iff_iff]
    simp
  rw [number?, h.plainNumber?_underscore, number?, hsign]
  split_ifs <;> rfl

/-- In `1_000.5e1_0` one more underscore is in its place before the point between two digits, and not
beside the one that is there, beside the point, after the exponent's letter or at the end. -/
theorem number?_underscore_grouped :
    Plain "1_000.5e1_0".toList ∧
    number? .magnitude "1_000.5e1_0".toList = some 1.0005e13 ∧
    number? .magnitude "1_00_0.5e1_0".toList = number? .magnitude "1_000.5e1_0".toList ∧
    ∀ text ∈ ["1__000.5e1_0", "1_000_.5e1_0", "1_000.5e_1_0", "1_000.5e1_0_"],
      number? .magnitude text.toList = none := by
  have hplain : Plain "1_000.5e1_0".toList := by
    simp [Plain, Text.isBlank, Text.inRanges, Text.blankRanges]
  have hmore := number?_underscore .magnitude
  refine ⟨hplain, by decide +kernel, hmore "1_00".toList "0.5e1_0".toList hplain, ?_⟩
  simp only [List.forall_mem_cons]
  exact ⟨hmore "1_".toList "000.5e1_0".toList hplain, hmore "1_000".toList ".5e1_0".toList hplain,
    hmore "1_000.5e".toList "1_0".toList hplain, hmore "1_000.5e1_0".toList [] hplain, by simp⟩

/-! ### Percent signs and blanks -/

/-- Whether a text is another one with percent signs put in anywhere and blanks at its ends. -/
inductive Dressed (raw : List Char) : List Char → Prop
  | bare : Dressed raw raw
  | sign (before after : List Char) :
    Dressed raw (before ++ after) → Dressed raw (before ++ '%' :: after)
  | blankBefore {c : Char} {cs : List Char} :
    Text.isBlank c → Dressed raw cs → Dressed raw (c :: cs)
  | blankAfter {c : Char} {cs : List Char} :
    Text.isBlank c → Dressed raw cs → Dressed raw (cs ++ [c])

/-- It does not matter whether the outer blanks are taken off before the percent signs as well. -/
theorem withoutPercent_eq (cs : List Char) :
    withoutPercent cs = Text.trim (cs.filter (· != '%')) := by
  obtain ⟨lead, tail, hcs, hlead, htail, -⟩ := Text.trim_eq_iff.mp (rfl : Text.trim cs = Text.trim cs)
  have hfilter : cs.filter (· != '%') = lead.filter (· != '%') ++
      ((Text.trim cs).filter (· != '%') ++ tail.filter (· != '%')) := by
    conv_lhs => rw [hcs]
    rw [List.filter_append, List.filter_append]
  rw [withoutPercent, hfilter, Text.trim_blanks_append fun c hc => hlead c (List.mem_of_mem_filter hc),
    Text.trim_append fun c hc => htail c (List.mem_of_mem_filter hc)]

/-- Neither percent signs nor outer blanks are left of what a text is dressed with. -/
theorem Dressed.withoutPercent_eq (h : Dressed raw cs) : withoutPercent cs = withoutPercent raw := by
  have hblank : ∀ {c : Char}, Text.isBlank c → ∀ d ∈ [c].filter (· != '%'), Text.isBlank d := by
    intro c hc d hd
    rwa [List.mem_singleton.mp (List.mem_of_mem_filter hd)]
  rw [Proposal.withoutPercent_eq, Proposal.withoutPercent_eq]
  induction h with
  | bare => rfl
  | sign _ _ _ ih =>
    rw [← ih, List.filter_append, List.filter_append, List.filter_cons_of_neg (by decide)]
  | blankBefore hc _ ih =>
    rw [← ih, ← List.singleton_append, List.filter_append, Text.trim_blanks_append (hblank hc)]
  | blankAfter hc _ ih => rw [← ih, List.filter_append, Text.trim_append (hblank hc)]

/-- A text dressed with percent signs, and perhaps with blanks, is the same magnitude as the text without
them, and as a ratio the hundredth of that. The text without them is the same ratio if its magnitude is
above one, and otherwise its own magnitude; it is a ratio whenever it is a magnitude. Whatever a text is
read as is finite. -/
theorem number?_dressed (h : Dressed raw cs) (hraw : '%' ∉ raw) (hcs : '%' ∈ cs) :
    number? .magnitude cs = number? .magnitude raw ∧
    number? .ratio cs = (number? .magnitude raw).map (· / 100.0) ∧
    (number? .magnitude raw = none → number? .ratio raw = none) ∧
    (∀ x, number? .magnitude raw = some x →
      number? .ratio raw = if 1.0 < x then number? .ratio cs else some x) ∧
    ∀ scale text y, number? scale text = some y → y.isFinite = true := by
  have hplain : plainNumber? cs = plainNumber? raw := by
    rw [plainNumber?, h.withoutPercent_eq, plainNumber?]
  simp only [number?_magnitude, number?_ratio, hplain, hcs, hraw, true_or, false_or, if_true]
  refine ⟨trivial, trivial, fun hnone => ?_, fun x hx => ?_, fun scale text y => ?_⟩
  · rw [hnone, Option.map_none]
  · rw [hx, Option.map_some, Option.map_some]
    split_ifs <;> rfl
  · exact isFinite_of_number?

/-- The text `5_0.0` with percent signs beside its point, and with blanks of three kinds around the
whole. -/
theorem number?_dressed_fifty :
    let raw := "5_0.0".toList
    let cs := " \u20035_0%.%0\t".toList
    Dressed raw cs ∧ '%' ∉ raw ∧ '%' ∈ cs ∧ number? .magnitude raw = some 50.0 ∧
    number? .magnitude cs = some 50.0 ∧ number? .ratio cs = some 0.5 ∧
    number? .ratio raw = some 0.5 := by
  intro raw cs
  have hpoint : Dressed raw "5_0%.%0".toList :=
    .sign "5_0".toList ".%0".toList (.sign "5_0.".toList "0".toList .bare)
  have hdressed : Dressed raw cs := .blankBefore (by decide +kernel) (.blankBefore (by decide +kernel)
    (.blankAfter (by decide +kernel) hpoint))
  have hraw : number? .magnitude raw = some 50.0 := by decide +kernel
  obtain ⟨hmagnitude, hratio, -, habove, -⟩ :=
    number?_dressed hdressed (by decide +kernel) (by decide +kernel)
  have hhalf : number? .ratio cs = some 0.5 := by
    rw [hratio, hraw]
    decide +kernel
  refine ⟨hdressed, by decide +kernel, by decide +kernel, hraw, hmagnitude.trans hraw, hhalf, ?_⟩
  rw [habove 50.0 hraw, if_pos (by decide +kernel), hhalf]

end ProposalReview.Proposal
