import Mathlib
import ProposalReview.Calendar.Instant
import ProposalReview.Proofs.Text.Lines
/-!
What a written time says about the time.

A date determines its day, digits determine their number, and all fields of a stamp but the year have a
fixed width. So two times have one stamp exactly if they are in the same second. A stamp can also be told
from what follows it after a hyphen, although the stamp has hyphens itself and years differ in width. What
is written with marks between the fields has the microsecond too.
-/

namespace ProposalReview

/-! ### Digits -/

namespace Decimal

variable {width n : Nat} {c : Char}

/-- Padded digits can be read back. -/
theorem ofDigitChars_padded (width n : Nat) : Nat.ofDigitChars 10 (padded width n) 0 = n := by
  rw [padded, Nat.ofDigitChars_append, Nat.ofDigitChars_replicate_zero, Nat.mul_zero, natDigits,
    Nat.ofDigitChars_toDigits (by decide) (by decide)]

theorem padded_injective (width : Nat) : Function.Injective (padded width) := by
  intro m n h
  simpa [ofDigitChars_padded] using congrArg (Nat.ofDigitChars 10 · 0) h

theorem length_padded (hwidth : 0 < width) (hn : n < 10 ^ width) :
    (padded width n).length = width := by
  have hle : (natDigits n).length ≤ width :=
    (Nat.length_toDigits_le_iff (by decide) hwidth).mpr hn
  simp [padded]
  omega

theorem ofDigitChars_padded_from (hwidth : 0 < width) (hn : n < 10 ^ width) (init : Nat) :
    Nat.ofDigitChars 10 (padded width n) init = 10 ^ width * init + n := by
  rw [Nat.ofDigitChars_eq_ofDigitChars_zero, length_padded hwidth hn, ofDigitChars_padded]

theorem isDigit_of_mem_natDigits (h : c ∈ natDigits n) : c.isDigit :=
  Nat.isDigit_of_mem_toDigits (by decide) (by decide) h

theorem isDigit_of_mem_padded (h : c ∈ padded width n) : c.isDigit := by
  rcases List.mem_append.mp h with h | h
  · rw [List.eq_of_mem_replicate h]
    decide
  · exact isDigit_of_mem_natDigits h

theorem filter_padded (width n : Nat) : (padded width n).filter Char.isDigit = padded width n :=
  List.filter_eq_self.mpr fun _ => isDigit_of_mem_padded

theorem not_mem_padded (hc : c.isDigit = false) : c ∉ padded width n :=
  fun h => absurd (isDigit_of_mem_padded h) (by simp [hc])

/-- Whether a character may be part of a number. -/
def IsNumeric (c : Char) : Prop := c.isDigit ∨ c ∈ ['-', '+', '.', 'e']

instance : DecidablePred IsNumeric := fun _ => inferInstanceAs (Decidable (_ ∨ _))

theorem isNumeric_of_mem_natDigits (h : c ∈ natDigits n) : IsNumeric c :=
  .inl (isDigit_of_mem_natDigits h)

theorem isNumeric_of_mem_padded (h : c ∈ padded width n) : IsNumeric c :=
  .inl (isDigit_of_mem_padded h)

end Decimal

/-! ### Dates -/

namespace Date

/-- The date of a day in a year that begins in March. -/
def ofMarch (year : Int) (dayOfYear : Nat) : Date :=
  let shifted := (5 * dayOfYear + 2) / 153
  let month := if shifted < 10 then shifted + 3 else shifted - 9
  ⟨if month ≤ 2 then year + 1 else year, month, dayOfYear - (153 * shifted + 2) / 5 + 1⟩

/-- The days from the beginning of 1970 to a date. -/
def toDays (d : Date) : Int :=
  let year := if d.month ≤ 2 then d.year - 1 else d.year
  let shifted : Int := if d.month ≤ 2 then d.month + 9 else d.month - 3
  year / 400 * 146097 + year % 400 / 100 * 36524 + year % 100 / 4 * 1461 + year % 4 * 365
    + (153 * shifted + 2) / 5 + d.day - 719469

/-- A date is found by parting its days into four centuries each, centuries, four years each, years and
a rest. There is a day more only in the last of four years, and at the end of a century only in the last
of four centuries. -/
theorem ofDays_parts (days : Int) : ∃ (era : Int) (century quad year rest : Nat), century ≤ 3 ∧
    quad ≤ 24 ∧ year ≤ 3 ∧ rest ≤ 365 ∧ (rest = 365 → year = 3 ∧ (quad = 24 → century = 3)) ∧
    days + 719468 = era * 146097 + century * 36524 + quad * 1461 + year * 365 + rest ∧
    ofDays days = ofMarch (era * 400 + (century * 100 + quad * 4 + year : Nat)) rest := by
  refine ⟨_, _, _, _, _, ?_, ?_, ?_, ?_, ?_, ?_, rfl⟩
  · omega
  · omega
  · omega
  · omega
  · omega
  · omega

theorem ofMarch_ranges {year : Int} {rest : Nat} (h : rest ≤ 365) :
    (ofMarch year rest).month ≤ 12 ∧ (ofMarch year rest).day ≤ 31 := by
  simp only [ofMarch]
  split_ifs <;> omega

theorem toDays_ofMarch {year : Int} {rest : Nat} (h : rest ≤ 365) : (ofMarch year rest).toDays
    = year / 400 * 146097 + year % 400 / 100 * 36524 + year % 100 / 4 * 1461 + year % 4 * 365 + rest
      - 719468 := by
  have hshifted : (5 * rest + 2) / 153 ≤ 11 := by omega
  have hday : (153 * ((5 * rest + 2) / 153) + 2) / 5 ≤ rest := by omega
  rw [ofMarch, toDays]
  -- with the month as a variable of its own, all that is left is linear
  generalize (5 * rest + 2) / 153 = shifted at hshifted hday
  by_cases hspring : shifted < 10
  · simp only [hspring, if_true]
    rw [if_neg (by omega), if_neg (by omega), if_neg (by omega)]
    omega
  · simp only [hspring, if_false]
    rw [if_pos (by omega), if_pos (by omega), if_pos (by omega)]
    omega

/-- The date of a day leads back to the day. -/
theorem toDays_ofDays (days : Int) : (ofDays days).toDays = days := by
  obtain ⟨era, century, quad, year, rest, hcentury, hquad, hyear, hrest, -, hdays, hdate⟩ :=
    ofDays_parts days
  rw [hdate, toDays_ofMarch hrest]
  omega

theorem ofDays_injective : Function.Injective ofDays :=
  Function.LeftInverse.injective toDays_ofDays

theorem ofDays_ranges (days : Int) : (ofDays days).month ≤ 12 ∧ (ofDays days).day ≤ 31 := by
  obtain ⟨_, _, _, _, rest, -, -, -, hrest, -, -, hdate⟩ := ofDays_parts days
  rw [hdate]
  exact ofMarch_ranges hrest

/-- Reading the digits of a year passes over the sign. -/
theorem ofDigitChars_yearDigits (year : Int) :
    Nat.ofDigitChars 10 (yearDigits year) 0 = year.natAbs := by
  cases year with
  | ofNat n =>
    rw [yearDigits]
    split_ifs
    · exact Decimal.ofDigitChars_padded 4 n
    · rw [Nat.ofDigitChars_cons, Decimal.natDigits]
      exact Nat.ofDigitChars_toDigits (by decide) (by decide)
  | negSucc n =>
    rw [yearDigits, Nat.ofDigitChars_cons]
    exact Decimal.ofDigitChars_padded 4 (n + 1)

/-- A hyphen begins the digits of a negative year, and nothing else has one. -/
theorem yearDigits_hyphen (year : Int) :
    ∃ c cs, yearDigits year = c :: cs ∧ (c = '-' ↔ year < 0) ∧ '-' ∉ cs := by
  have hdigits : ∀ {cs : List Char}, (∀ c ∈ cs, c.isDigit) → '-' ∉ cs :=
    fun h hmem => absurd (h _ hmem) (by decide)
  cases year with
  | ofNat n =>
    rw [yearDigits]
    split_ifs with hsmall
    · have hlen : (Decimal.padded 4 n).length = 4 := Decimal.length_padded (by decide) (by omega)
      obtain ⟨c, cs, hcs⟩ := List.exists_cons_of_length_eq_add_one hlen
      have hnot : '-' ∉ c :: cs := hcs ▸ Decimal.not_mem_padded (by decide)
      rw [List.mem_cons, not_or] at hnot
      exact ⟨c, cs, hcs, by simp [Ne.symm hnot.1], hnot.2⟩
    · exact ⟨'+', _, rfl, by simp, hdigits fun c => Decimal.isDigit_of_mem_natDigits⟩
  | negSucc n => exact ⟨'-', _, rfl, by simp, hdigits fun c => Decimal.isDigit_of_mem_padded⟩

theorem isNumeric_of_mem_yearDigits {year : Int} {c : Char} (h : c ∈ yearDigits year) :
    Decimal.IsNumeric c := by
  cases year with
  | ofNat n =>
    rw [yearDigits] at h
    split_ifs at h
    · exact Decimal.isNumeric_of_mem_padded h
    · rcases List.mem_cons.mp h with rfl | h
      · decide
      · exact Decimal.isNumeric_of_mem_natDigits h
  | negSucc n =>
    rcases List.mem_cons.mp h with rfl | h
    · decide
    · exact Decimal.isNumeric_of_mem_padded h

theorem yearDigits_injective : Function.Injective yearDigits := by
  intro y y' h
  have habs : y.natAbs = y'.natAbs := by
    rw [← ofDigitChars_yearDigits, h, ofDigitChars_yearDigits]
  obtain ⟨c, cs, hy, hneg, -⟩ := yearDigits_hyphen y
  obtain ⟨c', cs', hy', hneg', -⟩ := yearDigits_hyphen y'
  have hsign : y < 0 ↔ y' < 0 := by
    rw [hy, hy', List.cons.injEq] at h
    rw [← hneg, ← hneg', h.1]
  omega

end Date

/-! ### Fields -/

namespace Instant

variable {t t' : Instant} {mark : List Char} {c : Char}

theorem secondOfDay_lt (t : Instant) : t.secondOfDay < 86400 := by
  rw [secondOfDay]
  omega

theorem isNumeric_of_mem_dateDigits (h : c ∈ t.dateDigits mark) : Decimal.IsNumeric c ∨ c ∈ mark := by
  simp only [dateDigits, List.mem_append] at h
  rcases h with (((h | h) | h) | h) | h
  · exact .inl (Date.isNumeric_of_mem_yearDigits h)
  · exact .inr h
  · exact .inl (Decimal.isNumeric_of_mem_padded h)
  · exact .inr h
  · exact .inl (Decimal.isNumeric_of_mem_padded h)

theorem isDigit_of_mem_clockDigits (h : c ∈ t.clockDigits mark) : c.isDigit ∨ c ∈ mark := by
  simp only [clockDigits, List.mem_append] at h
  rcases h with (((h | h) | h) | h) | h
  · exact .inl (Decimal.isDigit_of_mem_padded h)
  · exact .inr h
  · exact .inl (Decimal.isDigit_of_mem_padded h)
  · exact .inr h
  · exact .inl (Decimal.isDigit_of_mem_padded h)

/-- The fields of a time of day have two digits each. -/
theorem length_clockDigits (t : Instant) (mark : List Char) :
    (t.clockDigits mark).length = 6 + 2 * mark.length := by
  have h := t.secondOfDay_lt
  have hwidth : ∀ n < 100, (Decimal.padded 2 n).length = 2 :=
    fun n hn => Decimal.length_padded (by decide) hn
  simp [clockDigits, hwidth (t.secondOfDay / 3600) (by omega),
    hwidth (t.secondOfDay / 60 % 60) (by omega), hwidth (t.secondOfDay % 60) (by omega)]
  omega

theorem secondOfDay_eq (h : t.clockDigits mark = t'.clockDigits mark) :
    t.secondOfDay = t'.secondOfDay := by
  have hlt := t.secondOfDay_lt
  have hlt' := t'.secondOfDay_lt
  have hwidth : ∀ {m n}, m < 100 → n < 100 →
      (Decimal.padded 2 m).length = (Decimal.padded 2 n).length := by
    intro m n hm hn
    rw [Decimal.length_padded (by decide) hm, Decimal.length_padded (by decide) hn]
  obtain ⟨h, hsecond⟩ := List.append_inj' h (hwidth (by omega) (by omega))
  obtain ⟨h, hminute⟩ := List.append_inj' (List.append_cancel_right h) (hwidth (by omega) (by omega))
  have hhour := Decimal.padded_injective 2 (List.append_cancel_right h)
  have hminute := Decimal.padded_injective 2 hminute
  have hsecond := Decimal.padded_injective 2 hsecond
  omega

theorem date_eq (h : t.dateDigits mark = t'.dateDigits mark) : t.date = t'.date := by
  obtain ⟨hmonth, hday⟩ := Date.ofDays_ranges (t.seconds / 86400)
  obtain ⟨hmonth', hday'⟩ := Date.ofDays_ranges (t'.seconds / 86400)
  have hwidth : ∀ {m n}, m ≤ 31 → n ≤ 31 →
      (Decimal.padded 2 m).length = (Decimal.padded 2 n).length := by
    intro m n hm hn
    rw [Decimal.length_padded (by decide) (by omega), Decimal.length_padded (by decide) (by omega)]
  rw [dateDigits, dateDigits, date, date] at h
  obtain ⟨h, hd⟩ := List.append_inj' h (hwidth hday hday')
  obtain ⟨h, hm⟩ := List.append_inj' (List.append_cancel_right h) (hwidth (by omega) (by omega))
  have hy := Date.yearDigits_injective (List.append_cancel_right h)
  have hm := Decimal.padded_injective 2 hm
  have hd := Decimal.padded_injective 2 hd
  rw [date, date]
  cases hdate : Date.ofDays (t.seconds / 86400)
  cases hdate' : Date.ofDays (t'.seconds / 86400)
  simp_all

theorem seconds_eq (hdate : t.date = t'.date) (hsecond : t.secondOfDay = t'.secondOfDay) :
    t.seconds = t'.seconds := by
  have hday := Date.ofDays_injective hdate
  rw [secondOfDay, secondOfDay] at hsecond
  omega

/-! ### Stamps -/

theorem isNumeric_of_mem_stampChars (h : c ∈ t.stampChars) : Decimal.IsNumeric c := by
  rcases List.mem_append.mp h with h | h
  · exact (isNumeric_of_mem_dateDigits h).resolve_right List.not_mem_nil
  · rcases List.mem_cons.mp h with rfl | h
    · decide
    · exact .inl ((isDigit_of_mem_clockDigits h).resolve_right List.not_mem_nil)

/-- Two times have one stamp exactly if they are in the same second. -/
theorem stamp_inj : t.stamp = t'.stamp ↔ t.seconds = t'.seconds := by
  constructor
  · intro h
    obtain ⟨hdate, hclock⟩ := List.append_inj' (String.ofList_injective h)
      (by simp [length_clockDigits])
    exact seconds_eq (date_eq hdate) (secondOfDay_eq (List.cons_injective hclock))
  · intro h
    simp only [stamp, stampChars, dateDigits, clockDigits, date, secondOfDay, h]

theorem isNumeric_of_mem_timeUtcChars (h : c ∈ t.timeUtcChars) :
    Decimal.IsNumeric c ∨ c = 'T' ∨ c = ':' := by
  simp only [timeUtcChars, List.mem_append] at h
  rcases h with ((h | h) | h) | h
  · refine .inl ((isNumeric_of_mem_dateDigits h).elim id fun h => ?_)
    rw [List.mem_singleton.mp h]
    decide
  · rcases List.mem_cons.mp h with rfl | h
    · exact .inr (.inl rfl)
    · rcases isDigit_of_mem_clockDigits h with h | h
      · exact .inl (.inl h)
      · exact .inr (.inr (List.mem_singleton.mp h))
  · rcases List.mem_cons.mp h with rfl | h
    · exact .inl (by decide)
    · exact .inl (Decimal.isNumeric_of_mem_padded h)
  · simp only [List.mem_cons, List.not_mem_nil, or_false] at h
    rcases h with rfl | rfl | rfl | rfl | rfl | rfl <;> decide

/-- Two times are written alike exactly if they are in the same microsecond. -/
theorem timeUtcChars_inj : t.timeUtcChars = t'.timeUtcChars ↔
    t.seconds = t'.seconds ∧ t.nanos / 1000 = t'.nanos / 1000 := by
  constructor
  · intro h
    have hdate : ∀ t : Instant, 'T' ∉ t.dateDigits ['-'] := by
      intro t ht
      rcases isNumeric_of_mem_dateDigits ht with ht | ht
      · exact absurd ht (by decide)
      · exact absurd ht (by decide)
    have hclock : ∀ t : Instant, '.' ∉ t.clockDigits [':'] := by
      intro t ht
      rcases isDigit_of_mem_clockDigits ht with ht | ht
      · exact absurd ht (by decide)
      · exact absurd ht (by decide)
    simp only [timeUtcChars, List.append_assoc, List.cons_append] at h
    obtain ⟨hd, h⟩ := Text.append_cons_inj (hdate t) (hdate t') h
    obtain ⟨hc, h⟩ := Text.append_cons_inj (hclock t) (hclock t') h
    have hmicros := Decimal.padded_injective 6 (List.append_cancel_right h)
    exact ⟨seconds_eq (date_eq hd) (secondOfDay_eq hc), hmicros⟩
  · rintro ⟨hseconds, hmicros⟩
    simp only [timeUtcChars, dateDigits, clockDigits, date, secondOfDay, hseconds, hmicros]

end Instant

/-! ### Clocks -/

namespace RunClock

variable {c c' : RunClock}

theorem toList_stamp (c : RunClock) : c.stamp.toList = (c.plus c.offset).stampChars := by
  rw [stamp, Instant.stamp, String.toList_ofList]

theorem stamp_utc (t : Instant) : (utc t).stamp = t.stamp := by
  rw [stamp, Instant.plus]
  simp only [utc, Int.add_zero]

/-- Two clocks have one stamp exactly if they show the same second of local time. -/
theorem stamp_inj : c.stamp = c'.stamp ↔ c.seconds + c.offset = c'.seconds + c'.offset :=
  Instant.stamp_inj

theorem slash_not_mem_stamp (c : RunClock) : '/' ∉ c.stamp.toList := by
  rw [toList_stamp]
  exact fun h => absurd (Instant.isNumeric_of_mem_stampChars h) (by decide)

end RunClock

end ProposalReview
