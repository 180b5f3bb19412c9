import Mathlib
import ProposalReview.Proofs.Chronicle
import ProposalReview.Proofs.Text.Order
/-!
Stamps in the order of their times.

A date read as a number grows from day to day, and so does a time of day from second to second. So in
years of four digits stamps, which have all their fields at fixed places, are ordered as their times, and
so are the names of what bears a stamp. A stamp has the same digits as what is written with marks between
the fields, which is how the text under such a name begins.
-/

namespace ProposalReview

/-! ### Dates in order -/

namespace Date

/-- The days from the first of March of the year zero to that of another year. -/
def marchStart (year : Int) : Int := 365 * year + year / 4 - year / 100 + year / 400

theorem marchStart_strictMono : StrictMono marchStart := by
  refine strictMono_int_of_lt_succ fun year => ?_
  rw [marchStart, marchStart]
  omega

/-- A day lies in the year that begins on the last first of March. -/
theorem ofDays_march (days : Int) : ∃ (year : Int) (rest : Nat), rest ≤ 365 ∧
    days + 719468 = marchStart year + rest ∧ days + 719468 < marchStart (year + 1) ∧
      ofDays days = ofMarch year rest := by
  obtain ⟨era, century, quad, year, rest, hcentury, hquad, hyear, hrest, hleap, hdays, hdate⟩ :=
    ofDays_parts days
  refine ⟨_, rest, hrest, ?_, ?_, hdate⟩
  · rw [hdays, marchStart]
    omega
  · rw [hdays, marchStart]
    omega

/-- A date as a number whose last two digits are the day and the two before them the month. -/
def number (d : Date) : Int := d.year * 10000 + d.month * 100 + d.day

/-- A day in the year that begins in March is some day of a month, which a later day does not precede. -/
theorem number_ofMarch (year : Int) {rest : Nat} (hrest : rest ≤ 365) : ∃ day : Nat, 1 ≤ day ∧ day ≤ 31 ∧
    (153 * ((5 * rest + 2) / 153) + 2) / 5 + day = rest + 1 ∧ (ofMarch year rest).number = year * 10000
      + (if (5 * rest + 2) / 153 < 10 then (5 * rest + 2) / 153 * 100 + 300
        else (5 * rest + 2) / 153 * 100 + 9100) + day := by
  refine ⟨rest + 1 - (153 * ((5 * rest + 2) / 153) + 2) / 5, by omega, by omega, by omega, ?_⟩
  simp only [ofMarch, number]
  split_ifs <;> omega

theorem number_ofMarch_lt {year year' : Int} {rest rest' : Nat} (hrest : rest ≤ 365)
    (hrest' : rest' ≤ 365) (h : year < year' ∨ year = year' ∧ rest < rest') :
    (ofMarch year rest).number < (ofMarch year' rest').number := by
  obtain ⟨day, hfirst, hlast, hday, hnumber⟩ := number_ofMarch year hrest
  obtain ⟨day', hfirst', hlast', hday', hnumber'⟩ := number_ofMarch year' hrest'
  rw [hnumber, hnumber']
  have hmonth : (5 * rest + 2) / 153 ≤ 11 := by omega
  have hmonth' : (5 * rest' + 2) / 153 ≤ 11 := by omega
  rcases h with hlt | ⟨rfl, hlt⟩
  · split_ifs <;> omega
  · have hle : (5 * rest + 2) / 153 ≤ (5 * rest' + 2) / 153 := by omega
    rcases hle.eq_or_lt with heq | hlater
    · rw [heq] at hday ⊢
      omega
    · split_ifs <;> omega

theorem number_ofDays_strictMono : StrictMono fun days => (ofDays days).number := by
  intro a b hab
  obtain ⟨year, rest, hrest, hstart, -, hdate⟩ := ofDays_march a
  obtain ⟨year', rest', hrest', hstart', hend', hdate'⟩ := ofDays_march b
  simp only [hdate, hdate']
  refine number_ofMarch_lt hrest hrest' ?_
  -- the day that comes first cannot lie in a later year
  have hle : year ≤ year' := by
    by_contra hlt
    have hstarts := marchStart_strictMono.monotone (show year' + 1 ≤ year by omega)
    omega
  rcases hle.eq_or_lt with rfl | hlt
  · exact .inr ⟨rfl, by omega⟩
  · exact .inl hlt

theorem yearDigits_eq {year : Int} (h : year ∈ Set.Icc 0 9999) :
    yearDigits year = Decimal.padded 4 year.toNat := by
  obtain ⟨n, rfl⟩ := Int.eq_ofNat_of_zero_le h.1
  have hn : n ≤ 9999 := by simpa using h.2
  change (if n ≤ 9999 then _ else _) = _
  rw [if_pos hn]
  rfl

end Date

/-! ### Stamps in order -/

namespace Instant

variable {t t' : Instant} {mark : List Char}

/-- The whole seconds since 1970, rounded down. -/
def wholeSeconds (t : Instant) : Int := t.totalNanos / 1000000000

theorem wholeSeconds_eq (h : t.nanos < 1000000000) : t.wholeSeconds = t.seconds := by
  rw [wholeSeconds, totalNanos]
  omega

theorem dateDigits_eq (h : t.date.year ∈ Set.Icc 0 9999) (mark : List Char) : t.dateDigits mark =
    Decimal.padded 4 t.date.year.toNat ++ mark ++ Decimal.padded 2 t.date.month ++ mark
      ++ Decimal.padded 2 t.date.day := by
  rw [dateDigits, Date.yearDigits_eq h]

theorem date_lt (t : Instant) : t.date.month < 100 ∧ t.date.day < 100 := by
  obtain ⟨hmonth, hday⟩ := Date.ofDays_ranges (t.seconds / 86400)
  exact ⟨by rw [date]; omega, by rw [date]; omega⟩

theorem length_dateDigits (h : t.date.year ∈ Set.Icc 0 9999) : (t.dateDigits []).length = 8 := by
  obtain ⟨hmonth, hday⟩ := t.date_lt
  have hyear : t.date.year.toNat < 10000 := by
    have := h.2
    omega
  simp [dateDigits_eq h, Decimal.length_padded, hmonth, hday, hyear]

theorem isDigit_of_mem_dateDigits (h : t.date.year ∈ Set.Icc 0 9999) {c : Char}
    (hc : c ∈ t.dateDigits []) : c.isDigit := by
  simp only [dateDigits_eq h, List.mem_append, List.not_mem_nil, or_false] at hc
  rcases hc with (hc | hc) | hc <;> exact Decimal.isDigit_of_mem_padded hc

/-- The digits of a date denote the date as a number. -/
theorem number_dateDigits (h : t.date.year ∈ Set.Icc 0 9999) :
    (Nat.ofDigitChars 10 (t.dateDigits []) 0 : Int) = t.date.number := by
  obtain ⟨hmonth, hday⟩ := t.date_lt
  have hyear : (t.date.year.toNat : Int) = t.date.year := Int.toNat_of_nonneg h.1
  simp only [dateDigits_eq h, List.append_nil, Nat.ofDigitChars_append, Decimal.ofDigitChars_padded,
    Decimal.ofDigitChars_padded_from (Nat.succ_pos 1) hmonth,
    Decimal.ofDigitChars_padded_from (Nat.succ_pos 1) hday, Date.number]
  omega

theorem dateDigits_lt_iff (h : t.date.year ∈ Set.Icc 0 9999) (h' : t'.date.year ∈ Set.Icc 0 9999) :
    t.dateDigits [] < t'.dateDigits [] ↔ t.seconds / 86400 < t'.seconds / 86400 := by
  rw [Decimal.digits_lt_iff (fun _ => isDigit_of_mem_dateDigits h)
      (fun _ => isDigit_of_mem_dateDigits h') (by rw [length_dateDigits h, length_dateDigits h']),
    ← Int.ofNat_lt, number_dateDigits h, number_dateDigits h', date, date]
  exact Date.number_ofDays_strictMono.lt_iff_lt

theorem dateDigits_inj : t.dateDigits [] = t'.dateDigits [] ↔ t.seconds / 86400 = t'.seconds / 86400 := by
  constructor
  · exact fun h => Date.ofDays_injective (date_eq h)
  · intro h
    rw [dateDigits, dateDigits, date, date, h]

/-- The digits of a time of day denote a number that has two digits for each field. -/
theorem number_clockDigits (t : Instant) : Nat.ofDigitChars 10 (t.clockDigits []) 0
    = 10000 * (t.secondOfDay / 3600) + (100 * (t.secondOfDay / 60 % 60) + t.secondOfDay % 60) := by
  have hminute : t.secondOfDay / 60 % 60 < 100 := by omega
  have hsecond : t.secondOfDay % 60 < 100 := by omega
  simp only [clockDigits, List.append_nil, Nat.ofDigitChars_append, Decimal.ofDigitChars_padded,
    Decimal.ofDigitChars_padded_from (Nat.succ_pos 1) hminute,
    Decimal.ofDigitChars_padded_from (Nat.succ_pos 1) hsecond]
  omega

theorem clockDigits_lt_iff : t.clockDigits [] < t'.clockDigits [] ↔ t.secondOfDay < t'.secondOfDay := by
  have hdigits : ∀ {t : Instant}, ∀ c ∈ t.clockDigits [], c.isDigit :=
    fun c hc => (isDigit_of_mem_clockDigits hc).resolve_right List.not_mem_nil
  have hfields : ∀ n : Nat, n = 3600 * (n / 3600) + (60 * (n / 60 % 60) + n % 60) := by
    intro n
    have := Nat.div_div_eq_div_mul n 60 60
    omega
  rw [Decimal.digits_lt_iff hdigits hdigits (by rw [length_clockDigits, length_clockDigits]),
    number_clockDigits, number_clockDigits, Decimal.mul_add_lt_iff (by omega) (by omega),
    Decimal.mul_add_lt_iff (by omega) (by omega)]
  -- hour, minute and second are compared one after another, whatever a field counts for
  conv_rhs =>
    rw [hfields t.secondOfDay, hfields t'.secondOfDay]
  rw [Decimal.mul_add_lt_iff (by omega) (by omega), Decimal.mul_add_lt_iff (by omega) (by omega)]

/-- Stamps of years with four digits are ordered as their times. -/
theorem stampChars_lt_iff (h : t.date.year ∈ Set.Icc 0 9999) (h' : t'.date.year ∈ Set.Icc 0 9999) :
    t.stampChars < t'.stampChars ↔ t.seconds < t'.seconds := by
  have hhyphen : ¬ '-' < '-' := by decide
  rw [stampChars, stampChars,
    Text.append_lt_append_iff (by rw [length_dateDigits h, length_dateDigits h']),
    List.cons_lt_cons_iff, dateDigits_lt_iff h h', dateDigits_inj, clockDigits_lt_iff, secondOfDay,
    secondOfDay]
  simp only [hhyphen, false_or, true_and]
  omega

theorem length_stamp (h : t.date.year ∈ Set.Icc 0 9999) : t.stamp.length = 15 := by
  rw [stamp, String.length_ofList, stampChars, List.length_append, length_dateDigits h, List.length_cons,
    length_clockDigits]
  rfl

theorem stampChars_ascii {c : Char} (hc : c ∈ t.stampChars) : c.toNat < 128 := by
  rcases isNumeric_of_mem_stampChars hc with hc | hc
  · have := Decimal.toNat_of_isDigit hc
    omega
  · simp only [List.mem_cons, List.not_mem_nil, or_false] at hc
    rcases hc with rfl | rfl | rfl | rfl <;> decide

theorem length_encode_stamp (h : t.date.year ∈ Set.Icc 0 9999) :
    (Text.encodeString t.stamp).length = 15 := by
  rw [← length_stamp h, Text.encodeString, stamp, String.toList_ofList, String.length_ofList,
    Text.length_encode_ascii fun _ => stampChars_ascii]

/-- The bytes of stamps are ordered as the times. -/
theorem stamp_lt_iff (h : t.date.year ∈ Set.Icc 0 9999) (h' : t'.date.year ∈ Set.Icc 0 9999) :
    Text.encodeString t.stamp < Text.encodeString t'.stamp ↔ t.seconds < t'.seconds := by
  rw [Text.encodeString, Text.encodeString, stamp, stamp, String.toList_ofList, String.toList_ofList,
    Text.encode_lt_iff (fun _ => stampChars_ascii) (fun _ => stampChars_ascii), stampChars_lt_iff h h']

/-! ### Digits between marks -/

theorem filter_dateDigits (h : t.date.year ∈ Set.Icc 0 9999) (hmark : mark.filter Char.isDigit = []) :
    (t.dateDigits mark).filter Char.isDigit = t.dateDigits [] := by
  simp only [dateDigits_eq h, List.filter_append, hmark, Decimal.filter_padded]

theorem filter_clockDigits (hmark : mark.filter Char.isDigit = []) :
    (t.clockDigits mark).filter Char.isDigit = t.clockDigits [] := by
  simp only [clockDigits, List.filter_append, hmark, Decimal.filter_padded]

/-- A stamp has the digits of its date and time of day. -/
theorem filter_stampChars (h : t.date.year ∈ Set.Icc 0 9999) :
    t.stampChars.filter Char.isDigit = t.dateDigits [] ++ t.clockDigits [] := by
  rw [stampChars, List.filter_append, List.filter_cons_of_neg (by decide), filter_dateDigits h rfl,
    filter_clockDigits rfl]

/-- A time with microseconds has the digits of its stamp first. -/
theorem filter_timeUtcChars (h : t.date.year ∈ Set.Icc 0 9999) : ∃ ds,
    t.timeUtcChars.filter Char.isDigit = t.stampChars.filter Char.isDigit ++ ds := by
  refine ⟨Decimal.padded 6 (t.nanos / 1000) ++ ['0', '0', '0', '0'], ?_⟩
  rw [filter_stampChars h, timeUtcChars]
  simp only [List.filter_append, List.append_assoc, List.cons_append]
  rw [List.filter_cons_of_neg (by decide), List.filter_append, List.filter_cons_of_neg (by decide),
    List.filter_append, filter_dateDigits h rfl, filter_clockDigits rfl, Decimal.filter_padded]
  rfl

end Instant

/-! ### Names in order -/

variable {t t' : Instant}

/-- What is joined to a path comes after the same bytes, unless it starts at the root. -/
theorem Path.join_bytes (p : Path) :
    ∃ before, ∀ q : Path, q.isAbsolute = false → (p.join q).bytes = before ++ q.bytes := by
  cases hlast : p.bytes.getLast? with
  | none => exact ⟨[], fun q hq => by simp [join, hq, hlast]⟩
  | some b =>
    by_cases hb : b = slash
    · exact ⟨p.bytes, fun q hq => by simp [join, hq, hlast, hb]⟩
    · exact ⟨p.bytes ++ [slash], fun q hq => by simp [join, hq, hlast, hb]⟩

/-- A path in a directory, with a name that begins with some label, is relative before it is joined. -/
theorem Path.isAbsolute_label {label : String} (hne : Text.encodeString label ≠ [])
    (hslash : slash ∉ Text.encodeString label) (rest : String) :
    isAbsolute (ofString (label ++ rest)) = false := by
  obtain ⟨b, bs, hlabel⟩ := List.exists_cons_of_ne_nil hne
  have hb : b ≠ slash := fun hb => hslash (by simp [hlabel, hb])
  have hbytes : (ofString (label ++ rest)).bytes = b :: (bs ++ Text.encodeString rest) := by
    rw [ofString, Text.encodeString_append, hlabel, List.cons_append]
  simpa [isAbsolute, hbytes] using hb

/-- Paths into one directory whose names are a label, a stamp and something else are ordered as the
stamps, and by what else there is if these are one. -/
theorem Path.join_stamp_lt_iff (h : t.date.year ∈ Set.Icc 0 9999) (h' : t'.date.year ∈ Set.Icc 0 9999)
    (p : Path) {label : String} (hne : Text.encodeString label ≠ [])
    (hslash : slash ∉ Text.encodeString label) (rest rest' : String) :
    (p.join (.ofString (label ++ (t.stamp ++ rest)))).bytes
        < (p.join (.ofString (label ++ (t'.stamp ++ rest')))).bytes ↔
      t.seconds < t'.seconds ∨
        t.seconds = t'.seconds ∧ Text.encodeString rest < Text.encodeString rest' := by
  obtain ⟨before, hbefore⟩ := p.join_bytes
  have hlen : (Text.encodeString t.stamp).length = (Text.encodeString t'.stamp).length := by
    rw [Instant.length_encode_stamp h, Instant.length_encode_stamp h']
  have hstamp : Text.encodeString t.stamp = Text.encodeString t'.stamp ↔ t.seconds = t'.seconds :=
    ⟨fun heq => Instant.stamp_inj.mp (Text.encodeString_inj heq),
      fun heq => congrArg Text.encodeString (Instant.stamp_inj.mpr heq)⟩
  have hbytes : ∀ name, (p.join (.ofString (label ++ name))).bytes
      = before ++ Text.encodeString label ++ Text.encodeString name := by
    intro name
    rw [hbefore _ (isAbsolute_label hne hslash name), ofString, Text.encodeString_append,
      List.append_assoc]
  rw [hbytes, hbytes, Text.append_lt_append_iff rfl, Text.encodeString_append, Text.encodeString_append,
    Text.append_lt_append_iff hlen, Instant.stamp_lt_iff h h', hstamp]
  simp only [List.lt_irrefl, false_or, true_and]

namespace Filing

/-- Summaries of one mode in one directory are listed in the order of their seconds. -/
theorem summaryPath_lt_iff (h : t.date.year ∈ Set.Icc 0 9999) (h' : t'.date.year ∈ Set.Icc 0 9999)
    (f : Filing) :
    { f with now := .utc t }.summaryPath.bytes < { f with now := .utc t' }.summaryPath.bytes ↔
      t.seconds < t'.seconds := by
  let label := "pipeline_manager_" ++ (if f.mode.isDryRun then "dryrun" else "run") ++ "_"
  have hpath : ∀ t, { f with now := .utc t }.summaryPath
      = f.dirs.log.join (.ofString (label ++ (t.stamp ++ ".json"))) := by
    intro t
    rw [summaryPath, RunClock.stamp_utc, ← String.append_assoc]
  have hlabel : Text.encodeString label ≠ [] ∧ slash ∉ Text.encodeString label := by
    simp only [label]
    split <;> decide
  rw [hpath, hpath, Path.join_stamp_lt_iff h h' _ hlabel.1 hlabel.2]
  simp only [List.lt_irrefl, and_false, or_false]

/-- An incident of an earlier second is listed before one of a later second. -/
theorem incidentPath_lt (h : t.date.year ∈ Set.Icc 0 9999) (h' : t'.date.year ∈ Set.Icc 0 9999)
    (f : Filing) (d d' : Decision) (hlt : t.seconds < t'.seconds) :
    ({ f with now := .utc t }.incidentPath d).bytes
      < ({ f with now := .utc t' }.incidentPath d').bytes := by
  have hpath : ∀ t d, { f with now := .utc t }.incidentPath d
      = f.dirs.incidents.join (.ofString ("INC-" ++ (t.stamp ++ ("-" ++ d.fileStem ++ ".md")))) := by
    intro t d
    rw [incidentPath, Incident.path, Incident.fileName, RunClock.stamp_utc]
    simp only [String.append_assoc]
  rw [hpath, hpath]
  exact (Path.join_stamp_lt_iff h h' _ (by decide) (by decide) _ _).mpr (.inl hlt)

end Filing

/-! ### What artifacts say about their time -/

/-- A character needs no escape if it is neither a control character nor the quote nor the backslash. -/
theorem Json.writeChar_plain {c : Char} (hc : 32 ≤ c.toNat) (hquote : c ≠ '\x22') (hback : c ≠ '\\') :
    writeChar c = [c] := by
  have hne : ∀ x : Char, x.toNat < 32 → c ≠ x := by
    rintro x hx rfl
    omega
  rw [writeChar, if_neg hquote, if_neg hback, if_neg (hne _ (by decide)), if_neg (hne _ (by decide)),
    if_neg (hne _ (by decide)), if_neg (hne _ (by decide)), if_neg (hne _ (by decide)),
    if_neg (Nat.not_lt.mpr hc)]

/-- A time is written in JSON as it is. -/
theorem Instant.writeString_timeUtc (t : Instant) :
    Json.writeString t.timeUtc = '\x22' :: (t.timeUtcChars ++ ['\x22']) := by
  have hplain : ∀ c ∈ t.timeUtcChars, Json.writeChar c = [c] := by
    intro c hc
    rcases isNumeric_of_mem_timeUtcChars hc with (hc | hc) | rfl | rfl
    · have hbounds := Decimal.toNat_of_isDigit hc
      refine Json.writeChar_plain (by omega) ?_ ?_
      · rintro rfl
        cases hc
      · rintro rfl
        cases hc
    · simp only [List.mem_cons, List.not_mem_nil, or_false] at hc
      rcases hc with rfl | rfl | rfl | rfl <;> decide
    · decide
    · decide
  rw [Json.writeString, timeUtc, String.toList_ofList, List.flatMap_congr hplain, List.flatMap_singleton']

/-- The text of a summary begins with its time. -/
theorem Summary.text_begins {s : Summary} (h : s.timeUtc = t.timeUtc) :
    ∃ rest, s.text = "\x7b\n  \x22time_utc\x22: \x22" ++ t.timeUtc ++ "\x22,\n" ++ rest := by
  have hchars : ∃ rest, s.toJson.writeIndented 0 = "\x7b\n  \x22time_utc\x22: \x22".toList
      ++ (t.timeUtcChars ++ ("\x22,\n".toList ++ rest)) := by
    rw [toJson, Json.writeIndented, Json.writeIndented, Json.indentMembers, h, Instant.writeString_timeUtc]
    simp only [List.append_assoc, List.cons_append]
    exact ⟨_, rfl⟩
  obtain ⟨rest, hrest⟩ := hchars
  refine ⟨String.ofList rest, String.toList_injective ?_⟩
  rw [text, Json.pretty, String.toList_ofList, hrest]
  simp [Instant.timeUtc]

theorem Incident.text_begins (d : Decision) (c : RunClock) (dryRun : Bool) :
    ∃ rest, text d c dryRun = "# INCIDENT\n\n- time_utc: " ++ c.timeUtc ++ "\n" ++ rest := by
  have hchars : ∃ rest, textChars d c dryRun
      = "# INCIDENT\n\n- time_utc: ".toList ++ (c.timeUtcChars ++ ("\n".toList ++ rest)) := by
    have hline : "\n- file: ".toList = "\n".toList ++ "- file: ".toList := by decide
    unfold textChars
    rw [hline]
    simp only [List.append_assoc, List.append_cancel_left_eq, exists_eq']
  obtain ⟨rest, hrest⟩ := hchars
  refine ⟨String.ofList rest, String.toList_injective ?_⟩
  rw [text, String.toList_ofList, hrest]
  simp [Instant.timeUtc]

/-- Whether there is a file at a path and its text begins with another one. -/
def Tree.BeginsWith (t : Tree) (p : Path) (opening : String) : Prop :=
  ∃ rest, t.content p = .ok (Text.encodeString (opening ++ rest))

variable {w w' : World}

/-- An incident that was filed tells the time whose stamp is in its name. -/
theorem Filing.fileIncident_begins {f : Filing} {d : Decision} (hreasons : d.reasons ≠ [])
    (h : w.exec (f.fileIncident d) = (.ok (), w')) : w'.tree.BeginsWith (f.incidentPath d)
      ("# INCIDENT\n\n- time_utc: " ++ f.now.timeUtc ++ "\n") := by
  rcases fileIncident_exec hreasons h with ⟨-, hcontent⟩ | ⟨-, cause, herr | herr⟩
  · obtain ⟨rest, htext⟩ := Incident.text_begins d f.now f.mode.isDryRun
    exact ⟨rest, htext ▸ hcontent⟩
  · cases herr
  · cases herr

/-- The summary of a run that succeeded tells the time whose stamp is in its name. -/
theorem Run.summary_begins {s : Settings} {gate : Option PolicyGate} {c : RunClock} {o : Outcome}
    (h : w.exec (run s (gate.map PolicyGate.review) c) = (.ok o, w')) :
    w'.tree.BeginsWith (filing s c).summaryPath
      ("\x7b\n  \x22time_utc\x22: \x22" ++ c.timeUtc ++ "\x22,\n") := by
  obtain ⟨files, w₁, ds, w₂, -, -, hcarry⟩ := run_ok h
  obtain ⟨hsummary, -⟩ := carryOut_ok hcarry
  have htime : o.summary.timeUtc = c.timeUtc := by
    rw [hsummary]
    rfl
  obtain ⟨rest, htext⟩ := Summary.text_begins htime
  have hwritten := (run_finished h).written
  rw [summaryPath_of_ok h, htext] at hwritten
  exact ⟨rest, hwritten⟩

/-! ### The order of artifacts -/

/-- Where local time is UTC, stamps of years with four digits sort by time. They have fifteen characters,
their bytes are ordered as the whole seconds of the times, and they are one exactly if these are. The
fourteen digits of a stamp are the first ones of the time that is written into artifacts. So the summaries
of a mode and the incidents are listed in the order of their seconds, and each of them begins with the time
that it is named after. -/
theorem Instant.stamps_sort_by_time (ht : t.nanos < 1000000000) (ht' : t'.nanos < 1000000000)
    (h : t.date.year ∈ Set.Icc 0 9999) (h' : t'.date.year ∈ Set.Icc 0 9999) :
    let c := RunClock.utc t
    let c' := RunClock.utc t'
    c.stamp.length = 15 ∧
    (Text.encodeString c.stamp < Text.encodeString c'.stamp ↔ t.wholeSeconds < t'.wholeSeconds) ∧
    (c.stamp = c'.stamp ↔ t.wholeSeconds = t'.wholeSeconds) ∧
    (c.stamp.toList.filter Char.isDigit).length = 14 ∧
    c.stamp.toList.filter Char.isDigit = (c.timeUtc.toList.filter Char.isDigit).take 14 ∧
    (∀ f : Filing, { f with now := c }.summaryPath.bytes < { f with now := c' }.summaryPath.bytes ↔
      t.wholeSeconds < t'.wholeSeconds) ∧
    (∀ (f : Filing) (d d' : Decision), t.wholeSeconds < t'.wholeSeconds →
      ({ f with now := c }.incidentPath d).bytes < ({ f with now := c' }.incidentPath d').bytes) ∧
    (∀ (s : Settings) (gate : Option PolicyGate) (w w' : World) (o : Outcome),
      w.exec (Run.run s (gate.map PolicyGate.review) c) = (.ok o, w') →
      w'.tree.BeginsWith (Run.filing s c).summaryPath
        ("\x7b\n  \x22time_utc\x22: \x22" ++ c.timeUtc ++ "\x22,\n")) ∧
    ∀ (f : Filing) (d : Decision) (w w' : World), f.now = c → d.reasons ≠ [] →
      w.exec (f.fileIncident d) = (.ok (), w') →
      w'.tree.BeginsWith (f.incidentPath d) ("# INCIDENT\n\n- time_utc: " ++ c.timeUtc ++ "\n") := by
  intro c c'
  have hc : c.stamp = t.stamp := RunClock.stamp_utc t
  have hc' : c'.stamp = t'.stamp := RunClock.stamp_utc t'
  have hdigits : (t.stamp.toList.filter Char.isDigit).length = 14 := by
    rw [stamp, String.toList_ofList, filter_stampChars h, List.length_append, length_dateDigits h,
      length_clockDigits]
    rfl
  rw [wholeSeconds_eq ht, wholeSeconds_eq ht', hc, hc']
  refine ⟨length_stamp h, stamp_lt_iff h h', stamp_inj, hdigits, ?_, Filing.summaryPath_lt_iff h h',
    Filing.incidentPath_lt h h', fun s gate w w' o hrun => Run.summary_begins hrun, ?_⟩
  · change _ = (t.timeUtc.toList.filter Char.isDigit).take 14
    obtain ⟨ds, hds⟩ := filter_timeUtcChars h
    rw [stamp, String.toList_ofList] at hdigits ⊢
    rw [timeUtc, String.toList_ofList, hds, List.take_left' hdigits]
  · intro f d w w' hf hreasons hfile
    rw [← hf]
    exact Filing.fileIncident_begins hreasons hfile

/-- The last nanosecond before 1970 and the first one after it are in different seconds, and the summaries
of real runs at these times are listed one after the other. -/
theorem Instant.stamps_sort_by_time_epoch :
    let t : Instant := ⟨-1, 999999999⟩
    let t' : Instant := ⟨0, 0⟩
    let c := RunClock.utc t
    let c' := RunClock.utc t'
    (t.nanos < 1000000000 ∧ t'.nanos < 1000000000 ∧ t.date.year ∈ Set.Icc 0 9999 ∧
      t'.date.year ∈ Set.Icc 0 9999) ∧
    c.stamp = "19691231-235959" ∧ c'.stamp = "19700101-000000" ∧
    Text.encodeString c.stamp < Text.encodeString c'.stamp ∧
    c.stamp.toList.filter Char.isDigit = (c.timeUtc.toList.filter Char.isDigit).take 14 ∧
    (Filing.mk Specimen.dirs .real c).summaryPath.bytes
      < (Filing.mk Specimen.dirs .real c').summaryPath.bytes := by
  intro t t' c c'
  have ht : t.nanos < 1000000000 := by decide
  have ht' : t'.nanos < 1000000000 := by decide
  have h : t.date.year ∈ Set.Icc 0 9999 := by decide
  have h' : t'.date.year ∈ Set.Icc 0 9999 := by decide
  obtain ⟨-, hlt, -, -, hdigits, hsummary, -⟩ := stamps_sort_by_time ht ht' h h'
  have hseconds : t.wholeSeconds < t'.wholeSeconds := by decide
  exact ⟨⟨ht, ht', h, h'⟩, by decide, by decide, hlt.mpr hseconds, hdigits,
    (hsummary ⟨Specimen.dirs, .real, c⟩).mpr hseconds⟩

end ProposalReview
