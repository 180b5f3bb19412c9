import ProposalReview.Proofs.Json.Number
/-!
Reading back what was written.

A value that is written on one line and then read is the same value, if its numbers are and if it does not
nest deeper than the reader allows. What is read is followed by any text that can follow a value; blanks
before that text may be gone.
-/

namespace ProposalReview.Json

variable {cs rest r : List Char} {fuel depth : Nat}

/-! ### Blanks -/

theorem skipGap_cons {c : Char} (h : isGap c = false) (cs : List Char) : skipGap (c :: cs) = c :: cs :=
  List.dropWhile_cons_of_neg (by simp [h])

theorem skipGap_append {c : Char} {ds : List Char} (h : skipGap cs = c :: ds) (rest : List Char) :
    skipGap (cs ++ rest) = c :: ds ++ rest := by
  have hsome : ((cs.dropWhile isGap).isEmpty) = false := by
    rw [show cs.dropWhile isGap = c :: ds from h, List.isEmpty_cons]
  rw [skipGap, List.dropWhile_append, hsome, if_neg Bool.false_ne_true]
  exact congrArg (· ++ rest) h

theorem skipGap_append_of_blank (h : skipGap cs = []) (rest : List Char) :
    skipGap (cs ++ rest) = skipGap rest := by
  rw [skipGap, List.dropWhile_append, show cs.dropWhile isGap = [] from h, List.isEmpty_nil, if_pos rfl]
  rfl

/-! ### Strings -/

theorem hexValues?_control : ∀ n < 32,
    hexValues? ['0', '0', hexDigit (n / 16), hexDigit (n % 16)] = some n := by decide

theorem length_encode_le (cs : List Char) : cs.length ≤ (Text.encode cs).length := by
  induction cs with
  | nil => exact Nat.le_refl 0
  | cons c cs ih =>
    have hpos : 0 < (String.utf8EncodeChar c).length := by
      rw [String.length_utf8EncodeChar]
      exact c.utf8Size_pos
    rw [Text.encode, List.flatMap_cons, List.length_append, List.length_cons]
    exact Nat.add_comm _ 1 ▸ Nat.add_le_add hpos ih

/-- The escape of a control character is read as that character. -/
theorem readUnicode_control {c : Char} (h : c.toNat < 32) (rest : List Char) :
    readUnicode ('0' :: '0' :: hexDigit (c.toNat / 16) :: hexDigit (c.toNat % 16) :: rest)
      = .ok (c, rest) := by
  have hlong : ¬ (Text.encode ('0' :: '0' :: hexDigit (c.toNat / 16) :: hexDigit (c.toNat % 16)
      :: rest)).length < 4 := by
    have hle := length_encode_le ('0' :: '0' :: hexDigit (c.toNat / 16) :: hexDigit (c.toNat % 16) :: rest)
    simp only [List.length_cons] at hle
    omega
  have hhex : readHex ('0' :: '0' :: hexDigit (c.toNat / 16) :: hexDigit (c.toNat % 16) :: rest)
      = .ok (c.toNat, rest) := by
    rw [readHex, if_neg hlong, List.take_succ_cons, List.take_succ_cons, List.take_succ_cons,
      List.take_succ_cons, List.take_zero, hexValues?_control _ h]
    rfl
  rw [readUnicode, hhex]
  simp only [bind, Except.bind]
  rw [if_neg (by omega), if_neg (by omega), Char.ofNat_toNat]
  rfl

theorem readStringBody_escape {c : Char} (h : readEscape cs = .ok (c, rest)) (fuel : Nat) :
    readStringBody (fuel + 1) ('\\' :: cs)
      = (readStringBody fuel rest).map fun p => (c :: p.1, p.2) := by
  rw [readStringBody, if_neg (by decide), if_pos rfl, h]
  cases hbody : readStringBody fuel rest <;> simp [bind, Except.bind, hbody, Except.map, pure, Except.pure]

/-- Reading the inside of a string starts with the character that was written first. -/
theorem readStringBody_writeChar (c : Char) (fuel : Nat) (rest : List Char) :
    readStringBody (fuel + 1) (writeChar c ++ rest)
      = (readStringBody fuel rest).map fun p => (c :: p.1, p.2) := by
  unfold writeChar
  split_ifs with hquote hslash hline htab hreturn hback hform hcontrol
  · subst hquote
    exact readStringBody_escape rfl fuel
  · subst hslash
    exact readStringBody_escape rfl fuel
  · subst hline
    exact readStringBody_escape rfl fuel
  · subst htab
    exact readStringBody_escape rfl fuel
  · subst hreturn
    exact readStringBody_escape rfl fuel
  · subst hback
    exact readStringBody_escape rfl fuel
  · subst hform
    exact readStringBody_escape rfl fuel
  · have hescape : readEscape ('u' :: '0' :: '0' :: hexDigit (c.toNat / 16) ::
        hexDigit (c.toNat % 16) :: rest) = .ok (c, rest) := readUnicode_control hcontrol rest
    exact readStringBody_escape hescape fuel
  · rw [List.singleton_append, readStringBody, if_neg hquote, if_neg hslash, if_neg hcontrol]
    cases hbody : readStringBody fuel rest <;> rfl

theorem readStringBody_write (cs rest : List Char) (h : cs.length < fuel) :
    readStringBody fuel (cs.flatMap writeChar ++ '\x22' :: rest) = .ok (cs, rest) := by
  induction cs generalizing fuel with
  | nil =>
    obtain ⟨n, rfl⟩ := Nat.exists_eq_add_of_lt h
    simp [readStringBody]
  | cons c cs ih =>
    obtain ⟨n, rfl⟩ : ∃ n, fuel = n + 1 := ⟨fuel - 1, by omega⟩
    rw [List.flatMap_cons, List.append_assoc, readStringBody_writeChar, ih (by simpa using h)]
    rfl

theorem length_le_flatMap_writeChar (cs : List Char) : cs.length ≤ (cs.flatMap writeChar).length := by
  induction cs with
  | nil => exact Nat.le_refl 0
  | cons c cs ih =>
    have hpos : 0 < (writeChar c).length := by
      unfold writeChar
      split_ifs <;> simp
    rw [List.flatMap_cons, List.length_append, List.length_cons]
    omega

/-- A string literal is read as its string, once its opening quote is read. -/
theorem readString_write (s : String) (rest : List Char) :
    readString ((writeString s).tail ++ rest) = .ok (s, rest) := by
  have hlength := length_le_flatMap_writeChar s.toList
  rw [writeString, List.tail_cons, List.append_assoc, List.singleton_append, readString,
    readStringBody_write s.toList rest (by simp only [List.length_append, List.length_cons]; omega)]
  simp only [bind, Except.bind, pure, Except.pure, String.ofList_toList]

/-! ### Values -/

variable {j x : Json} {n : JsonNumber} {xs : List Json} {ms : JsonObject} {first : Bool} {tail : List Char}

theorem readValue_congr {cs ds : List Char} (h : skipGap cs = skipGap ds) :
    readValue (fuel + 1) depth cs = readValue (fuel + 1) depth ds := by
  rw [readValue, readValue, h]

theorem readItems_congr {cs ds : List Char} (h : skipGap cs = skipGap ds) :
    readItems (fuel + 1) depth first cs = readItems (fuel + 1) depth first ds := by
  rw [readItems, readItems, nextItem, nextItem, h]

theorem readMembers_congr {cs ds : List Char} (h : skipGap cs = skipGap ds) :
    readMembers (fuel + 1) depth first cs = readMembers (fuel + 1) depth first ds := by
  rw [readMembers, readMembers, nextMember, nextMember, h]

/-- Whether a number is read back from its own text. -/
def NumberReadsBack (n : JsonNumber) : Prop := read (writeNumber n) = .ok (.number n)

/-- Only a sign and a digit begin a number. -/
theorem readValue_number (h : readValue (fuel + 1) depth cs = .ok (.number n, r)) :
    ∃ c ds, skipGap cs = c :: ds ∧
      (c = '-' ∧ readNumber true ds = .ok (.number n, r) ∨
        c.isDigit ∧ readNumber false (c :: ds) = .ok (.number n, r)) := by
  rw [readValue] at h
  cases hskip : skipGap cs with
  | nil => simp [hskip] at h
  | cons c ds =>
    refine ⟨c, ds, rfl, ?_⟩
    simp only [hskip] at h
    simp only [bind, Except.bind] at h
    split_ifs at h with hnull htrue hfalse hminus hdigit hquote hlist hdepth hobject hdepth
    · split at h <;> cases h
    · split at h <;> cases h
    · split at h <;> cases h
    · exact .inl ⟨hminus, h⟩
    · exact .inr ⟨hdigit, h⟩
    · split at h <;> cases h
    · split at h <;> cases h
    · split at h <;> cases h

/-- A number that is read alone is read with more text behind it. -/
theorem readValue_number_append (h : readValue (fuel + 1) depth cs = .ok (.number n, r))
    (hrest : Closes rest) (fuel' depth' : Nat) :
    readValue (fuel' + 1) depth' (cs ++ rest) = .ok (.number n, r ++ rest) := by
  obtain ⟨c, ds, hskip, ⟨rfl, hread⟩ | ⟨hdigit, hread⟩⟩ := readValue_number h
  · rw [readValue, skipGap_append hskip]
    exact readNumber_append hrest hread
  · have hc : c ≠ 'n' ∧ c ≠ 't' ∧ c ≠ 'f' ∧ c ≠ '-' := by
      refine ⟨?_, ?_, ?_, ?_⟩ <;> (rintro rfl; exact absurd hdigit (by decide))
    rw [readValue, skipGap_append hskip]
    simp only [List.cons_append, if_neg hc.1, if_neg hc.2.1, if_neg hc.2.2.1, if_neg hc.2.2.2, if_pos hdigit]
    exact readNumber_append hrest hread

/-- What is read as a value is neither nothing nor the end of a list. -/
theorem skipGap_of_readValue {p : Json × List Char} (h : readValue fuel depth cs = .ok p) :
    ∃ c ds, skipGap cs = c :: ds ∧ c ≠ ']' := by
  cases fuel with
  | zero => simp [readValue] at h
  | succ fuel =>
    rw [readValue] at h
    cases hskip : skipGap cs with
    | nil => simp [hskip] at h
    | cons c ds =>
      refine ⟨c, ds, rfl, ?_⟩
      rintro rfl
      simp [hskip] at h

theorem nextItem_first {p : Json × List Char} (h : readValue fuel depth cs = .ok p) :
    nextItem true cs = .ok (some (skipGap cs)) := by
  obtain ⟨c, ds, hskip, hc⟩ := skipGap_of_readValue h
  simp [nextItem, hskip, hc]

theorem nextItem_next {p : Json × List Char} (h : readValue fuel depth cs = .ok p) :
    nextItem false (',' :: cs) = .ok (some (skipGap cs)) := by
  obtain ⟨c, ds, hskip, hc⟩ := skipGap_of_readValue h
  simp [nextItem, skipGap_cons, isGap, hskip, hc]

/-- Whether a value is read back from its own text, at a depth that is still allowed: with enough steps
and whatever follows, up to blanks before it. -/
def ReadsBack (depth : Nat) (x : Json) : Prop :=
  ∀ fuel rest, 2 * (write x).length ≤ fuel → Closes rest →
    ∃ r, readValue fuel depth (write x ++ rest) = .ok (x, r) ∧ skipGap r = skipGap rest

theorem ReadsBack.nextItem_first (hx : x.ReadsBack depth) (htail : Closes tail) :
    nextItem true (write x ++ tail) = .ok (some (skipGap (write x ++ tail))) := by
  obtain ⟨r, hread, -⟩ := hx _ tail (Nat.le_refl _) htail
  exact Json.nextItem_first hread

theorem ReadsBack.nextItem_next (hx : x.ReadsBack depth) (htail : Closes tail) :
    nextItem false (',' :: (write x ++ tail)) = .ok (some (skipGap (write x ++ tail))) := by
  obtain ⟨r, hread, -⟩ := hx _ tail (Nat.le_refl _) htail
  exact Json.nextItem_next hread

/-! ### Lists -/

/-- Reading the items of a list goes on behind an item that is read back. -/
theorem readItems_step (hx : x.ReadsBack depth) (hfuel : 2 * (write x).length ≤ fuel)
    (htail : Closes tail) (hnext : nextItem first cs = .ok (some (skipGap (write x ++ tail)))) :
    readItems (fuel + 1) depth first cs
      = (readItems fuel depth false tail).map fun p => (x :: p.1, p.2) := by
  obtain ⟨r, hread, hr⟩ := hx fuel tail hfuel htail
  obtain _ | fuel := fuel
  · simp [readValue] at hread
  have hread' : readValue (fuel + 1) depth (skipGap (write x ++ tail)) = .ok (x, r) :=
    (readValue_congr (List.dropWhile_idempotent isGap _)).trans hread
  rw [readItems, hnext]
  simp only [bind, Except.bind, hread', readItems_congr hr]
  cases readItems (fuel + 1) depth false tail <;> rfl

theorem closes_items (xs : List Json) (rest : List Char) : Closes (writeItems xs ++ ']' :: rest) := by
  cases xs <;> simp [Closes, writeItems]

theorem readItems_write (h : ∀ x ∈ xs, x.ReadsBack depth)
    (hfuel : 2 * (writeItems xs).length + 1 ≤ fuel) (rest : List Char) :
    readItems fuel depth false (writeItems xs ++ ']' :: rest) = .ok (xs, rest) := by
  induction xs generalizing fuel with
  | nil =>
    obtain _ | fuel := fuel
    · omega
    simp [writeItems, readItems, nextItem, skipGap_cons, isGap, bind, Except.bind, pure, Except.pure]
  | cons x xs ih =>
    obtain ⟨hx, hxs⟩ := List.forall_mem_cons.mp h
    obtain _ | fuel := fuel
    · omega
    simp only [writeItems, List.length_cons, List.length_append] at hfuel
    have hclose := closes_items xs rest
    rw [writeItems, List.cons_append, List.append_assoc,
      readItems_step hx (by omega) hclose (hx.nextItem_next hclose), ih hxs (by omega)]
    rfl

/-! ### Objects -/

/-- Reading the members of an object goes on behind a member whose value is read back. -/
theorem readMembers_step {k : String} (hx : x.ReadsBack depth) (hfuel : 2 * (write x).length ≤ fuel)
    (htail : Closes tail)
    (hnext : nextMember first cs = .ok (some ((writeString k).tail ++ ':' :: (write x ++ tail)))) :
    readMembers (fuel + 1) depth first cs
      = (readMembers fuel depth false tail).map fun p => ((k, x) :: p.1, p.2) := by
  obtain ⟨r, hread, hr⟩ := hx fuel tail hfuel htail
  obtain _ | fuel := fuel
  · simp [readValue] at hread
  have hcolon : readColon (':' :: (write x ++ tail)) = .ok (write x ++ tail) := by
    simp [readColon, skipGap_cons, isGap]
  rw [readMembers, hnext]
  simp only [bind, Except.bind, readString_write, hcolon, hread, readMembers_congr hr]
  cases readMembers (fuel + 1) depth false tail <;> rfl

theorem nextMember_first (k : String) (tail : List Char) :
    nextMember true (writeString k ++ tail) = .ok (some ((writeString k).tail ++ tail)) := by
  simp [nextMember, writeString, skipGap_cons, isGap]

theorem nextMember_next (k : String) (tail : List Char) :
    nextMember false (',' :: (writeString k ++ tail)) = .ok (some ((writeString k).tail ++ tail)) := by
  simp [nextMember, writeString, skipGap_cons, isGap]

theorem closes_members (ms : JsonObject) (rest : List Char) :
    Closes (writeMembers ms ++ '\x7d' :: rest) := by
  cases ms <;> simp [Closes, writeMembers]

theorem readMembers_write (h : ∀ m ∈ ms, m.2.ReadsBack depth)
    (hfuel : 2 * (writeMembers ms).length + 1 ≤ fuel) (rest : List Char) :
    readMembers fuel depth false (writeMembers ms ++ '\x7d' :: rest) = .ok (ms, rest) := by
  induction ms generalizing fuel with
  | nil =>
    obtain _ | fuel := fuel
    · omega
    simp [writeMembers, readMembers, nextMember, skipGap_cons, isGap, bind, Except.bind, pure, Except.pure]
  | cons m ms ih =>
    obtain ⟨k, x⟩ := m
    obtain ⟨(hx : x.ReadsBack depth), hms⟩ := List.forall_mem_cons.mp h
    obtain _ | fuel := fuel
    · omega
    simp only [writeMembers, List.length_cons, List.length_append] at hfuel
    have hnext := nextMember_next k (':' :: (write x ++ (writeMembers ms ++ '\x7d' :: rest)))
    simp only [writeMembers, List.cons_append, List.append_assoc]
    rw [readMembers_step hx (by omega) (closes_members ms rest) hnext, ih hms (by omega)]
    rfl

/-! ### Whole values -/

/-- Whether a value has only numbers that are read back, and nests no deeper than a bound. -/
inductive Legible : Nat → Json → Prop where
  | null {depth : Nat} : Legible depth .null
  | bool {depth : Nat} (b : Bool) : Legible depth (.bool b)
  | number {depth : Nat} {n : JsonNumber} (h : NumberReadsBack n) : Legible depth (.number n)
  | string {depth : Nat} (s : String) : Legible depth (.string s)
  | array {depth : Nat} {xs : List Json} (h : ∀ x ∈ xs, Legible depth x) :
    Legible (depth + 1) (.array xs)
  | object {depth : Nat} {ms : JsonObject} (h : ∀ m ∈ ms, Legible depth m.2) :
    Legible (depth + 1) (.object ms)

theorem readEnd_ok {u : Unit} : readEnd r = .ok u ↔ skipGap r = [] := by
  unfold readEnd
  split <;> simp_all

/-- Reading a whole text that is a value reads the value, and leaves nothing but blanks. -/
theorem read_ok (h : read cs = .ok j) : ∃ r,
    readValue (2 * cs.length + 2) depthLimit cs = .ok (j, r) ∧ skipGap r = [] := by
  simp only [read, bind, Except.bind] at h
  cases hread : readValue (2 * cs.length + 2) depthLimit cs with
  | error e => simp [hread] at h
  | ok p =>
    simp only [hread] at h
    cases hend : readEnd p.2 with
    | error e => simp [hend] at h
    | ok u =>
      rw [hend] at h
      cases h
      exact ⟨p.2, rfl, readEnd_ok.mp hend⟩

theorem NumberReadsBack.readsBack (h : NumberReadsBack n) : ReadsBack depth (.number n) := by
  intro fuel rest hfuel hrest
  rw [write] at hfuel ⊢
  obtain ⟨r, hread, hblank⟩ := read_ok h
  obtain _ | fuel := fuel
  · have hempty : writeNumber n = [] := List.length_eq_zero_iff.mp (by omega)
    rw [hempty] at hread
    cases hread
  · exact ⟨r ++ rest, readValue_number_append hread hrest fuel depth,
      skipGap_append_of_blank hblank rest⟩

theorem readsBack_string (s : String) : ReadsBack depth (.string s) := by
  intro fuel rest hfuel hrest
  obtain _ | fuel := fuel
  · simp [write, writeString] at hfuel
  have hquote : write (.string s) ++ rest = '\x22' :: ((writeString s).tail ++ rest) := by
    rw [write]
    rfl
  refine ⟨rest, ?_, rfl⟩
  rw [hquote, readValue, skipGap_cons rfl]
  simp [readString_write, bind, Except.bind, pure, Except.pure]

theorem readsBack_array (h : ∀ x ∈ xs, x.ReadsBack depth) : ReadsBack (depth + 1) (.array xs) := by
  intro fuel rest hfuel hrest
  have hlong : 2 ≤ (write (.array xs)).length := by
    cases xs <;> simp only [write, List.length_cons, List.length_append, List.length_nil] <;> omega
  obtain ⟨fuel, rfl⟩ : ∃ k, fuel = k + 2 := ⟨fuel - 2, by omega⟩
  have hitems : ∃ cs, write (.array xs) ++ rest = '[' :: cs ∧
      readItems (fuel + 1) depth true cs = .ok (xs, rest) := by
    cases xs with
    | nil =>
      refine ⟨']' :: rest, by simp [write], ?_⟩
      simp [readItems, nextItem, skipGap_cons, isGap, bind, Except.bind, pure, Except.pure]
    | cons x xs =>
      obtain ⟨hx, hxs⟩ := List.forall_mem_cons.mp h
      have hclose := closes_items xs rest
      simp only [write, List.length_cons, List.length_append] at hfuel
      refine ⟨write x ++ (writeItems xs ++ ']' :: rest), by simp [write], ?_⟩
      rw [readItems_step hx (by omega) hclose (hx.nextItem_first hclose),
        readItems_write hxs (by omega)]
      rfl
  obtain ⟨cs, htext, hread⟩ := hitems
  refine ⟨rest, ?_, rfl⟩
  rw [htext, readValue, skipGap_cons rfl]
  simp [hread, bind, Except.bind, pure, Except.pure]

theorem readsBack_object (h : ∀ m ∈ ms, m.2.ReadsBack depth) :
    ReadsBack (depth + 1) (.object ms) := by
  intro fuel rest hfuel hrest
  have hlong : 2 ≤ (write (.object ms)).length := by
    cases ms <;> simp only [write, List.length_cons, List.length_append, List.length_nil] <;> omega
  obtain ⟨fuel, rfl⟩ : ∃ k, fuel = k + 2 := ⟨fuel - 2, by omega⟩
  have hmembers : ∃ cs, write (.object ms) ++ rest = '\x7b' :: cs ∧
      readMembers (fuel + 1) depth true cs = .ok (ms, rest) := by
    cases ms with
    | nil =>
      refine ⟨'\x7d' :: rest, by simp [write], ?_⟩
      simp [readMembers, nextMember, skipGap_cons, isGap, bind, Except.bind, pure, Except.pure]
    | cons m ms =>
      obtain ⟨k, x⟩ := m
      obtain ⟨(hx : x.ReadsBack depth), hms⟩ := List.forall_mem_cons.mp h
      simp only [write, List.length_cons, List.length_append] at hfuel
      refine ⟨writeString k ++ (':' :: (write x ++ (writeMembers ms ++ '\x7d' :: rest))),
        by simp [write], ?_⟩
      rw [readMembers_step hx (by omega) (closes_members ms rest) (nextMember_first k _),
        readMembers_write hms (by omega)]
      rfl
  obtain ⟨cs, htext, hread⟩ := hmembers
  refine ⟨rest, ?_, rfl⟩
  rw [htext, readValue, skipGap_cons rfl]
  simp [hread, bind, Except.bind, pure, Except.pure]

/-- A legible value is read back, whatever follows. -/
theorem Legible.readsBack (h : Legible depth x) : x.ReadsBack depth := by
  induction h with
  | null =>
    intro fuel rest hfuel hrest
    obtain _ | fuel := fuel
    · simp [write] at hfuel
    · exact ⟨rest, rfl, rfl⟩
  | bool b =>
    intro fuel rest hfuel hrest
    obtain _ | fuel := fuel
    · cases b <;> simp [write] at hfuel
    · cases b <;> exact ⟨rest, rfl, rfl⟩
  | number h => exact h.readsBack
  | string s => exact readsBack_string s
  | array _ ih => exact readsBack_array ih
  | object _ ih => exact readsBack_object ih

/-- Reading what was written of a legible value gives the value. -/
theorem read_write (h : Legible depthLimit j) : read (write j) = .ok j := by
  obtain ⟨r, hread, hr⟩ := h.readsBack (2 * (write j).length + 2) [] (by omega) closes_nil
  rw [List.append_nil] at hread
  have hend : readEnd r = .ok () := readEnd_ok.mpr hr
  rw [read, hread]
  simp only [bind, Except.bind, hend]
  rfl

end ProposalReview.Json
