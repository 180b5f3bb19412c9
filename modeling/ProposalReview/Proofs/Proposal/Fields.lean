import Mathlib
import ProposalReview.Proofs.Text.Blank
import ProposalReview.Proposal.Fields
/-!
What the lines of a proposal say.

A line gives a field in one form only: blanks, the key in any case, blanks and a colon. Reading the
lines one after another comes to this: a field is present if some line gives it, and its value is what
follows the colon in the first line that gives it and does not leave it blank.
-/

namespace ProposalReview

open Proposal

variable {f : Field} {line rest : List Char} {ls : List (List Char)}

namespace Proposal

/-- A line gives a field, with what follows the colon. -/
def Gives (line : List Char) (f : Field) (rest : List Char) : Prop :=
  ∃ lead key gap, line = lead ++ (key ++ (gap ++ ':' :: rest)) ∧ (∀ c ∈ lead, Text.isBlank c) ∧
    key.map Char.toLower = f.key.toList ∧ ∀ c ∈ gap, Text.isBlank c

/-- Some line gives a field, blank or not. -/
def Mentions (ls : List (List Char)) (f : Field) : Prop := ∃ line ∈ ls, ∃ rest, Gives line f rest

/-- A line gives a field and does not leave it blank. -/
def Fills (line : List Char) (f : Field) (rest : List Char) : Prop :=
  Gives line f rest ∧ ∃ c ∈ rest, ¬ Text.isBlank c

/-- Of all lines that fill a field, the first does so with what follows its colon. -/
def FillsFirst (ls : List (List Char)) (f : Field) (rest : List Char) : Prop :=
  ∃ before line after, ls = before ++ line :: after ∧ Fills line f rest ∧
    ∀ earlier ∈ before, ∀ rest', ¬ Fills earlier f rest'

/-! ### The form of a line -/

theorem isKeyChar_toLower (c : Char) : isKeyChar c.toLower = isKeyChar c := by
  by_cases hupper : c.isUpper
  · have hlower : c.toLower.isLower := by simp [Char.isAlpha, hupper]
    simp [isKeyChar, Char.isAlpha, hupper, hlower]
  · rw [Char.toLower_eq_of_not_isUpper hupper]

theorem isBlank_of_isKeyChar {c : Char} (h : isKeyChar c) : Text.isBlank c = false := by
  rw [isKeyChar, Bool.or_eq_true, beq_iff_eq] at h
  rcases h with h | rfl
  · exact Text.isBlank_of_isAlphanum (by rw [Char.isAlphanum, h, Bool.true_or])
  · decide

theorem isKeyChar_of_isBlank {c : Char} (h : Text.isBlank c) : isKeyChar c = false := by
  by_contra hkey
  rw [isBlank_of_isKeyChar (by simpa using hkey)] at h
  cases h

theorem takeWhile_gap {gap : List Char} (h : ∀ c ∈ gap, Text.isBlank c) (rest : List Char) :
    (gap ++ ':' :: rest).takeWhile isKeyChar = [] := by
  rcases gap with _ | ⟨c, cs⟩
  · rfl
  · exact List.takeWhile_cons_of_neg (by simp [isKeyChar_of_isBlank (h c List.mem_cons_self)])

theorem dropWhile_gap {gap : List Char} (h : ∀ c ∈ gap, Text.isBlank c) (rest : List Char) :
    (gap ++ ':' :: rest).dropWhile isKeyChar = gap ++ ':' :: rest := by
  rcases gap with _ | ⟨c, cs⟩
  · rfl
  · exact List.dropWhile_cons_of_neg (by simp [isKeyChar_of_isBlank (h c List.mem_cons_self)])

/-- The colon of a field comes after blanks, a word of key characters and blanks. -/
theorem keyLine?_eq_some_iff {key : List Char} : keyLine? line = some (key, rest) ↔
    ∃ lead gap, line = lead ++ (key ++ (gap ++ ':' :: rest)) ∧ (∀ c ∈ lead, Text.isBlank c) ∧
      key ≠ [] ∧ (∀ c ∈ key, isKeyChar c) ∧ ∀ c ∈ gap, Text.isBlank c := by
  constructor
  · intro h
    -- the line falls apart as it is read: blanks, the key, blanks, and the colon with what follows
    obtain ⟨lead, hlead, hline⟩ := Text.exists_trimStart line
    obtain ⟨gap, hgap, hafter⟩ :=
      Text.exists_trimStart ((Text.trimStart line).dropWhile isKeyChar)
    rw [keyLine?] at h
    rcases hcolon : Text.trimStart ((Text.trimStart line).dropWhile isKeyChar) with _ | ⟨c, cs⟩
    · simp [hcolon] at h
    simp only [hcolon] at h
    split_ifs at h with hc
    obtain ⟨rfl, rfl⟩ := Prod.mk.inj (Option.some.inj h)
    refine ⟨lead, gap, ?_, hlead, by simpa using hc.2, fun _ => List.mem_takeWhile_imp, hgap⟩
    rw [← hc.1, ← hcolon, ← hafter, List.takeWhile_append_dropWhile, ← hline]
  · rintro ⟨lead, gap, rfl, hlead, hne, hkey, hgap⟩
    have hstart : Text.trimStart (lead ++ (key ++ (gap ++ ':' :: rest)))
        = key ++ (gap ++ ':' :: rest) := by
      obtain ⟨c, cs, rfl⟩ := List.exists_cons_of_ne_nil hne
      rw [Text.trimStart_append hlead]
      exact Text.trimStart_cons (isBlank_of_isKeyChar (hkey c List.mem_cons_self)) _
    have htake : (key ++ (gap ++ ':' :: rest)).takeWhile isKeyChar = key := by
      rw [List.takeWhile_append_of_pos hkey, takeWhile_gap hgap, List.append_nil]
    have hdrop : (key ++ (gap ++ ':' :: rest)).dropWhile isKeyChar = gap ++ ':' :: rest := by
      rw [List.dropWhile_append_of_pos hkey, dropWhile_gap hgap]
    rw [keyLine?, hstart]
    simp only [htake, hdrop, Text.trimStart_append hgap, Text.trimStart_cons (c := ':') (by decide)]
    rw [if_pos ⟨trivial, by simpa using hne⟩]

end Proposal

/-! ### The field of a line -/

theorem Field.ofKey?_eq_some_iff {k : String} : Field.ofKey? k = some f ↔ k = f.key := by
  constructor
  · intro h
    rw [Field.ofKey?] at h
    have hfound := List.find?_some h
    exact (beq_iff_eq.mp hfound).symm
  · rintro rfl
    cases f <;> decide

theorem Field.isKeyChar_of_mem {c : Char} (h : c ∈ f.key.toList) : isKeyChar c := by
  have hall : f.key.toList.all isKeyChar := by cases f <;> decide
  exact List.all_eq_true.mp hall c h

theorem Field.key_ne_nil (f : Field) : f.key.toList ≠ [] := by cases f <;> decide

theorem Field.key_injective : Function.Injective Field.key := by
  intro f g h
  have hf : Field.ofKey? f.key = some f := Field.ofKey?_eq_some_iff.mpr rfl
  exact Option.some.inj (hf.symm.trans (Field.ofKey?_eq_some_iff.mpr h))

/-- A word is made of key characters if it is a key in any case. -/
theorem Field.isKeyChar_of_toLower {word : List Char} (h : word.map Char.toLower = f.key.toList) :
    ∀ c ∈ word, isKeyChar c := by
  intro c hc
  rw [← isKeyChar_toLower]
  exact Field.isKeyChar_of_mem (h ▸ List.mem_map_of_mem hc)

/-- A line is read as giving a field just when it has the form for it. -/
theorem Proposal.fieldLine?_eq_some_iff : fieldLine? line = some (f, rest) ↔ Gives line f rest := by
  simp only [fieldLine?, Option.bind_eq_some_iff, Option.map_eq_some_iff, Prod.mk.injEq,
    Field.ofKey?_eq_some_iff]
  constructor
  · rintro ⟨⟨key, rest⟩, hline, g, hkey, rfl, rfl⟩
    obtain ⟨lead, gap, hsplit, hlead, -, -, hgap⟩ := keyLine?_eq_some_iff.mp hline
    refine ⟨lead, key, gap, hsplit, hlead, ?_, hgap⟩
    rw [← hkey, String.toList_ofList]
  · rintro ⟨lead, key, gap, hsplit, hlead, hkey, hgap⟩
    have hline : keyLine? line = some (key, rest) := by
      refine keyLine?_eq_some_iff.mpr
        ⟨lead, gap, hsplit, hlead, ?_, Field.isKeyChar_of_toLower hkey, hgap⟩
      rintro rfl
      exact Field.key_ne_nil f hkey.symm
    exact ⟨(key, rest), hline, f, by rw [hkey, String.ofList_toList], rfl, rfl⟩

/-! ### Line by line -/

theorem Field.valueIn_eq_nil : f.valueIn rest = [] ↔ ∀ c ∈ rest, Text.isBlank c := by
  rw [Field.valueIn]
  split_ifs
  · exact Text.firstToken_eq_nil
  · exact Text.trim_eq_nil

theorem Field.valueIn_ne_nil : f.valueIn rest ≠ [] ↔ ∃ c ∈ rest, ¬ Text.isBlank c := by
  rw [Ne, Field.valueIn_eq_nil]
  push Not
  rfl

/-- What follows the colon of a line that fills a field. -/
def Proposal.filling? (f : Field) (line : List Char) : Option (List Char) :=
  (fieldLine? line).bind fun gr => if gr.1 = f ∧ f.valueIn gr.2 ≠ [] then some gr.2 else none

theorem Proposal.filling?_eq_some_iff : filling? f line = some rest ↔ Fills line f rest := by
  simp only [filling?, Option.bind_eq_some_iff, Option.ite_none_right_eq_some, Option.some.injEq,
    Prod.exists, Fills, ← fieldLine?_eq_some_iff, ← Field.valueIn_ne_nil (f := f)]
  constructor
  · rintro ⟨g, r, hline, ⟨rfl, hne⟩, rfl⟩
    exact ⟨hline, hne⟩
  · rintro ⟨hline, hne⟩
    exact ⟨f, rest, hline, ⟨rfl, hne⟩, rfl⟩

namespace Fields

theorem isPresent_step (fs : Fields) :
    (fs.step line).isPresent f ↔ fs.isPresent f ∨ ∃ rest, Gives line f rest := by
  simp only [← fieldLine?_eq_some_iff]
  rw [step]
  rcases hline : fieldLine? line with _ | ⟨g, r⟩
  · simp
  · simp only [isPresent, List.contains_iff_mem, Option.some.injEq, Prod.mk.injEq,
      exists_and_left, exists_eq', and_true]
    split_ifs with hseen
    · exact ⟨Or.inl, fun h => h.elim id fun hg => hg ▸ hseen⟩
    · rw [List.mem_cons, or_comm, eq_comm]

/-- What a line says of a field counts unless the field has a value already. -/
theorem value?_step (fs : Fields) :
    (fs.step line).value? f = (fs.value? f).or ((filling? f line).map f.valueIn) := by
  rw [step, filling?]
  rcases hline : fieldLine? line with _ | ⟨g, r⟩
  · simp
  by_cases hkeep : ((fs.value? g).isSome || (g.valueIn r).isEmpty) = true
  · simp only [if_pos hkeep, Option.bind_some]
    change fs.value? f = _
    rcases eq_or_ne g f with rfl | hg
    · rcases hold : fs.value? g with _ | old
      · simp_all
      · rfl
    · simp [hg]
  · simp only [if_neg hkeep, Option.bind_some]
    change ((g, g.valueIn r) :: fs.values).lookup f = (fs.values.lookup f).or _
    rw [Bool.or_eq_true, not_or, Option.not_isSome_iff_eq_none, List.isEmpty_iff] at hkeep
    rcases eq_or_ne g f with rfl | hg
    · rw [show fs.values.lookup g = none from hkeep.1]
      simp [hkeep.2]
    · simp [hg, List.lookup_cons, beq_eq_false_iff_ne.mpr hg.symm]

/-! ### The whole text -/

theorem isPresent_foldl (ls : List (List Char)) (fs : Fields) :
    (ls.foldl step fs).isPresent f ↔ fs.isPresent f ∨ Mentions ls f := by
  induction ls generalizing fs with
  | nil => simp [Mentions]
  | cons line ls ih =>
    rw [List.foldl_cons, ih, isPresent_step, or_assoc]
    simp [Mentions]

theorem value?_foldl (ls : List (List Char)) (fs : Fields) :
    (ls.foldl step fs).value? f = (fs.value? f).or ((ls.findSome? (filling? f)).map f.valueIn) := by
  induction ls generalizing fs with
  | nil => simp
  | cons line ls ih =>
    rw [List.foldl_cons, ih, value?_step, Option.or_assoc, List.findSome?_cons]
    cases filling? f line <;> rfl

/-- A field is present just when some line gives it. -/
theorem isPresent_ofText {text : List Char} :
    (ofText text).isPresent f ↔ Mentions (Text.lines text) f := by
  rw [ofText, isPresent_foldl, or_iff_right (by simp [isPresent])]

/-- The value of a field is what the first line that fills it says. -/
theorem value?_ofText {text v : List Char} : (ofText text).value? f = some v ↔
    ∃ rest, FillsFirst (Text.lines text) f rest ∧ f.valueIn rest = v := by
  rw [ofText, value?_foldl, show value? {} f = none from rfl, Option.none_or]
  simp only [Option.map_eq_some_iff, List.findSome?_eq_some_iff, FillsFirst,
    ← filling?_eq_some_iff, Option.eq_none_iff_forall_ne_some, ne_eq]

/-- A field has a value just when some line fills it. -/
theorem value?_isSome_ofText {text : List Char} : ((ofText text).value? f).isSome ↔
    ∃ line ∈ Text.lines text, ∃ rest, Fills line f rest := by
  rw [ofText, value?_foldl, show value? {} f = none from rfl, Option.none_or]
  rw [Option.isSome_map, List.findSome?_isSome_iff]
  simp only [Option.isSome_iff_exists, filling?_eq_some_iff]

end Fields

end ProposalReview
