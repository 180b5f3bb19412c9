import Mathlib
import ProposalReview.Proofs.Proposal.Fields
import ProposalReview.Proofs.Text.Lines
/-!
The grammar of proposals.

The reader goes through a text once and keeps what it has found so far. Here it is held against a grammar
that knows of no reading: which texts are lines with a key, and which part of such a line is the value.

    line   blanks  word  blanks  ':'  rest          the word is a key in any case
    rest   blanks  value  blanks                    for most keys
    rest   blanks  value  (nothing or blank ...)    for keys of a single token
-/

namespace ProposalReview

open Proposal

namespace Proposal

variable {line rest v : List Char} {k : String} {f : Field}

/-- The keys that are recognised. -/
def keys : List String :=
  ["approval_id", "approved_by", "approved_at", "approval_reason", "evidence", "eval", "learn",
   "success_rate", "drift", "reproducibility", "revenue_usdc", "token_cost_usdc"]

/-- The keys whose value is a single token. -/
def tokenKeys : List String := ["approval_id", "approved_by"]

/-- A line carries a key in any case, with a rest behind the colon. The word is a longest run of letters and
underscores, as there are but blanks before it and blanks or the colon after it. -/
def Carries (line : List Char) (k : String) (rest : List Char) : Prop :=
  ∃ lead word gap, line = lead ++ (word ++ (gap ++ ':' :: rest)) ∧ (∀ c ∈ lead, Text.isBlank c) ∧
    (∀ c ∈ word, c.isAlpha ∨ c = '_') ∧ word.map Char.toLower = k.toList ∧
    ∀ c ∈ gap, Text.isBlank c

/-- A line assigns a value to a key. An empty value is none. -/
def Assigns (line : List Char) (k : String) (v : List Char) : Prop :=
  ∃ rest, Carries line k rest ∧ v ≠ [] ∧
    if k ∈ tokenKeys then Text.BeginsWithToken rest v else Text.Trims rest v

/-- Of the lines that assign anything to a key, the first assigns a value. -/
def AssignsFirst (ls : List (List Char)) (k : String) (v : List Char) : Prop :=
  ∃ before line after, ls = before ++ line :: after ∧ Assigns line k v ∧
    ∀ earlier ∈ before, ∀ v', ¬ Assigns earlier k v'

theorem mem_keys : k ∈ keys ↔ ∃ f : Field, f.key = k := by
  have hall : ∀ f : Field, f ∈ Field.all := fun f => by cases f <;> decide
  change k ∈ Field.all.map Field.key ↔ _
  simp [hall]

theorem mem_tokenKeys : f.key ∈ tokenKeys ↔ f.isToken := by cases f <;> decide

theorem carries_key : Carries line f.key rest ↔ Gives line f rest := by
  constructor
  · rintro ⟨lead, word, gap, hsplit, hlead, -, hkey, hgap⟩
    exact ⟨lead, word, gap, hsplit, hlead, hkey, hgap⟩
  · rintro ⟨lead, word, gap, hsplit, hlead, hkey, hgap⟩
    have hword : ∀ c ∈ word, c.isAlpha ∨ c = '_' := by
      simpa [isKeyChar] using Field.isKeyChar_of_toLower hkey
    exact ⟨lead, word, gap, hsplit, hlead, hword, hkey, hgap⟩

/-- The value that a line assigns is a part of that line. -/
theorem Assigns.isInfix (h : Assigns line k v) : v <:+: line := by
  obtain ⟨rest, ⟨lead, word, gap, rfl, -⟩, -, hvalue⟩ := h
  have hrest : v <:+: rest := by
    split_ifs at hvalue
    · obtain ⟨lead, tail, rfl, -⟩ := hvalue
      exact ⟨lead, tail, List.append_assoc ..⟩
    · obtain ⟨lead, tail, rfl, -⟩ := hvalue
      exact ⟨lead, tail, List.append_assoc ..⟩
  have hline : rest <:+ lead ++ (word ++ (gap ++ ':' :: rest)) :=
    ⟨lead ++ (word ++ (gap ++ [':'])), by simp⟩
  exact hrest.trans hline.isInfix

theorem valueIn_eq_iff (hv : v ≠ []) : f.valueIn rest = v ↔
    if f.key ∈ tokenKeys then Text.BeginsWithToken rest v else Text.Trims rest v := by
  simp only [Field.valueIn, mem_tokenKeys]
  split_ifs
  · exact Text.firstToken_eq_iff hv
  · exact Text.trim_eq_iff

theorem assigns_key : Assigns line f.key v ↔ ∃ rest, Fills line f rest ∧ f.valueIn rest = v := by
  simp only [Assigns, carries_key, Fills, ← Field.valueIn_ne_nil (f := f)]
  refine exists_congr fun rest => ?_
  constructor
  · rintro ⟨hgives, hv, hvalue⟩
    obtain rfl := (valueIn_eq_iff hv).mpr hvalue
    exact ⟨⟨hgives, hv⟩, rfl⟩
  · rintro ⟨⟨hgives, hv⟩, rfl⟩
    exact ⟨hgives, hv, (valueIn_eq_iff hv).mp rfl⟩

theorem assignsFirst_key {ls : List (List Char)} :
    AssignsFirst ls f.key v ↔ ∃ rest, FillsFirst ls f rest ∧ f.valueIn rest = v := by
  have hnone : ∀ line, (∀ v', ¬ Assigns line f.key v') ↔ ∀ rest, ¬ Fills line f rest := by
    intro line
    simp only [assigns_key]
    exact ⟨fun h rest hfills => h _ ⟨rest, hfills, rfl⟩,
      fun h v' ⟨rest, hfills, _⟩ => h rest hfills⟩
  simp only [AssignsFirst, hnone, FillsFirst]
  simp only [assigns_key]
  constructor
  · rintro ⟨before, line, after, hsplit, ⟨rest, hfills, hvalue⟩, hbefore⟩
    exact ⟨rest, ⟨before, line, after, hsplit, hfills, hbefore⟩, hvalue⟩
  · rintro ⟨rest, ⟨before, line, after, hsplit, hfills, hbefore⟩, hvalue⟩
    exact ⟨before, line, after, hsplit, ⟨rest, hfills, hvalue⟩, hbefore⟩

end Proposal

namespace Fields

variable {fs : Fields} {f : Field} {k : String} {v : List Char}

/-- The keys of the fields that are present. -/
def presentKeys (fs : Fields) : List String := fs.seen.map Field.key

/-- The value that is kept under a key. -/
def valueOf? (fs : Fields) (k : String) : Option (List Char) :=
  (fs.values.map fun fv => (fv.1.key, fv.2)).lookup k

theorem mem_presentKeys : k ∈ fs.presentKeys ↔ ∃ f, fs.isPresent f ∧ f.key = k := by
  simp [presentKeys, isPresent]

theorem valueOf?_key (fs : Fields) (f : Field) : fs.valueOf? f.key = fs.value? f := by
  rw [valueOf?, value?]
  induction fs.values with
  | nil => rfl
  | cons fv values ih =>
    have hkey : (f.key == fv.1.key) = (f == fv.1) := by
      simp only [beq_eq_decide, Field.key_injective.eq_iff]
    rw [List.map_cons, List.lookup_cons, List.lookup_cons, ih, hkey]

/-- Nothing is kept under a key that is none of a field. -/
theorem valueOf?_eq_some_iff : fs.valueOf? k = some v ↔ ∃ f, f.key = k ∧ fs.value? f = some v := by
  constructor
  · intro h
    obtain ⟨before, after, hsplit, -⟩ := List.lookup_eq_some_iff.mp h
    have hmem : (k, v) ∈ fs.values.map fun fv => (fv.1.key, fv.2) := by simp [hsplit]
    obtain ⟨fv, -, hkept⟩ := List.mem_map.mp hmem
    obtain ⟨rfl, -⟩ := Prod.mk.inj hkept
    exact ⟨fv.1, rfl, by rw [← valueOf?_key, h]⟩
  · rintro ⟨f, rfl, hvalue⟩
    rw [valueOf?_key, hvalue]

theorem mem_presentKeys_ofText {text : List Char} : k ∈ (ofText text).presentKeys ↔
    k ∈ keys ∧ ∃ line ∈ Text.lines text, ∃ rest, Carries line k rest := by
  simp only [mem_presentKeys, mem_keys, isPresent_ofText, Mentions, ← carries_key]
  constructor
  · rintro ⟨f, hmentions, rfl⟩
    exact ⟨⟨f, rfl⟩, hmentions⟩
  · rintro ⟨⟨f, rfl⟩, hmentions⟩
    exact ⟨f, hmentions, rfl⟩

theorem valueOf?_ofText {text : List Char} : (ofText text).valueOf? k = some v ↔
    k ∈ keys ∧ AssignsFirst (Text.lines text) k v := by
  simp only [valueOf?_eq_some_iff, mem_keys, value?_ofText, ← assignsFirst_key]
  constructor
  · rintro ⟨f, rfl, hfirst⟩
    exact ⟨⟨f, rfl⟩, hfirst⟩
  · rintro ⟨⟨f, rfl⟩, hfirst⟩
    exact ⟨f, rfl, hfirst⟩

/-- The keys present and the values are those that the lines of a text give: a key is present just when
it is one of the twelve and some line carries it, and its value is the one that the first line assigns
that assigns any. So a value is a part of one line. -/
theorem ofText_reads_grammar (text : List Char) :
    ∃ ls, (∀ ls', Text.Splits text ls' ↔ ls' = ls) ∧ ∀ k,
      (k ∈ (ofText text).presentKeys ↔ k ∈ keys ∧ ∃ line ∈ ls, ∃ rest, Carries line k rest) ∧
      ∀ v, ((ofText text).valueOf? k = some v ↔ k ∈ keys ∧ AssignsFirst ls k v) ∧
        ((ofText text).valueOf? k = some v → ∃ line ∈ ls, v <:+: line ∧ '\n' ∉ v) := by
  refine ⟨Text.lines text, fun ls' => Text.splits_iff.trans eq_comm, fun k =>
    ⟨mem_presentKeys_ofText, fun v => ⟨valueOf?_ofText, fun h => ?_⟩⟩⟩
  obtain ⟨-, before, line, after, hsplit, hassigns, -⟩ := valueOf?_ofText.mp h
  have hline : line ∈ Text.lines text := by simp [hsplit]
  have hfeed : '\n' ∉ line := (Text.splits_lines text).not_mem line hline
  exact ⟨line, hline, hassigns.isInfix, fun hv => hfeed (hassigns.isInfix.subset hv)⟩

example :
    let fs := ofText "evals: a\rEVAL: b\n Approved_By : c: d \r\neval:\neval: e".toList
    fs.presentKeys = ["eval", "approved_by"] ∧ fs.valueOf? "eval" = some ['e'] ∧
      fs.valueOf? "approved_by" = some ['c', ':'] := by decide +kernel

end Fields

end ProposalReview
