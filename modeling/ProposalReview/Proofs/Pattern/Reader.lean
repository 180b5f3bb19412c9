import Mathlib
import ProposalReview.Pattern.Reader
import ProposalReview.Proofs.Pattern.Search
/-!
What is read is well-formed.

A repetition is made with bounds that are in order, and no other step looks into a pattern. So every
pattern that has been read, whole or in part, has all its bounds in order.
-/

namespace ProposalReview.Pattern

theorem wellFormed_seqs {ps : List Pattern} (h : ∀ p ∈ ps, p.WellFormed) : (seqs ps).WellFormed := by
  fun_induction seqs ps with
  | case1 => trivial
  | case2 p => exact h p List.mem_cons_self
  | case3 p q ps ih => exact ⟨h p List.mem_cons_self, ih fun r hr => h r (List.mem_cons_of_mem p hr)⟩

theorem wellFormed_alts {ps : List Pattern} (h : ∀ p ∈ ps, p.WellFormed) : (alts ps).WellFormed := by
  fun_induction alts ps with
  | case1 => trivial
  | case2 p => exact h p List.mem_cons_self
  | case3 p q ps ih => exact ⟨h p List.mem_cons_self, ih fun r hr => h r (List.mem_cons_of_mem p hr)⟩

/-! ### Parts -/

/-- Whether the patterns of parts are well-formed. -/
def Sound (ps : List Part) : Prop := ∀ p ∈ ps, p.pattern.WellFormed

theorem sound_nil : Sound [] := fun _ h => absurd h List.not_mem_nil

theorem sound_cons {p : Part} {ps : List Part} :
    Sound (p :: ps) ↔ p.pattern.WellFormed ∧ Sound ps := List.forall_mem_cons

theorem Sound.patterns {ps : List Part} (h : Sound ps) :
    ∀ p ∈ ps.reverse.map (·.pattern), p.WellFormed := by
  intro p hp
  obtain ⟨part, hpart, rfl⟩ := List.mem_map.mp hp
  exact h part (List.mem_reverse.mp hpart)

theorem Sound.branchOf {ps : List Part} (h : Sound ps) : (branchOf ps).pattern.WellFormed := by
  fun_cases Pattern.branchOf ps with
  | case1 => trivial
  | case2 p => exact h p List.mem_cons_self
  | case3 => exact wellFormed_seqs h.patterns

theorem Sound.choiceOf {ps : List Part} (h : Sound ps) : (choiceOf ps).pattern.WellFormed := by
  fun_cases Pattern.choiceOf ps with
  | case1 => trivial
  | case2 p => exact h p List.mem_cons_self
  | case3 => exact wellFormed_alts h.patterns

theorem wellFormed_escapedPart (f : Settings) (e : Escaped) : (f.escapedPart e).pattern.WellFormed := by
  cases e <;> trivial

/-! ### Steps of reading -/

/-- Bounds in braces are in order. -/
theorem readBounds_le {f : Settings} {cs rest : List Char} {least : Nat} {most : Option Nat}
    (h : readBounds f cs = some (least, most, rest)) : ∀ m ∈ most, least ≤ m := by
  obtain ⟨⟨n, after⟩, -, h⟩ := Option.bind_eq_some_iff.mp h
  simp only at h
  split at h
  · cases h
  · next c after =>
    split_ifs at h with hclosed hcomma
    · cases h
      simp
    · obtain ⟨⟨d, ds⟩, -, h⟩ := Option.bind_eq_some_iff.mp h
      split_ifs at h with hopen
      · cases h
        simp
      · obtain ⟨⟨m, after⟩, -, h⟩ := Option.bind_eq_some_iff.mp h
        simp only at h
        split_ifs at h with hle
        cases h
        simpa using hle.2

namespace Progress

/-- Whether all that has been read is well-formed. -/
structure Sound (s : Progress) : Prop where
  parts : Pattern.Sound s.parts
  branches : Pattern.Sound s.branches
  groups : ∀ g ∈ s.groups, Pattern.Sound g.parts ∧ Pattern.Sound g.branches

variable {s s' : Progress} {cs rest : List Char}

theorem Sound.push (h : s.Sound) {p : Part} (hp : p.pattern.WellFormed) : (s.push p).Sound :=
  ⟨sound_cons.mpr ⟨hp, h.parts⟩, h.branches, h.groups⟩

theorem Sound.openGroup (h : s.Sound) (inner : Settings) : (s.openGroup inner).Sound :=
  ⟨sound_nil, sound_nil, List.forall_mem_cons.mpr ⟨⟨h.parts, h.branches⟩, h.groups⟩⟩

/-- The choice between all branches of the group being read. -/
theorem Sound.choice (h : s.Sound) :
    (Pattern.choiceOf (Pattern.branchOf s.parts :: s.branches)).pattern.WellFormed :=
  Pattern.Sound.choiceOf (sound_cons.mpr ⟨h.parts.branchOf, h.branches⟩)

theorem Sound.closeGroup (h : s.Sound) (hs : s.closeGroup = some s') : s'.Sound := by
  rw [Progress.closeGroup] at hs
  split at hs
  · cases hs
  · next g gs hgroups =>
    cases hs
    obtain ⟨hg, hgs⟩ := List.forall_mem_cons.mp (hgroups ▸ h.groups)
    exact ⟨sound_cons.mpr ⟨h.choice, hg.1⟩, hg.2, hgs⟩

theorem Sound.repeatLast (h : s.Sound) {least : Nat} {most : Option Nat} {lazily : Bool}
    (hmost : ∀ m ∈ most, least ≤ m) (hs : s.repeatLast least most lazily = some s') : s'.Sound := by
  rw [Progress.repeatLast] at hs
  split at hs
  · cases hs
  · next p ps hparts =>
    split at hs
    · cases hs
      obtain ⟨hp, hps⟩ := sound_cons.mp (hparts ▸ h.parts)
      exact ⟨sound_cons.mpr ⟨⟨hp, hmost⟩, hps⟩, h.branches, h.groups⟩
    · cases hs

theorem Sound.openNamed (h : s.Sound) (hs : s.openNamed cs = some (s', rest)) : s'.Sound := by
  rw [Progress.openNamed] at hs
  split at hs
  · split at hs
    · cases hs
      have hnamed : Progress.Sound { s with names := cs.takeWhile (· != '>') :: s.names } :=
        ⟨h.parts, h.branches, h.groups⟩
      exact hnamed.openGroup _
    · cases hs
  · cases hs

theorem Sound.openWith (h : s.Sound) (hs : s.openWith cs = some (s', rest)) : s'.Sound := by
  obtain ⟨⟨f, mark, after⟩, -, hs⟩ := Option.bind_eq_some_iff.mp hs
  simp only at hs
  split_ifs at hs
  · cases hs
    exact h.openGroup f
  · cases hs
    have hset : Progress.Sound { s with settings := f } := ⟨h.parts, h.branches, h.groups⟩
    exact hset.push trivial

theorem Sound.enter (h : s.Sound) (hs : s.enter cs = some (s', rest)) : s'.Sound := by
  rw [Progress.enter] at hs
  split at hs
  · exact h.openNamed hs
  · cases hs
  · cases hs
  · exact h.openNamed hs
  · exact h.openWith hs
  · cases hs
    exact h.openGroup _

theorem Sound.sign (h : s.Sound) {least : Nat} {most : Option Nat} (hmost : ∀ m ∈ most, least ≤ m)
    (hs : s.sign least most cs = some (s', rest)) : s'.Sound := by
  obtain ⟨t, ht, hs⟩ := Option.map_eq_some_iff.mp hs
  cases hs
  exact h.repeatLast hmost ht

theorem Sound.bounds (h : s.Sound) (hs : s.bounds cs = some (s', rest)) : s'.Sound := by
  obtain ⟨⟨least, most, after⟩, hbounds, hs⟩ := Option.bind_eq_some_iff.mp hs
  exact h.sign (readBounds_le hbounds) hs

/-- One step keeps what has been read well-formed. -/
theorem Sound.step (h : s.Sound) {c : Char} (hs : s.step c cs = some (s', rest)) : s'.Sound := by
  rw [Progress.step.eq_def] at hs
  split at hs
  · exact h.enter hs
  · obtain ⟨t, ht, hs⟩ := Option.map_eq_some_iff.mp hs
    cases hs
    exact h.closeGroup ht
  · cases hs
    exact ⟨sound_nil, sound_cons.mpr ⟨h.parts.branchOf, h.branches⟩, h.groups⟩
  · obtain ⟨r, -, hs⟩ := Option.map_eq_some_iff.mp hs
    cases hs
    exact h.push trivial
  · exact h.sign (by simp) hs
  · exact h.sign (by simp) hs
  · exact h.sign (by simp) hs
  · exact h.bounds hs
  · obtain ⟨⟨e, after⟩, -, hs⟩ := Option.map_eq_some_iff.mp hs
    cases hs
    exact h.push (wellFormed_escapedPart _ e)
  · cases hs
    exact h.push trivial
  · cases hs
    exact h.push trivial
  · cases hs
    exact h.push trivial
  · cases hs
    exact h.push trivial

theorem Sound.run {n : Nat} (h : s.Sound) (hs : run n s cs = some s') : s'.Sound := by
  induction n generalizing s cs with
  | zero => cases hs
  | succ n ih =>
    rw [Progress.run] at hs
    split at hs
    · cases hs
      exact h
    · obtain ⟨⟨t, after⟩, ht, hs⟩ := Option.bind_eq_some_iff.mp hs
      exact ih (h.step ht) hs

end Progress

/-- A pattern that a text denotes is well-formed. -/
theorem wellFormed_of_read? {text : String} {p : Pattern} (h : read? text = some p) : p.WellFormed := by
  obtain ⟨s, hs, h⟩ := Option.bind_eq_some_iff.mp h
  have hsound : s.Sound := Progress.Sound.run ⟨sound_nil, sound_nil, by simp⟩ hs
  split_ifs at h with hclosed
  simp only at h
  split_ifs at h with hheight
  cases h
  exact hsound.choice

theorem wellFormed_of_compile {text : String} {p : Pattern} (h : compile text = .ok p) :
    p.WellFormed := by
  rw [compile] at h
  split at h
  · next hread => exact Except.ok.inj h ▸ wellFormed_of_read? hread
  · cases h

end ProposalReview.Pattern
