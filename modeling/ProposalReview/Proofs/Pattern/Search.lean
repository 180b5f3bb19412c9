import Mathlib
import ProposalReview.Pattern.Search
import ProposalReview.Proofs.Pattern.Rounds
/-!
What a search finds.

The lists of ends hold exactly the ends of a pattern's matches, in whatever order they are preferred.
So a search finds a match, none starts before the one found, and it finds none only if there is none. In
particular the match found starts a text exactly if some match does.
-/

namespace ProposalReview.Pattern

variable {w : Array Char} {p : Pattern} {length n i j : Nat} {s t : Ends}

/-- Whether no repetition in a pattern must be done more often than it may be. -/
def WellFormed : Pattern → Prop
  | .seq p q => p.WellFormed ∧ q.WellFormed
  | .alt p q => p.WellFormed ∧ q.WellFormed
  | .rounds p least most _ => p.WellFormed ∧ ∀ m ∈ most, least ≤ m
  | _ => True

/-! ### Lists of ends -/

theorem mem_tabulate {f : Nat → List Nat} :
    j ∈ (Ends.tabulate length f).at i ↔ i ≤ length ∧ j ∈ f i := by
  rw [Ends.at, Ends.tabulate, Array.getD_eq_getD_getElem?, Array.getElem?_ofFn]
  split_ifs with hi
  · simp [Nat.lt_succ_iff.mp hi]
  · simpa using fun h : i ≤ length => absurd (Nat.lt_succ_of_le h) hi

theorem mem_andThen : j ∈ (s.andThen length t).at i ↔ i ≤ length ∧ ∃ k ∈ s.at i, j ∈ t.at k := by
  rw [Ends.andThen, mem_tabulate, List.mem_flatMap]

theorem mem_choices {greedy : Bool} {goOn : List Nat} :
    j ∈ choices greedy goOn i ↔ j = i ∨ j ∈ goOn := by
  cases greedy with
  | false => rw [choices, if_neg (by decide), List.mem_cons]
  | true => rw [choices, if_pos rfl, List.mem_append, List.mem_singleton, or_comm]

theorem mem_optional {greedy : Bool} : j ∈ (s.optional length greedy t).at i ↔
    i ≤ length ∧ (j = i ∨ ∃ k ∈ s.at i, j ∈ t.at k) := by
  rw [Ends.optional, mem_tabulate, mem_choices, List.mem_flatMap]

theorem iterate_eq (f : Ends → Ends) (n : Nat) (t : Ends) : iterate f n t = f^[n] t := by
  induction n generalizing t with
  | zero => rfl
  | succ n ih => rw [iterate, ih, Function.iterate_succ_apply]

/-! ### Rounds over lists of ends -/

/-- From an index to one of its ends. -/
def Ends.Step (s : Ends) (i j : Nat) : Prop := j ∈ s.at i

/-- Whether ends are not before their index, nor beyond a length. -/
def Ends.Bounded (length : Nat) (s : Ends) : Prop := ∀ {i j}, s.Step i j → i ≤ j ∧ j ≤ length

theorem Rounds.le_length (h : Rounds s.Step n i j) (hs : s.Bounded length) (hi : i ≤ length) :
    j ≤ length := by
  induction h with
  | stop i => exact hi
  | round hij _ ih => exact ih (hs hij).2

theorem mem_iterate_andThen (hs : s.Bounded length) :
    j ∈ (iterate (s.andThen length) n t).at i ↔ ∃ k, Rounds s.Step n i k ∧ j ∈ t.at k := by
  rw [iterate_eq]
  induction n generalizing i with
  | zero =>
    constructor
    · exact fun h => ⟨i, .stop i, h⟩
    · rintro ⟨k, ⟨⟩, h⟩
      exact h
  | succ n ih =>
    rw [Function.iterate_succ_apply', mem_andThen]
    constructor
    · rintro ⟨-, l, hl, h⟩
      obtain ⟨k, hk, h⟩ := ih.mp h
      exact ⟨k, .round hl hk, h⟩
    · rintro ⟨k, hk, h⟩
      cases hk with
      | @round _ _ l _ hl hk =>
        have hbounds := hs hl
        exact ⟨by omega, l, hl, ih.mpr ⟨k, hk, h⟩⟩

/-- Going on a limited number of times comes to the ends of so many rounds or fewer. -/
theorem mem_iterate_optional {greedy : Bool} (hs : s.Bounded length) :
    j ∈ (iterate (s.optional length greedy) n (Ends.tabulate length fun i => [i])).at i ↔
      i ≤ length ∧ ∃ m ≤ n, Rounds s.Step m i j := by
  rw [iterate_eq]
  induction n generalizing i with
  | zero =>
    rw [Function.iterate_zero_apply, mem_tabulate, List.mem_singleton]
    refine and_congr_right fun _ => ?_
    constructor
    · rintro rfl
      exact ⟨0, le_rfl, .stop j⟩
    · rintro ⟨m, hm, h⟩
      obtain rfl := Nat.le_zero.mp hm
      cases h
      rfl
  | succ n ih =>
    rw [Function.iterate_succ_apply', mem_optional]
    refine and_congr_right fun _ => ?_
    constructor
    · rintro (rfl | ⟨k, hk, h⟩)
      · exact ⟨0, Nat.zero_le _, .stop j⟩
      · obtain ⟨-, m, hm, h⟩ := ih.mp h
        exact ⟨m + 1, Nat.succ_le_succ hm, .round hk h⟩
    · rintro ⟨m, hm, h⟩
      cases h with
      | stop => exact .inl rfl
      | @round m _ k _ hk h =>
        exact .inr ⟨k, hk, ih.mpr ⟨(hs hk).2, m, Nat.le_of_succ_le_succ hm, h⟩⟩

theorem length_anyRounds (length : Nat) (greedy : Bool) (s : Ends) (n : Nat) :
    (anyRounds length greedy s n).length = n := by
  induction n with
  | zero => rfl
  | succ n ih => rw [anyRounds, List.length_cons, ih]

/-- The list for one of the last indices of a text holds what any number of rounds comes to. A round that
stays where it is need not be looked at. -/
theorem mem_getD_anyRounds {greedy : Bool} (hs : s.Bounded length) (hi : i ≤ length)
    (hn : length < i + n) (hlength : n ≤ length + 1) :
    j ∈ (anyRounds length greedy s n).getD (i + n - (length + 1)) [] ↔
      ∃ m, Rounds s.Step m i j := by
  induction n generalizing i with
  | zero => omega
  | succ n ih =>
    rw [anyRounds]
    rcases Nat.lt_or_ge length (i + n) with hlater | hfirst
    · rw [show i + (n + 1) - (length + 1) = (i + n - (length + 1)) + 1 by omega, List.getD_cons_succ]
      exact ih hi hlater (by omega)
    -- the first list goes on from later indices, of which the lists after it tell
    obtain rfl : i = length - n := by omega
    have hle : ∀ {i j}, s.Step i j → i ≤ j := fun h => (hs h).1
    rw [show length - n + (n + 1) - (length + 1) = 0 by omega, List.getD_cons_zero,
      List.mem_eraseDups, mem_choices, List.mem_flatMap, Rounds.exists_iff hle]
    refine or_congr_right (exists_congr fun k => ?_)
    rw [List.mem_filter, decide_eq_true_iff, and_assoc]
    refine and_congr_right fun hk => and_congr_right fun hlt => ?_
    have hlater := ih (hs hk).2 (by omega) (by omega)
    rwa [show k + n - (length + 1) = k - (length - n) - 1 by omega] at hlater

theorem mem_anyRounds {greedy : Bool} (hs : s.Bounded length) :
    j ∈ Ends.at (anyRounds length greedy s (length + 1)).toArray i ↔
      i ≤ length ∧ ∃ m, Rounds s.Step m i j := by
  have hat : Ends.at (anyRounds length greedy s (length + 1)).toArray i
      = (anyRounds length greedy s (length + 1)).getD i [] := by
    rw [Ends.at, Array.getD_eq_getD_getElem?, List.getElem?_toArray, List.getD_eq_getElem?_getD]
  rw [hat]
  by_cases hi : i ≤ length
  · have hlast : j ∈ (anyRounds length greedy s (length + 1)).getD (i + (length + 1) - (length + 1)) [] ↔
        ∃ m, Rounds s.Step m i j := mem_getD_anyRounds hs hi (by omega) le_rfl
    rw [Nat.add_sub_cancel] at hlast
    simpa [hi] using hlast
  · rw [List.getD_eq_default _ _ (by rw [length_anyRounds]; omega)]
    simp [hi]

/-! ### The ends of a pattern -/

/-- The ends of the rounds of a repetition that may be done but need not be. -/
def Ends.free (length : Nat) (s : Ends) (least : Nat) (most : Option Nat) (greedy : Bool) : Ends :=
  match most with
  | none => (anyRounds length greedy s (length + 1)).toArray
  | some m =>
    iterate (s.optional length greedy) (min (m - least) (length + 1))
      (Ends.tabulate length fun i => [i])

theorem ends_rounds (w : Array Char) (p : Pattern) (least : Nat) (most : Option Nat) (greedy : Bool) :
    ends w (.rounds p least most greedy) = iterate ((ends w p).andThen w.size)
      (min least (w.size + 1)) ((ends w p).free w.size least most greedy) := rfl

theorem mem_free {least : Nat} {most : Option Nat} {greedy : Bool} (hs : s.Bounded length) :
    j ∈ (s.free length least most greedy).at i ↔
      i ≤ length ∧ ∃ n, (∀ m ∈ most, n ≤ m - least) ∧ Rounds s.Step n i j := by
  have hle : ∀ {i j}, s.Step i j → i ≤ j := fun h => (hs h).1
  cases most with
  | none => simpa [Ends.free] using mem_anyRounds hs
  | some m =>
    rw [Ends.free, mem_iterate_optional hs]
    refine and_congr_right fun hi => ?_
    simp only [Option.mem_def, Option.some.injEq, forall_eq']
    constructor
    · rintro ⟨n, hn, h⟩
      exact ⟨n, by omega, h⟩
    · rintro ⟨n, hn, h⟩
      exact (Rounds.exists_le_min_iff hle (h.le_length hs hi)).mpr ⟨n, hn, h⟩

/-- The rounds of a repetition are those that must be done and then those that may be. -/
theorem exists_rounds_iff {R : Nat → Nat → Prop} {least : Nat} {most : Option Nat}
    (hmost : ∀ m ∈ most, least ≤ m) :
    (∃ k, Rounds R least i k ∧ ∃ n, (∀ m ∈ most, n ≤ m - least) ∧ Rounds R n k j) ↔
      ∃ n, least ≤ n ∧ (∀ m ∈ most, n ≤ m) ∧ Rounds R n i j := by
  constructor
  · rintro ⟨k, hk, n, hn, h⟩
    refine ⟨least + n, by omega, fun m hm => ?_, hk.append h⟩
    have := hn m hm
    have := hmost m hm
    omega
  · rintro ⟨n, hleast, hn, h⟩
    obtain ⟨n, rfl⟩ := Nat.exists_eq_add_of_le hleast
    obtain ⟨k, hk, h⟩ := h.split
    refine ⟨k, hk, n, fun m hm => ?_, h⟩
    have := hn m hm
    omega

theorem mem_ends_rounds {least : Nat} {most : Option Nat} {greedy : Bool}
    (hs : (ends w p).Bounded w.size) (hmost : ∀ m ∈ most, least ≤ m) :
    j ∈ (ends w (.rounds p least most greedy)).at i ↔
      j ≤ w.size ∧ ∃ n, least ≤ n ∧ (∀ m ∈ most, n ≤ m) ∧ Rounds (ends w p).Step n i j := by
  have hle : ∀ {i j}, (ends w p).Step i j → i ≤ j := fun h => (hs h).1
  rw [ends_rounds, mem_iterate_andThen hs, ← exists_rounds_iff hmost]
  constructor
  · rintro ⟨k, hk, h⟩
    obtain ⟨hksize, n, hn, h⟩ := (mem_free hs).mp h
    exact ⟨h.le_length hs hksize, k, (Rounds.min_iff hle hksize).mp hk, n, hn, h⟩
  · rintro ⟨hj, k, hk, n, hn, h⟩
    have hksize := (h.le hle).trans hj
    exact ⟨k, (Rounds.min_iff hle hksize).mpr hk, (mem_free hs).mpr ⟨hksize, n, hn, h⟩⟩

/-- The lists of ends are the ends of a pattern's matches. -/
theorem mem_ends (hp : p.WellFormed) : j ∈ (ends w p).at i ↔ Matches w p i j := by
  induction p generalizing i j with
  | empty =>
    rw [ends, mem_tabulate, List.mem_singleton]
    constructor
    · rintro ⟨hi, rfl⟩
      exact .empty hi
    · intro h
      cases h with
      | empty hi => exact ⟨hi, rfl⟩
  | set s =>
    rw [ends, mem_tabulate]
    constructor
    · rintro ⟨-, h⟩
      cases hc : w[i]? with
      | none => simp [hc] at h
      | some c =>
        obtain ⟨hs, rfl⟩ : s.mem c ∧ j = i + 1 := by simpa [hc] using h
        exact .set hc hs
    · intro h
      have hbounds := h.bounds
      cases h with
      | set hc hs => exact ⟨by omega, by simp [hc, hs]⟩
  | anchor a =>
    rw [ends, mem_tabulate]
    constructor
    · rintro ⟨hi, h⟩
      obtain ⟨ha, rfl⟩ : a.holds w i ∧ j = i := by simpa using h
      exact .anchor hi ha
    · intro h
      cases h with
      | anchor hi ha => exact ⟨hi, by simp [ha]⟩
  | seq p q ihp ihq =>
    rw [ends, mem_andThen]
    simp only [ihp hp.1, ihq hp.2]
    constructor
    · rintro ⟨-, k, hk, h⟩
      exact .seq hk h
    · intro h
      have hbounds := h.bounds
      cases h with
      | seq hk h => exact ⟨by omega, _, hk, h⟩
  | alt p q ihp ihq =>
    rw [ends, mem_tabulate, List.mem_append, ihp hp.1, ihq hp.2]
    constructor
    · rintro ⟨-, h | h⟩
      · exact .altLeft h
      · exact .altRight h
    · intro h
      have hbounds := h.bounds
      cases h with
      | altLeft h => exact ⟨by omega, .inl h⟩
      | altRight h => exact ⟨by omega, .inr h⟩
  | rounds p least most greedy ih =>
    have hstep : (ends w p).Step = Matches w p := by
      funext i j
      exact propext (ih hp.1)
    have hs : (ends w p).Bounded w.size := by
      intro i j h
      rw [hstep] at h
      exact h.bounds
    rw [mem_ends_rounds hs hp.2, matches_rounds_iff, hstep]

/-! ### The leftmost match -/

theorem head?_ends_eq_none (hp : p.WellFormed) :
    ((ends w p).at i).head? = none ↔ ∀ j, ¬ Matches w p i j := by
  rw [List.head?_eq_none_iff, List.eq_nil_iff_forall_not_mem]
  exact forall_congr' fun j => not_congr (mem_ends hp)

/-- A search that finds nothing says that there is no match. -/
theorem find?_eq_none_iff (hp : p.WellFormed) : p.find? w = none ↔ ∀ i j, ¬ Matches w p i j := by
  rw [find?, List.findSome?_eq_none_iff]
  simp only [List.mem_range, Option.map_eq_none_iff, head?_ends_eq_none hp]
  constructor
  · intro h i j hij
    have hbounds := hij.bounds
    exact h i (by omega) j hij
  · exact fun h i _ => h i

/-- A search finds a match that none starts before. -/
theorem find?_leftmost (hp : p.WellFormed) (h : p.find? w = some (i, j)) :
    Matches w p i j ∧ ∀ k l, Matches w p k l → i ≤ k := by
  obtain ⟨before, m, after, hrange, hm, hbefore⟩ := List.findSome?_eq_some_iff.mp h
  obtain ⟨j', hj, hij⟩ := Option.map_eq_some_iff.mp hm
  cases hij
  refine ⟨(mem_ends hp).mp (List.mem_of_mem_head? hj), fun k l hkl => ?_⟩
  have hsorted : (before ++ i :: after).Pairwise (· < ·) := hrange ▸ List.pairwise_lt_range
  have hbounds := hkl.bounds
  have hk : k ∈ before ++ i :: after := by
    rw [← hrange, List.mem_range]
    omega
  rcases List.mem_append.mp hk with hk | hk
  · have hnone := hbefore k hk
    rw [Option.map_eq_none_iff, head?_ends_eq_none hp] at hnone
    exact absurd hkl (hnone l)
  · rcases List.mem_cons.mp hk with rfl | hk
    · exact le_rfl
    · exact (List.rel_of_pairwise_cons (List.pairwise_append.mp hsorted).2.1 hk).le

/-- The leftmost match starts a text exactly if some match does. -/
theorem matchesStart_iff (hp : p.WellFormed) (text : String) :
    p.matchesStart text = true ↔ ∃ j, Matches text.toList.toArray p 0 j := by
  rw [matchesStart]
  cases hfound : p.find? text.toList.toArray with
  | none =>
    rw [find?_eq_none_iff hp] at hfound
    simpa using hfound 0
  | some found =>
    obtain ⟨i, j⟩ := found
    obtain ⟨hmatch, hleft⟩ := find?_leftmost hp hfound
    rw [Option.any_some, beq_iff_eq]
    constructor
    · rintro rfl
      exact ⟨j, hmatch⟩
    · rintro ⟨l, hl⟩
      exact Nat.le_zero.mp (hleft 0 l hl)

end ProposalReview.Pattern
