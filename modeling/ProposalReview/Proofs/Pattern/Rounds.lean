import Mathlib
import ProposalReview.Pattern.Basic
/-!
Repetitions as rounds.

A repetition matches by a number of rounds, each a match of what is repeated. A round either moves on or
stays where it is, so of more rounds than there are places to move to one stays, and can be left out or
done twice. What many rounds reach is therefore reached by any other number that is large enough.
-/

namespace ProposalReview.Pattern

/-- A number of rounds, one after another, of a relation between indices. -/
inductive Rounds (R : Nat → Nat → Prop) : Nat → Nat → Nat → Prop where
  | stop (i : Nat) : Rounds R 0 i i
  | round {n i j k : Nat} : R i j → Rounds R n j k → Rounds R (n + 1) i k

namespace Rounds

variable {R : Nat → Nat → Prop} {m n i j k : Nat}

theorem le (hR : ∀ {i j}, R i j → i ≤ j) (h : Rounds R n i j) : i ≤ j := by
  induction h with
  | stop i => exact le_rfl
  | round hij _ ih => exact (hR hij).trans ih

theorem append (h : Rounds R m i j) (h' : Rounds R n j k) : Rounds R (m + n) i k := by
  induction h with
  | stop i => rwa [Nat.zero_add]
  | round hij _ ih =>
    rw [Nat.add_right_comm]
    exact .round hij (ih h')

theorem split (h : Rounds R (m + n) i k) : ∃ j, Rounds R m i j ∧ Rounds R n j k := by
  induction m generalizing i with
  | zero => exact ⟨i, .stop i, by rwa [Nat.zero_add] at h⟩
  | succ m ih =>
    rw [Nat.add_right_comm] at h
    cases h with
    | round hij h =>
      obtain ⟨l, hl, hlk⟩ := ih h
      exact ⟨l, .round hij hl, hlk⟩

/-- Of more rounds than they move on by, one can be left out. -/
theorem leaveOut (hR : ∀ {i j}, R i j → i ≤ j) (h : Rounds R (n + 1) i k) (hn : k < i + (n + 1)) :
    Rounds R n i k := by
  induction n generalizing i with
  | zero =>
    cases h with
    | round hij h =>
      cases h
      obtain rfl : i = k := by have := hR hij; omega
      exact .stop i
  | succ n ih =>
    cases h with
    | @round _ _ j _ hij h =>
      rcases (hR hij).eq_or_lt with rfl | hlt
      · exact h
      · exact .round hij (ih h (by omega))

/-- Of more rounds than they move on by, one can be done twice. -/
theorem doTwice (hR : ∀ {i j}, R i j → i ≤ j) (h : Rounds R n i k) (hn : k < i + n) :
    Rounds R (n + 1) i k := by
  induction h with
  | stop i => omega
  | round hij h ih =>
    rcases (hR hij).eq_or_lt with rfl | hlt
    · exact .round hij (.round hij h)
    · exact .round hij (ih (by omega))

/-- Any two numbers of rounds that are both more than they move on by reach the same. -/
theorem change (hR : ∀ {i j}, R i j → i ≤ j) (h : Rounds R n i k) (hn : k < i + n)
    (hm : k < i + m) : Rounds R m i k := by
  rcases Nat.le_total n m with hle | hle
  · induction m, hle using Nat.le_induction with
    | base => exact h
    | succ m hle ih => exact (ih (by omega)).doTwice hR (by omega)
  · induction hle using Nat.decreasingInduction with
    | self => exact h
    | of_succ m hle ih => exact (ih (by omega)).leaveOut hR (by omega)

/-- Rounds that do not all stay where they are begin, those that stay aside, with one that moves on. -/
theorem exists_iff (hR : ∀ {i j}, R i j → i ≤ j) :
    (∃ n, Rounds R n i k) ↔ k = i ∨ ∃ j, R i j ∧ i < j ∧ ∃ n, Rounds R n j k := by
  constructor
  · rintro ⟨n, h⟩
    induction n with
    | zero =>
      cases h
      exact .inl rfl
    | succ n ih =>
      cases h with
      | @round _ _ j _ hij h =>
        rcases (hR hij).eq_or_lt with rfl | hlt
        · exact ih h
        · exact .inr ⟨j, hij, hlt, n, h⟩
  · rintro (rfl | ⟨j, hij, -, n, h⟩)
    · exact ⟨0, .stop k⟩
    · exact ⟨n + 1, .round hij h⟩

/-- In a text of some length, rounds beyond its length change nothing. -/
theorem min_iff (hR : ∀ {i j}, R i j → i ≤ j) {length : Nat} (hk : k ≤ length) :
    Rounds R (min n (length + 1)) i k ↔ Rounds R n i k := by
  rcases Nat.le_total n (length + 1) with hle | hle
  · rw [Nat.min_eq_left hle]
  · rw [Nat.min_eq_right hle]
    exact ⟨fun h => h.change hR (by omega) (by omega), fun h => h.change hR (by omega) (by omega)⟩

/-- At most a number of rounds are done, the length of the text aside. -/
theorem exists_le_min_iff (hR : ∀ {i j}, R i j → i ≤ j) {length : Nat} (hk : k ≤ length) :
    (∃ n ≤ min m (length + 1), Rounds R n i k) ↔ ∃ n ≤ m, Rounds R n i k := by
  constructor
  · rintro ⟨n, hn, h⟩
    exact ⟨n, hn.trans (Nat.min_le_left _ _), h⟩
  · rintro ⟨n, hn, h⟩
    exact ⟨min n (length + 1), by omega, (min_iff hR hk).mpr h⟩

end Rounds

/-! ### Matches -/

variable {w : Array Char} {p : Pattern} {least : Nat} {most : Option Nat} {greedy : Bool} {i j : Nat}

/-- A match is a stretch of the text. -/
theorem Matches.bounds (h : Matches w p i j) : i ≤ j ∧ j ≤ w.size := by
  induction h with
  | empty hi => exact ⟨le_rfl, hi⟩
  | set hc _ =>
    obtain ⟨hi, -⟩ := Array.getElem?_eq_some_iff.mp hc
    omega
  | anchor hi _ => exact ⟨le_rfl, hi⟩
  | seq _ _ ih ih' => omega
  | altLeft _ ih => exact ih
  | altRight _ ih => exact ih
  | done hi => exact ⟨le_rfl, hi⟩
  | round _ _ _ ih ih' => omega

/-- A repetition matches by a number of rounds between its bounds. -/
theorem matches_rounds_iff : Matches w (.rounds p least most greedy) i j ↔
    j ≤ w.size ∧ ∃ n, least ≤ n ∧ (∀ m ∈ most, n ≤ m) ∧ Rounds (Matches w p) n i j := by
  constructor
  · intro h
    refine ⟨h.bounds.2, ?_⟩
    generalize hq : Pattern.rounds p least most greedy = q at h
    induction h generalizing least most with
    | done _ =>
      cases hq
      exact ⟨0, le_rfl, fun m _ => m.zero_le, .stop _⟩
    | @round _ least most _ _ _ _ hmost hij _ _ ih =>
      cases hq
      obtain ⟨n, hleast, hn, h⟩ := ih rfl
      refine ⟨n + 1, by omega, ?_, .round hij h⟩
      rintro m rfl
      have hm : m ≠ 0 := fun hm => hmost (by rw [hm])
      have := hn (m - 1) rfl
      omega
    | _ => cases hq
  · rintro ⟨hj, n, hleast, hn, h⟩
    induction h generalizing least most with
    | stop i =>
      obtain rfl := Nat.le_zero.mp hleast
      exact .done hj
    | round hij _ ih =>
      refine .round ?_ hij (ih hj (by omega) ?_)
      · rintro rfl
        exact absurd (hn 0 rfl) (by omega)
      · intro m hm
        obtain ⟨m', hm', rfl⟩ := Option.map_eq_some_iff.mp hm
        have := hn m' hm'
        omega

end ProposalReview.Pattern
