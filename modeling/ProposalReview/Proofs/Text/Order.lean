import Mathlib
import ProposalReview.Proofs.Text.Utf8
/-!
Texts and digits in order.

Lists are ordered by their heads first. So ASCII texts are ordered as their bytes, and digits of one
length as the numbers they denote.
-/

namespace ProposalReview

/-! ### Lists in order -/

namespace Text

/-- Of lists that begin with equally long parts, these parts decide the order, and if they are equal the
rest does. -/
theorem append_lt_append_iff {α : Type} [LT α] {as bs cs ds : List α} (h : as.length = bs.length) :
    as ++ cs < bs ++ ds ↔ as < bs ∨ as = bs ∧ cs < ds := by
  induction as generalizing bs with
  | nil =>
    obtain rfl := List.length_eq_zero_iff.mp h.symm
    simp
  | cons a as ih =>
    cases bs with
    | nil => cases h
    | cons b bs =>
      rw [List.cons_append, List.cons_append, List.cons_lt_cons_iff, List.cons_lt_cons_iff,
        ih (Nat.succ.inj h), List.cons.injEq]
      tauto

/-- A character of ASCII is encoded as its own code. -/
theorem encode_cons_ascii {c : Char} (hc : c.toNat < 128) (cs : List Char) :
    encode (c :: cs) = UInt8.ofNat c.toNat :: encode cs := by
  rw [encode, List.flatMap_cons, String.utf8EncodeChar]
  simp only [show c.val.toNat ≤ 127 from Nat.le_of_lt_succ hc, if_true]
  rfl

theorem toNat_ofNat_ascii {c : Char} (hc : c.toNat < 128) : (UInt8.ofNat c.toNat).toNat = c.toNat :=
  UInt8.toNat_ofNat_of_lt' (hc.trans (by decide))

theorem length_encode_ascii {cs : List Char} (hcs : ∀ c ∈ cs, c.toNat < 128) :
    (encode cs).length = cs.length := by
  induction cs with
  | nil => rfl
  | cons c cs ih =>
    obtain ⟨hc, hcs⟩ := List.forall_mem_cons.mp hcs
    rw [encode_cons_ascii hc, List.length_cons, ih hcs, List.length_cons]

/-- The encodings of ASCII texts are ordered as the texts. -/
theorem encode_lt_iff {as bs : List Char} (has : ∀ c ∈ as, c.toNat < 128)
    (hbs : ∀ c ∈ bs, c.toNat < 128) : encode as < encode bs ↔ as < bs := by
  induction as generalizing bs with
  | nil =>
    cases bs with
    | nil => simp [encode]
    | cons b bs =>
      rw [encode_cons_ascii (hbs b List.mem_cons_self)]
      simp [encode]
  | cons a as ih =>
    obtain ⟨ha, has⟩ := List.forall_mem_cons.mp has
    cases bs with
    | nil => simp [encode]
    | cons b bs =>
      obtain ⟨hb, hbs⟩ := List.forall_mem_cons.mp hbs
      rw [encode_cons_ascii ha, encode_cons_ascii hb, List.cons_lt_cons_iff, List.cons_lt_cons_iff,
        ih has hbs, UInt8.lt_iff_toNat_lt, ← UInt8.toNat_inj, toNat_ofNat_ascii ha,
        toNat_ofNat_ascii hb, Char.toNat_inj]
      rfl

end Text

/-! ### Digits in order -/

namespace Decimal

theorem toNat_of_isDigit {c : Char} (hc : c.isDigit) : 48 ≤ c.toNat ∧ c.toNat ≤ 57 := by
  rw [Char.isDigit, Bool.and_eq_true, decide_eq_true_iff, decide_eq_true_iff] at hc
  exact hc

theorem ofDigitChars_cons_zero (c : Char) (cs : List Char) : Nat.ofDigitChars 10 (c :: cs) 0
    = 10 ^ cs.length * (c.toNat - '0'.toNat) + Nat.ofDigitChars 10 cs 0 := by
  rw [Nat.ofDigitChars_cons, Nat.ofDigitChars_eq_ofDigitChars_zero, Nat.mul_zero, Nat.zero_add]

theorem ofDigitChars_lt {cs : List Char} (hcs : ∀ c ∈ cs, c.isDigit) :
    Nat.ofDigitChars 10 cs 0 < 10 ^ cs.length := by
  induction cs with
  | nil => decide
  | cons c cs ih =>
    obtain ⟨hc, hcs⟩ := List.forall_mem_cons.mp hcs
    have hrest := ih hcs
    have hdigit : c.toNat - '0'.toNat ≤ 9 := Nat.sub_le_sub_right (toNat_of_isDigit hc).2 48
    have hfirst := Nat.mul_le_mul_left (10 ^ cs.length) hdigit
    rw [ofDigitChars_cons_zero, List.length_cons, Nat.pow_succ]
    omega

theorem mul_add_lt_iff {x a b c d : Nat} (hc : c < x) (hd : d < x) :
    x * a + c < x * b + d ↔ a < b ∨ a = b ∧ c < d := by
  rcases lt_trichotomy a b with hlt | rfl | hlt
  · have := Nat.mul_le_mul_left x hlt
    rw [Nat.mul_succ] at this
    omega
  · omega
  · have := Nat.mul_le_mul_left x hlt
    rw [Nat.mul_succ] at this
    omega

/-- Digits of one length are ordered as the numbers they denote. -/
theorem digits_lt_iff {as bs : List Char} (has : ∀ c ∈ as, c.isDigit) (hbs : ∀ c ∈ bs, c.isDigit)
    (hlen : as.length = bs.length) :
    as < bs ↔ Nat.ofDigitChars 10 as 0 < Nat.ofDigitChars 10 bs 0 := by
  induction as generalizing bs with
  | nil =>
    obtain rfl := List.length_eq_zero_iff.mp hlen.symm
    simp
  | cons a as ih =>
    cases bs with
    | nil => cases hlen
    | cons b bs =>
      obtain ⟨ha, has⟩ := List.forall_mem_cons.mp has
      obtain ⟨hb, hbs⟩ := List.forall_mem_cons.mp hbs
      have hlen := Nat.succ.inj hlen
      have halt := ofDigitChars_lt has
      have hblt := ofDigitChars_lt hbs
      rw [← hlen] at hblt
      rw [List.cons_lt_cons_iff, ih has hbs hlen, ofDigitChars_cons_zero, ofDigitChars_cons_zero,
        ← hlen, mul_add_lt_iff halt hblt]
      have hfirst : a < b ↔ a.toNat - '0'.toNat < b.toNat - '0'.toNat := by
        have := toNat_of_isDigit ha
        have := toNat_of_isDigit hb
        change a.toNat < b.toNat ↔ a.toNat - 48 < b.toNat - 48
        omega
      have hsame : a = b ↔ a.toNat - '0'.toNat = b.toNat - '0'.toNat := by
        have := toNat_of_isDigit ha
        have := toNat_of_isDigit hb
        rw [← Char.toNat_inj]
        change a.toNat = b.toNat ↔ a.toNat - 48 = b.toNat - 48
        omega
      rw [hfirst, hsame]

end Decimal

end ProposalReview
