import Mathlib
import ProposalReview.Filing.Path
/-!
Decoding after encoding, and cutting bytes at an ASCII byte.

Decoding gives back every text that was encoded. A byte below 0x80 is never part of a longer
character, so decoding may be done on both sides of it apart, and an ASCII character in a decoded text
comes from its own byte. For paths this means that losing bytes never makes or removes a slash.

    lead byte ──▶ owed n ──tail──▶ owed n-1 ──…──▶ character
                    │ any other byte, or the end
                    ▼
                  U+FFFD, and the byte is read afresh
-/

namespace ProposalReview.Text

/-! ### Lead bytes -/

theorem lead?_ascii {b : UInt8} (h : b < 0x80) : lead? b = some (0, 0x80, 0xbf) := by
  rw [lead?, if_pos h]

theorem lead?_two {b : UInt8} (h : 0xc2 ≤ b.toNat) (h' : b.toNat < 0xe0) :
    lead? b = some (1, 0x80, 0xbf) := by
  simp only [lead?, UInt8.lt_iff_toNat_lt, UInt8.reduceToNat]
  grind

theorem lead?_three {b : UInt8} (h : 0xe0 ≤ b.toNat) (h' : b.toNat < 0xf0) :
    lead? b = some (2, if b.toNat = 0xe0 then 0xa0 else 0x80,
      if b.toNat = 0xed then 0x9f else 0xbf) := by
  simp only [lead?, UInt8.lt_iff_toNat_lt, ← UInt8.toNat_inj, UInt8.reduceToNat]
  grind

theorem lead?_four {b : UInt8} (h : 0xf0 ≤ b.toNat) (h' : b.toNat ≤ 0xf4) :
    lead? b = some (3, if b.toNat = 0xf0 then 0x90 else 0x80,
      if b.toNat = 0xf4 then 0x8f else 0xbf) := by
  simp only [lead?, UInt8.lt_iff_toNat_lt, ← UInt8.toNat_inj, UInt8.reduceToNat]
  grind

@[simp] theorem decode_nil : decode [] = [] := by rw [decode, decodeFrom]

theorem decode_ascii {b : UInt8} (h : b < 0x80) (bs : Bytes) :
    decode (b :: bs) = Char.ofNat b.toNat :: decode bs := by
  rw [decode, decodeFrom, startWith, lead?_ascii h]
  rfl

theorem decode_lead {b low high : UInt8} {n : Nat} (h : lead? b = some (n + 1, low, high))
    (bs : Bytes) :
    decode (b :: bs) = decodeFrom (some ⟨n + 1, low, high, leadBits b (n + 1)⟩) bs := by
  rw [decode, decodeFrom, startWith, h]

/-! ### Encoding and back -/

/-- The byte that carries the lowest six bits of a number after a lead byte. -/
def tailByte (x : Nat) : UInt8 := UInt8.ofNat (x % 64 + 128)

theorem toNat_tailByte (x : Nat) : (tailByte x).toNat = x % 64 + 128 := by
  rw [tailByte, UInt8.toNat_ofNat']
  omega

theorem decodeFrom_last_tail (bits x : Nat) (bs : Bytes) :
    decodeFrom (some ⟨1, 0x80, 0xbf, bits⟩) (tailByte x :: bs)
      = Char.ofNat (bits * 64 + x % 64) :: decode bs := by
  have hx := toNat_tailByte x
  rw [decodeFrom, if_pos (by simp only [UInt8.le_iff_toNat_le, UInt8.reduceToNat]; omega)]
  have hm : (x % 64 + 128) % 64 = x % 64 := by omega
  simp only [le_refl, if_true, hx, hm, decode]

theorem decodeFrom_tail {low high : UInt8} {x : Nat} (n bits : Nat)
    (hl : low.toNat ≤ x % 64 + 128) (hh : x % 64 + 128 ≤ high.toNat) (bs : Bytes) :
    decodeFrom (some ⟨n + 2, low, high, bits⟩) (tailByte x :: bs)
      = decodeFrom (some ⟨n + 1, 0x80, 0xbf, bits * 64 + x % 64⟩) bs := by
  have hx := toNat_tailByte x
  rw [decodeFrom, if_pos (by simp only [UInt8.le_iff_toNat_le, hx]; omega)]
  have hm : (x % 64 + 128) % 64 = x % 64 := by omega
  simp only [hx, hm]
  rw [if_neg (by omega)]
  rfl

theorem decode_encodeChar (c : Char) (bs : Bytes) :
    decode (String.utf8EncodeChar c ++ bs) = c :: decode bs := by
  have hv : c.val.toNat < 0xd800 ∨ 0xdfff < c.val.toNat ∧ c.val.toNat < 0x110000 := c.valid
  have hc : ∀ n, n = c.val.toNat → Char.ofNat n = c := by
    rintro n rfl
    exact Char.ofNat_toNat c
  simp only [String.utf8EncodeChar]
  generalize c.val.toNat = v at hv hc ⊢
  have hb : ∀ k, k < 256 → (UInt8.ofNat k).toNat = k := fun k hk => by
    rw [UInt8.toNat_ofNat']; omega
  have ht : ∀ x, UInt8.ofNat (x % 64 + 128) = tailByte x := fun _ => rfl
  simp only [ht]
  split_ifs with h1 h2 h3
  · have hv := hb v (by omega)
    rw [List.singleton_append, decode_ascii, hv, hc v rfl]
    rw [UInt8.lt_iff_toNat_lt, hv]
    exact Nat.lt_succ_of_le h1
  · have hv := hb (v / 64 % 32 + 192) (by omega)
    simp only [List.cons_append, List.nil_append]
    rw [decode_lead (lead?_two (by omega) (by omega)), decodeFrom_last_tail, hc]
    simp only [leadBits, hv]
    omega
  · have hv := hb (v / 4096 % 16 + 224) (by omega)
    simp only [List.cons_append, List.nil_append]
    rw [decode_lead (lead?_three (by omega) (by omega)), hv, decodeFrom_tail, decodeFrom_last_tail, hc]
    · simp only [leadBits, hv]
      omega
    · split_ifs <;> simp only [UInt8.reduceToNat] <;> omega
    · split_ifs <;> simp only [UInt8.reduceToNat] <;> omega
  · have hv := hb (v / 262144 % 8 + 240) (by omega)
    simp only [List.cons_append, List.nil_append]
    rw [decode_lead (lead?_four (by omega) (by omega)), hv, decodeFrom_tail, decodeFrom_tail,
      decodeFrom_last_tail, hc]
    · simp only [leadBits, hv]
      omega
    · simp only [UInt8.reduceToNat]; omega
    · simp only [UInt8.reduceToNat]; omega
    · split_ifs <;> simp only [UInt8.reduceToNat] <;> omega
    · split_ifs <;> simp only [UInt8.reduceToNat] <;> omega

/-- Decoding gives back every text that was encoded. -/
theorem decode_encode (cs : List Char) : decode (encode cs) = cs := by
  induction cs with
  | nil => simp [encode]
  | cons c cs ih => rw [encode, List.flatMap_cons, decode_encodeChar, ← encode, ih]

theorem encode_append (as bs : List Char) : encode (as ++ bs) = encode as ++ encode bs :=
  List.flatMap_append

theorem encodeString_append (s s' : String) :
    encodeString (s ++ s') = encodeString s ++ encodeString s' := by
  rw [encodeString, String.toList_append, encode_append, encodeString, encodeString]

theorem encodeString_inj {s s' : String} (h : encodeString s = encodeString s') : s = s' := by
  have hchars := congrArg decode h
  rw [encodeString, encodeString, decode_encode, decode_encode] at hchars
  exact String.toList_inj.mp hchars

theorem isUtf8_encode (cs : List Char) : IsUtf8 (encode cs) := by rw [IsUtf8, decode_encode]

theorem IsUtf8.append {as bs : Bytes} (ha : IsUtf8 as) (hb : IsUtf8 bs) : IsUtf8 (as ++ bs) := by
  rw [← ha, ← hb, ← encode_append]
  exact isUtf8_encode _

theorem IsUtf8.encodeString {bs : Bytes} (h : IsUtf8 bs) : encodeString (decodeString bs) = bs := by
  rw [Text.encodeString, decodeString, String.toList_ofList]
  exact h

theorem utf8?_eq_some_iff {bs : Bytes} {s : String} : utf8? bs = some s ↔ bs = encodeString s := by
  rw [utf8?]
  constructor
  · intro h
    split_ifs at h with hbs
    rw [← Option.some_inj.mp h, hbs.encodeString]
  · rintro rfl
    have hs : IsUtf8 (encodeString s) := isUtf8_encode s.toList
    rw [if_pos hs, decodeString, encodeString, decode_encode, String.ofList_toList]

/-! ### Bytes always show -/

theorem startWith_ne_nil {next : Option Partial → List Char} (h : ∀ p, next (some p) ≠ []) (b : UInt8) :
    startWith next b ≠ [] := by
  rw [startWith]
  split
  · exact List.cons_ne_nil _ _
  · exact List.cons_ne_nil _ _
  · exact h _

theorem decodeFrom_some_ne_nil (p : Partial) (bs : Bytes) : decodeFrom (some p) bs ≠ [] := by
  induction bs generalizing p with
  | nil => simp [decodeFrom]
  | cons b bs ih =>
    rw [decodeFrom]
    split_ifs
    · exact List.cons_ne_nil _ _
    · exact ih _
    · exact List.cons_ne_nil _ _

theorem decode_ne_nil {bs : Bytes} (h : bs ≠ []) : decode bs ≠ [] := by
  cases bs with
  | nil => exact absurd rfl h
  | cons b bs =>
    rw [decode, decodeFrom]
    exact startWith_ne_nil (fun p => decodeFrom_some_ne_nil p bs) b

/-! ### Cutting at an ASCII byte -/

/-- What is known of a character being read, so far as its bytes say so: the next byte is no ASCII
byte, and the bits amount to a character beyond ASCII. -/
structure Partial.Wide (p : Partial) : Prop where
  low : 0x80 ≤ p.low.toNat
  high : p.high.toNat ≤ 0xbf
  beyond : 0x80 ≤ (p.bits * 64 + (p.low.toNat - 0x80)) * 64 ^ (p.owed - 1)

theorem Partial.wide_of_lead? {b low high : UInt8} {n : Nat} (h : lead? b = some (n + 1, low, high)) :
    Partial.Wide ⟨n + 1, low, high, leadBits b (n + 1)⟩ := by
  simp only [lead?, UInt8.lt_iff_toNat_lt, ← UInt8.toNat_inj, UInt8.reduceToNat] at h
  split_ifs at h <;> cases h <;> constructor <;> simp only [leadBits, UInt8.reduceToNat] <;> omega

/-- Another byte of the character keeps it wide. -/
theorem Partial.Wide.next {p : Partial} {b : UInt8} (hp : p.Wide) (hb : p.low ≤ b ∧ b ≤ p.high)
    (ho : ¬ p.owed ≤ 1) : Partial.Wide ⟨p.owed - 1, 0x80, 0xbf, p.bits * 64 + b.toNat % 64⟩ := by
  obtain ⟨hl, hh, hw⟩ := hp
  simp only [UInt8.le_iff_toNat_le] at hb
  have hle : p.low.toNat - 0x80 ≤ b.toNat % 64 := by omega
  obtain ⟨n, hn⟩ : ∃ n, p.owed = n + 2 := ⟨p.owed - 2, by omega⟩
  refine ⟨by simp, by simp, ?_⟩
  simp only [hn, UInt8.reduceToNat, Nat.add_sub_cancel, Nat.sub_self, Nat.reduceSubDiff] at hw ⊢
  calc 0x80 ≤ (p.bits * 64 + (p.low.toNat - 0x80)) * 64 ^ (n + 1) := hw
    _ ≤ (p.bits * 64 + b.toNat % 64) * 64 ^ (n + 1) := by gcongr
    _ = ((p.bits * 64 + b.toNat % 64) * 64 + 0) * 64 ^ n := by ring

/-- Bytes may be decoded on both sides of an ASCII byte apart. -/
theorem decodeFrom_append_ascii {b : UInt8} (hb : b < 0x80) (as bs : Bytes) {p : Option Partial}
    (hp : ∀ q ∈ p, q.Wide) :
    decodeFrom p (as ++ b :: bs) = decodeFrom p as ++ decode (b :: bs) := by
  induction as generalizing p with
  | nil =>
    cases p with
    | none => rw [List.nil_append, decodeFrom, List.nil_append, decode]
    | some p =>
      have hl := (hp p rfl).low
      have hb' : ¬ (p.low ≤ b ∧ b ≤ p.high) := by
        simp only [UInt8.lt_iff_toNat_lt, UInt8.reduceToNat] at hb
        rw [UInt8.le_iff_toNat_le]
        omega
      rw [List.nil_append, decodeFrom, decodeFrom, if_neg hb', decode, decodeFrom,
        List.singleton_append]
  | cons a as ih =>
    have hafresh : ∀ q ∈ (none : Option Partial), q.Wide := by simp
    have hstart : startWith (fun p => decodeFrom p (as ++ b :: bs)) a
        = startWith (fun p => decodeFrom p as) a ++ decode (b :: bs) := by
      rw [startWith, startWith]
      split <;> rename_i hlead
      · rw [ih hafresh, List.cons_append]
      · rw [ih hafresh, List.cons_append]
      · exact ih (by simpa using Partial.wide_of_lead? hlead)
    cases p with
    | none => rw [List.cons_append, decodeFrom, hstart, decodeFrom]
    | some p =>
      rw [List.cons_append, decodeFrom, decodeFrom]
      by_cases ha : p.low ≤ a ∧ a ≤ p.high
      · rw [if_pos ha, if_pos ha]
        by_cases ho : p.owed ≤ 1
        · simp only [if_pos ho, ih hafresh, List.cons_append]
        · simp only [if_neg ho]
          exact ih (by simpa using (hp p rfl).next ha ho)
      · rw [if_neg ha, if_neg ha, hstart, List.cons_append]

theorem decode_append_ascii {b : UInt8} (hb : b < 0x80) (as bs : Bytes) :
    decode (as ++ b :: bs) = decode as ++ Char.ofNat b.toNat :: decode bs := by
  rw [decode, decodeFrom_append_ascii hb as bs (by simp), decode_ascii hb]
  rfl

/-! ### ASCII characters come from their own bytes -/

theorem Partial.Wide.last {p : Partial} {b : UInt8} (hp : p.Wide) (hb : p.low ≤ b ∧ b ≤ p.high)
    (ho : p.owed ≤ 1) : 0x80 ≤ p.bits * 64 + b.toNat % 64 := by
  obtain ⟨hl, hh, hw⟩ := hp
  simp only [UInt8.le_iff_toNat_le] at hb
  rw [Nat.sub_eq_zero_of_le ho, Nat.pow_zero] at hw
  omega

theorem ne_ofNat_of_beyond {c : Char} (hc : c.toNat < 0x80) (h0 : c.toNat ≠ 0) {n : Nat}
    (hn : 0x80 ≤ n) : c ≠ Char.ofNat n := by
  rintro rfl
  by_cases hv : n.isValidChar
  · rw [Char.toNat_ofNat, if_pos hv] at hc
    exact absurd hc (not_lt.mpr hn)
  · rw [Char.toNat_ofNat, if_neg hv] at h0
    exact h0 rfl

variable {c : Char} (hc : c.toNat < 0x80) (h0 : c.toNat ≠ 0)
include hc h0

theorem mem_decodeFrom_ascii {bs : Bytes} {p : Option Partial} (hp : ∀ q ∈ p, q.Wide)
    (h : c ∈ decodeFrom p bs) : UInt8.ofNat c.toNat ∈ bs := by
  induction bs generalizing p with
  | nil =>
    cases p with
    | none => simp [decodeFrom] at h
    | some p =>
      rw [decodeFrom, List.mem_singleton] at h
      subst h
      exact absurd hc (by decide)
  | cons a as ih =>
    have hafresh : ∀ q ∈ (none : Option Partial), q.Wide := by simp
    have hrep : c ≠ replacement := by
      rintro rfl
      exact absurd hc (by decide)
    have hstart : c ∈ startWith (fun p => decodeFrom p as) a → UInt8.ofNat c.toNat ∈ a :: as := by
      intro h
      rw [startWith] at h
      split at h <;> rename_i hlead
      · exact List.mem_cons_of_mem _ (ih hafresh ((List.mem_cons.mp h).resolve_left hrep))
      · rcases List.mem_cons.mp h with rfl | h
        · have ha : a.toNat.isValidChar := Or.inl (by have := a.toNat_lt; omega)
          rw [Char.toNat_ofNat, if_pos ha, UInt8.ofNat_toNat]
          exact List.mem_cons_self
        · exact List.mem_cons_of_mem _ (ih hafresh h)
      · exact List.mem_cons_of_mem _ (ih (by simpa using Partial.wide_of_lead? hlead) h)
    cases p with
    | none =>
      rw [decodeFrom] at h
      exact hstart h
    | some p =>
      have hw := hp p rfl
      rw [decodeFrom] at h
      split_ifs at h with ha ho
      · have hne := ne_ofNat_of_beyond hc h0 (hw.last ha ho)
        exact List.mem_cons_of_mem _ (ih hafresh ((List.mem_cons.mp h).resolve_left hne))
      · exact List.mem_cons_of_mem _ (ih (by simpa using hw.next ha ho) h)
      · exact hstart ((List.mem_cons.mp h).resolve_left hrep)

/-- An ASCII character is in a decoded text exactly if its byte is among the bytes. -/
theorem mem_decode_ascii {bs : Bytes} : c ∈ decode bs ↔ UInt8.ofNat c.toNat ∈ bs := by
  refine ⟨mem_decodeFrom_ascii hc h0 (by simp), fun h => ?_⟩
  obtain ⟨as, bs, rfl⟩ := List.append_of_mem h
  have hb : (UInt8.ofNat c.toNat).toNat = c.toNat := by
    rw [UInt8.toNat_ofNat']
    omega
  rw [decode_append_ascii (by rwa [UInt8.lt_iff_toNat_lt, hb]), hb, Char.ofNat_toNat]
  simp

theorem mem_encode_ascii {cs : List Char} : UInt8.ofNat c.toNat ∈ encode cs ↔ c ∈ cs := by
  rw [← mem_decode_ascii hc h0, decode_encode]

omit hc h0

theorem slash_mem_decode {bs : Bytes} : '/' ∈ decode bs ↔ slash ∈ bs :=
  mem_decode_ascii (by decide) (by decide)

theorem slash_mem_encode {cs : List Char} : slash ∈ encode cs ↔ '/' ∈ cs :=
  mem_encode_ascii (c := '/') (by decide) (by decide)

theorem decode_append_slash (as bs : Bytes) :
    decode (as ++ slash :: bs) = decode as ++ '/' :: decode bs :=
  decode_append_ascii (by decide) as bs

theorem encode_slash (cs : List Char) : encode ('/' :: cs) = slash :: encode cs := rfl

end ProposalReview.Text
