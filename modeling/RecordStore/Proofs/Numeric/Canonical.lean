import Mathlib
import RecordStore.Proofs.Numeric.Decimal

/-!
# The canonical text of an integer

`Decimal.Canonical` says which text an integer has: `0`, or digits of which the
first is not zero, after a minus if the integer is below zero.  There is one
for every integer, the one that is written (`Decimal.canonical_iff`), and a
text is canonical for one integer at most.

Read as a whole, in any range that the integer is in, the text is the integer
again (`Literal.integer_characters`): on the way there the number only grows
away from zero, so it never leaves the range before the end.
-/

namespace RecordStore

namespace Decimal

/-- The text of an integer with nothing in it that can be left out. -/
inductive Canonical : List Char → Int → Prop
  | zero : Canonical ['0'] 0
  | positive {first : Char} {rest : List Char} (hfirst : first.isDigit = true)
      (hne : first ≠ '0') (hrest : ∀ c ∈ rest, c.isDigit = true) :
      Canonical (first :: rest) (Nat.ofDigitChars 10 (first :: rest) 0)
  | negative {first : Char} {rest : List Char} (hfirst : first.isDigit = true)
      (hne : first ≠ '0') (hrest : ∀ c ∈ rest, c.isDigit = true) :
      Canonical ('-' :: first :: rest) (-(Nat.ofDigitChars 10 (first :: rest) 0 : Int))

variable {text : List Char} {value : Int}

theorem digitChar_of_isDigit {c : Char} (h : c.isDigit = true) :
    Nat.digitChar (c.toNat - '0'.toNat) = c := by
  obtain ⟨hlow, hhigh⟩ := toNat_of_isDigit h
  have hzero : '0'.toNat = 48 := rfl
  apply Char.toNat_inj.mp
  rw [Nat.toNat_digitChar_of_lt_ten (by omega)]
  omega

/-- Digits read after a number are written after it. -/
theorem toDigits_ofDigitChars {digits : List Char} (hdigits : ∀ c ∈ digits, c.isDigit = true)
    {n : Nat} (hn : 0 < n) :
    Nat.toDigits 10 (Nat.ofDigitChars 10 digits n) = Nat.toDigits 10 n ++ digits := by
  induction digits generalizing n with
  | nil => rw [Nat.ofDigitChars_nil, List.append_nil]
  | cons c rest ih =>
      rw [List.forall_mem_cons] at hdigits
      obtain ⟨hc, hrest⟩ := hdigits
      have hdigit : c.toNat - '0'.toNat < 10 := by
        have hrange := toNat_of_isDigit hc
        have hzero : '0'.toNat = 48 := rfl
        omega
      rw [Nat.ofDigitChars_cons, ih hrest (by omega),
        ← Nat.toDigits_append_toDigits (by decide) hn hdigit, Nat.toDigits_of_lt_base hdigit,
        digitChar_of_isDigit hc, List.append_assoc, List.singleton_append]

/-- **Digits are found again** in the number they denote, if the first is not
zero. -/
theorem toDigits_ofDigitChars_cons {first : Char} {rest : List Char}
    (hfirst : first.isDigit = true) (hne : first ≠ '0') (hrest : ∀ c ∈ rest, c.isDigit = true) :
    0 < Nat.ofDigitChars 10 (first :: rest) 0 ∧
      Nat.toDigits 10 (Nat.ofDigitChars 10 (first :: rest) 0) = first :: rest := by
  obtain ⟨hlow, hhigh⟩ := toNat_of_isDigit hfirst
  have hzero : '0'.toNat = 48 := rfl
  have hpos : 0 < first.toNat - '0'.toNat := by
    have hother : first.toNat ≠ '0'.toNat := fun h => hne (Char.toNat_inj.mp h)
    omega
  have hdigits : Nat.toDigits 10 (Nat.ofDigitChars 10 (first :: rest) 0) = first :: rest := by
    rw [Nat.ofDigitChars_cons, Nat.mul_zero, Nat.zero_add, toDigits_ofDigitChars hrest hpos,
      Nat.toDigits_of_lt_base (by omega), digitChar_of_isDigit hfirst, List.singleton_append]
  refine ⟨Nat.pos_of_ne_zero ?_, hdigits⟩
  intro hnone
  rw [hnone, Nat.toDigits_zero] at hdigits
  exact hne (List.cons.inj hdigits).1.symm

/-- The digits of a number that is not zero do not begin with one. -/
theorem exists_toDigits_cons_of_pos {n : Nat} (hn : 0 < n) : ∃ first rest,
    Nat.toDigits 10 n = first :: rest ∧ first.isDigit = true ∧ first ≠ '0' ∧
      ∀ c ∈ rest, c.isDigit = true := by
  obtain ⟨first, rest, hdigits, hfirst⟩ := exists_toDigits_cons n
  refine ⟨first, rest, hdigits, hfirst, ?_, ?_⟩
  · rintro rfl
    have hhead := digits_head_ne_zero hn.ne'
    have hmap := map_digitChar_digits n
    rw [hdigits] at hmap
    obtain ⟨d, tail, hcons, hd, -⟩ := List.map_eq_cons_iff.mp hmap
    have hlt : d < 10 := lt_ten_of_mem_digits (n := n) (by rw [hcons]; exact List.mem_cons_self)
    have hvalue := Nat.toNat_digitChar_of_lt_ten hlt
    rw [hd] at hvalue
    have hzero : '0'.toNat = 48 := rfl
    rw [hcons, List.head?_cons] at hhead
    exact hhead (congrArg some (by omega))
  · intro c hc
    apply isDigit_of_mem_toDigits (n := n)
    rw [hdigits]
    exact List.mem_cons_of_mem _ hc

/-- What is written for an integer is canonical. -/
theorem canonical_characters (value : Int) : Canonical (characters value) value := by
  unfold characters
  by_cases hzero : value = 0
  · subst hzero
    exact .zero
  · obtain ⟨first, rest, hdigits, hfirst, hne, hrest⟩ :=
      exists_toDigits_cons_of_pos (Int.natAbs_pos.mpr hzero)
    have hmagnitude : Nat.ofDigitChars 10 (first :: rest) 0 = value.natAbs := by
      rw [← hdigits, Nat.ofDigitChars_ten_toDigits]
    by_cases hneg : value < 0
    · have hvalue : -(Nat.ofDigitChars 10 (first :: rest) 0 : Int) = value := by omega
      rw [if_pos hneg, hdigits]
      exact hvalue ▸ .negative hfirst hne hrest
    · have hvalue : (Nat.ofDigitChars 10 (first :: rest) 0 : Int) = value := by omega
      rw [if_neg hneg, hdigits]
      exact hvalue ▸ .positive hfirst hne hrest

/-- **An integer has one canonical text**, and that is what is written. -/
theorem canonical_iff : Canonical text value ↔ text = characters value := by
  constructor
  · rintro (_ | ⟨hfirst, hne, hrest⟩ | ⟨hfirst, hne, hrest⟩)
    · rfl
    · obtain ⟨-, hdigits⟩ := toDigits_ofDigitChars_cons hfirst hne hrest
      rw [characters, if_neg (Int.not_lt.mpr (Int.natCast_nonneg _)), Int.natAbs_natCast, hdigits]
      rfl
    · obtain ⟨hpos, hdigits⟩ := toDigits_ofDigitChars_cons hfirst hne hrest
      rw [characters, if_pos (by omega), Int.natAbs_neg, Int.natAbs_natCast, hdigits]
      rfl
  · rintro rfl
    exact canonical_characters value

end Decimal

/-! ## Reading -/

namespace Literal

/-- An integer of a magnitude, below zero or not. -/
def ofMagnitude (negative : Bool) (n : Nat) : Int :=
  if negative then -n else n

variable {range : Range} {negative : Bool} {n m : Nat}

theorem contains_iff {value : Int} :
    range.contains value = true ↔ range.low ≤ value ∧ value ≤ range.high := by
  rw [Range.contains, Bool.and_eq_true, decide_eq_true_iff, decide_eq_true_iff]

/-- A range that holds zero and an integer holds what is between them. -/
theorem contains_ofMagnitude_of_le (hzero : range.contains 0 = true) (hnm : n ≤ m)
    (h : range.contains (ofMagnitude negative m) = true) :
    range.contains (ofMagnitude negative n) = true := by
  rw [contains_iff] at hzero h ⊢
  unfold ofMagnitude at h ⊢
  by_cases hsign : negative
  · rw [if_pos hsign] at h ⊢
    constructor <;> omega
  · rw [if_neg hsign] at h ⊢
    constructor <;> omega

/-- One more digit is that many more, away from zero. -/
theorem ofMagnitude_step (negative : Bool) (n d : Nat) :
    (if negative then ofMagnitude negative n * 10 - d else ofMagnitude negative n * 10 + d) =
      ofMagnitude negative (10 * n + d) := by
  cases negative with
  | false =>
      show (n : Int) * 10 + d = ((10 * n + d : Nat) : Int)
      omega
  | true =>
      show -(n : Int) * 10 - d = -((10 * n + d : Nat) : Int)
      omega

theorem le_ofDigitChars (digits : List Char) (n : Nat) : n ≤ Nat.ofDigitChars 10 digits n := by
  rw [Nat.ofDigitChars_eq_ofDigitChars_zero]
  have hpow : 1 * n ≤ 10 ^ digits.length * n :=
    Nat.mul_le_mul_right n (Nat.one_le_pow _ _ (by decide))
  omega

/-- **Digits are read in full** if the range holds what they come to. -/
theorem digitsFrom_ofMagnitude {digits : List Char} (hdigits : ∀ c ∈ digits, c.isDigit = true)
    (hzero : range.contains 0 = true)
    (h : range.contains (ofMagnitude negative (Nat.ofDigitChars 10 digits n)) = true) :
    digitsFrom range negative (ofMagnitude negative n) digits =
      .ok (ofMagnitude negative (Nat.ofDigitChars 10 digits n)) := by
  induction digits generalizing n with
  | nil => rfl
  | cons c rest ih =>
      have hcode : '0'.toNat = 48 := rfl
      rw [List.forall_mem_cons] at hdigits
      rw [Nat.ofDigitChars_cons, hcode] at h ⊢
      have hnext := contains_iff.mp (contains_ofMagnitude_of_le hzero (le_ofDigitChars rest _) h)
      rw [digitsFrom, digit?, if_pos hdigits.1]
      simp only [ofMagnitude_step]
      rw [if_neg (Int.not_lt.mpr hnext.1), if_neg (Int.not_lt.mpr hnext.2)]
      exact ih hdigits.2 h

/-- **An integer is read back** from its text, in any range that it is in. -/
theorem integer_characters {value : Int} (hzero : range.contains 0 = true)
    (h : range.contains value = true) : integer range (Decimal.characters value) = .ok value := by
  have hdigits : ∀ negative, ofMagnitude negative value.natAbs = value →
      digitsFrom range negative 0 (Nat.toDigits 10 value.natAbs) = .ok value := by
    intro negative hvalue
    have hsame : ofMagnitude negative
        (Nat.ofDigitChars 10 (Nat.toDigits 10 value.natAbs) 0) = value := by
      rw [Nat.ofDigitChars_ten_toDigits, hvalue]
    have hnothing : ofMagnitude negative 0 = 0 := by cases negative <;> rfl
    rw [← hnothing]
    conv => rhs; rw [← hsame]
    exact digitsFrom_ofMagnitude Decimal.isDigit_of_mem_toDigits hzero (hsame.symm ▸ h)
  obtain ⟨c, rest, hcons, hc⟩ := Decimal.exists_toDigits_cons value.natAbs
  rw [contains_iff] at h
  unfold Decimal.characters
  by_cases hneg : value < 0
  · have hvalue : ofMagnitude true value.natAbs = value := by
      show -(value.natAbs : Int) = value
      omega
    have hread := hdigits true hvalue
    rw [hcons] at hread
    rw [if_pos hneg, hcons]
    show (if range.low < 0 then digitsFrom range true 0 (c :: rest) else _) = _
    rw [if_pos (h.1.trans_lt hneg), hread]
  · have hvalue : ofMagnitude false value.natAbs = value := by
      show (value.natAbs : Int) = value
      omega
    have hread := hdigits false hvalue
    rw [hcons] at hread
    rw [if_neg hneg, hcons, List.nil_append]
    unfold integer
    split <;> simp_all

end Literal

end RecordStore
