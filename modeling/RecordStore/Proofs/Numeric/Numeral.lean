import Mathlib
import RecordStore.Bytes

/-!
# Decimal numerals

A numeral is a sign, a whole number, and the digits after the point.  Numbers
with finitely many decimal places have one numeral that is canonical: no zeros
end it, and zero has no sign (`Numeral.Canonical.eq_of_value_eq`).  So there is
at most one text that spells a number (`Spells.text_eq`).  `Numeral.ofParts` is
the one of a number of parts of a power of ten.
-/

namespace RecordStore

/-- A number in decimal. -/
structure Numeral where
  /-- Is there a minus before it? -/
  negative : Bool
  whole : Nat
  /-- The digits after the point, the first one first. -/
  decimals : List Nat
  deriving DecidableEq, Repr

namespace Numeral

/-- What digits after a point denote. -/
def fraction : List Nat → ℚ
  | [] => 0
  | d :: rest => (d + fraction rest) / 10

/-- What a numeral denotes without its sign. -/
def magnitude (n : Numeral) : ℚ :=
  n.whole + fraction n.decimals

/-- A number of a magnitude, below zero or not. -/
def withSign (negative : Bool) (magnitude : ℚ) : ℚ :=
  if negative then -magnitude else magnitude

/-- What a numeral denotes. -/
def value (n : Numeral) : ℚ :=
  withSign n.negative n.magnitude

/-- The characters of a numeral; there is a point if there are digits after
it. -/
def characters (n : Numeral) : List Char :=
  (if n.negative then ['-'] else []) ++ Nat.toDigits 10 n.whole ++
    (if n.decimals = [] then [] else '.' :: n.decimals.map Nat.digitChar)

/-- The text of a numeral, in ASCII. -/
def text (n : Numeral) : Bytes :=
  n.characters.map fun c => UInt8.ofNat c.toNat

/-- The last `count` decimal digits of a number. -/
def lastDigits : (count n : Nat) → List Nat
  | 0, _ => []
  | count + 1, n => lastDigits count (n / 10) ++ [n % 10]

/-- So many parts of `10 ^ -count`, with at most `count` decimal digits: zeros
at the end are left out, and zero has no sign. -/
def ofParts (negative : Bool) (count parts : Nat) : Numeral :=
  ⟨negative && parts != 0, parts / 10 ^ count, (lastDigits count parts).rdropWhile (· = 0)⟩

/-- A numeral without anything that it does not need. -/
structure Canonical (n : Numeral) : Prop where
  digit : ∀ d ∈ n.decimals, d < 10
  trimmed : n.decimals.getLast? ≠ some 0
  signed : n.negative → n.value ≠ 0

end Numeral

/-- A text is that of the canonical numeral of a number. -/
def Spells (text : Bytes) (number : ℚ) : Prop :=
  ∃ n : Numeral, n.Canonical ∧ n.value = number ∧ n.text = text

namespace Numeral

variable {digits other : List Nat} {n m : Numeral}

/-! ## Digits after a point -/

theorem fraction_nonneg (digits : List Nat) : 0 ≤ fraction digits := by
  induction digits with
  | nil => exact le_rfl
  | cons d rest ih =>
      unfold fraction
      positivity

theorem fraction_lt_one (hdigit : ∀ d ∈ digits, d < 10) : fraction digits < 1 := by
  induction digits with
  | nil => exact one_pos
  | cons d rest ih =>
      rw [List.forall_mem_cons] at hdigit
      have hd : (d : ℚ) ≤ 9 := by exact_mod_cast Nat.le_of_lt_succ hdigit.1
      have hrest := ih hdigit.2
      rw [fraction, div_lt_one (by norm_num)]
      linarith

theorem fraction_append_singleton (digits : List Nat) (last : Nat) :
    fraction (digits ++ [last]) = fraction digits + last / 10 ^ (digits.length + 1) := by
  induction digits with
  | nil => simp [fraction]
  | cons d rest ih =>
      rw [List.cons_append, fraction, ih, fraction, List.length_cons, pow_succ _ (_ + 1)]
      ring

/-- Zeros at the end denote nothing. -/
theorem fraction_rdropWhile (digits : List Nat) :
    fraction (digits.rdropWhile (· = 0)) = fraction digits := by
  induction digits using List.reverseRecOn with
  | nil => rfl
  | append_singleton front last ih =>
      rw [List.rdropWhile_concat]
      split
      · next hzero =>
          rw [ih, fraction_append_singleton, of_decide_eq_true hzero, Nat.cast_zero, zero_div,
            add_zero]
      · rfl

theorem getLast?_rdropWhile (digits : List Nat) :
    (digits.rdropWhile (· = 0)).getLast? ≠ some 0 := by
  intro hlast
  obtain ⟨front, hfront⟩ := List.getLast?_eq_some_iff.mp hlast
  have hne : digits.rdropWhile (· = 0) ≠ [] := by
    rw [hfront]
    simp
  have hnot := List.rdropWhile_last_not _ _ hne
  simp only [hfront, List.getLast_append_singleton] at hnot
  exact hnot rfl

theorem mem_of_mem_rdropWhile {d : Nat} (h : d ∈ digits.rdropWhile (· = 0)) : d ∈ digits :=
  (List.rdropWhile_prefix ..).subset h

/-- Digits that denote zero are zeros. -/
theorem eq_zero_of_fraction_eq_zero (h : fraction digits = 0) : ∀ d ∈ digits, d = 0 := by
  induction digits with
  | nil => simp
  | cons d rest ih =>
      have hrest := fraction_nonneg rest
      have hd : (0 : ℚ) ≤ d := Nat.cast_nonneg d
      rw [fraction, div_eq_zero_iff, or_iff_left (by norm_num)] at h
      rw [List.forall_mem_cons]
      exact ⟨by exact_mod_cast (by linarith : (d : ℚ) = 0), ih (by linarith)⟩

theorem eq_nil_of_fraction_eq_zero (htrimmed : digits.getLast? ≠ some 0)
    (h : fraction digits = 0) : digits = [] := by
  rcases List.eq_nil_or_concat digits with hnil | ⟨front, last, rfl⟩
  · exact hnil
  · have hlast : last = 0 := eq_zero_of_fraction_eq_zero h last (by simp)
    simp [hlast] at htrimmed

/-- A whole number and less than one more are found again in their sum. -/
theorem eq_of_add_eq_add {a b : ℕ} {x y : ℚ} (hx : 0 ≤ x) (hx1 : x < 1) (hy : 0 ≤ y) (hy1 : y < 1)
    (h : a + x = b + y) : a = b ∧ x = y := by
  have hab : a = b := by
    have ha : ⌊(a : ℚ) + x⌋₊ = a := by
      rw [Nat.floor_eq_iff (by positivity)]
      constructor <;> linarith
    have hb : ⌊(b : ℚ) + y⌋₊ = b := by
      rw [Nat.floor_eq_iff (by positivity)]
      constructor <;> linarith
    rw [← ha, h, hb]
  refine ⟨hab, ?_⟩
  rw [hab] at h
  exact add_left_cancel h

/-- **Digits are found again** in what they denote, if no zeros end them. -/
theorem eq_of_fraction_eq (hdigit : ∀ d ∈ digits, d < 10) (htrimmed : digits.getLast? ≠ some 0)
    (hdigit' : ∀ d ∈ other, d < 10) (htrimmed' : other.getLast? ≠ some 0)
    (h : fraction digits = fraction other) : digits = other := by
  induction digits generalizing other with
  | nil => exact (eq_nil_of_fraction_eq_zero htrimmed' h.symm).symm
  | cons d rest ih =>
      cases other with
      | nil => exact eq_nil_of_fraction_eq_zero htrimmed h
      | cons e tail =>
          rw [List.forall_mem_cons] at hdigit hdigit'
          have hsum : (d : ℚ) + fraction rest = e + fraction tail :=
            (div_left_inj' (by norm_num)).mp h
          obtain ⟨rfl, hsame⟩ := eq_of_add_eq_add (fraction_nonneg rest)
            (fraction_lt_one hdigit.2) (fraction_nonneg tail) (fraction_lt_one hdigit'.2) hsum
          have htail : ∀ {l : List Nat}, (d :: l).getLast? ≠ some 0 → l.getLast? ≠ some 0 := by
            intro l hl hzero
            rw [List.getLast?_cons, hzero] at hl
            exact hl rfl
          rw [ih hdigit.2 (htail htrimmed) hdigit'.2 (htail htrimmed') hsame]

/-! ## Digits of a number -/

@[simp] theorem length_lastDigits (count n : Nat) : (lastDigits count n).length = count := by
  induction count generalizing n with
  | zero => rfl
  | succ count ih => rw [lastDigits, List.length_append, ih, List.length_singleton]

theorem lt_ten_of_mem_lastDigits {count number d : Nat} (h : d ∈ lastDigits count number) :
    d < 10 := by
  induction count generalizing number with
  | zero => cases h
  | succ count ih =>
      rcases List.mem_append.mp h with hfront | hlast
      · exact ih hfront
      · rw [List.mem_singleton.mp hlast]
        exact Nat.mod_lt _ (by decide)

/-- Its last digits denote what is more than whole in a number of parts. -/
theorem fraction_lastDigits (count number : Nat) :
    fraction (lastDigits count number) = (number % 10 ^ count : ℕ) / 10 ^ count := by
  induction count generalizing number with
  | zero => simp [lastDigits, fraction, Nat.mod_one]
  | succ count ih =>
      have hsplit : number % 10 ^ (count + 1) = number % 10 + 10 * (number / 10 % 10 ^ count) := by
        rw [pow_succ', Nat.mod_mul]
      have hpow : (10 : ℚ) ^ count ≠ 0 := pow_ne_zero _ (by norm_num)
      rw [lastDigits, fraction_append_singleton, length_lastDigits, ih, hsplit, pow_succ']
      push_cast
      field_simp
      ring

/-! ## Canonical numerals -/

theorem magnitude_nonneg (n : Numeral) : 0 ≤ n.magnitude :=
  add_nonneg (Nat.cast_nonneg _) (fraction_nonneg _)

/-- A canonical numeral has a minus if it denotes less than zero. -/
theorem Canonical.negative_iff (h : n.Canonical) : n.negative ↔ n.value < 0 := by
  have hmagnitude := n.magnitude_nonneg
  constructor
  · intro hnegative
    refine lt_of_le_of_ne ?_ (h.signed hnegative)
    rw [value, withSign, if_pos hnegative]
    linarith
  · intro hvalue
    by_contra hnegative
    rw [value, withSign, if_neg hnegative] at hvalue
    linarith

/-- **A number has one canonical numeral.** -/
theorem Canonical.eq_of_value_eq (hn : n.Canonical) (hm : m.Canonical) (h : n.value = m.value) :
    n = m := by
  have hnegative : n.negative = m.negative := by
    rw [Bool.eq_iff_iff, hn.negative_iff, hm.negative_iff, h]
  have hmagnitude : n.magnitude = m.magnitude := by
    unfold value withSign at h
    rw [hnegative] at h
    split at h
    · exact neg_inj.mp h
    · exact h
  obtain ⟨hwhole, hfraction⟩ := eq_of_add_eq_add (fraction_nonneg n.decimals)
    (fraction_lt_one hn.digit) (fraction_nonneg m.decimals) (fraction_lt_one hm.digit) hmagnitude
  have hdecimals := eq_of_fraction_eq hn.digit hn.trimmed hm.digit hm.trimmed hfraction
  cases n
  cases m
  simp_all

theorem magnitude_ofParts (negative : Bool) (count parts : Nat) :
    (ofParts negative count parts).magnitude = parts / 10 ^ count := by
  have hpow : (10 : ℚ) ^ count ≠ 0 := pow_ne_zero _ (by norm_num)
  have hsplit : (parts : ℚ) = (parts / 10 ^ count : ℕ) * 10 ^ count + (parts % 10 ^ count : ℕ) := by
    exact_mod_cast (Nat.div_add_mod' parts (10 ^ count)).symm
  rw [magnitude, ofParts, fraction_rdropWhile, fraction_lastDigits, eq_div_iff hpow, add_mul,
    div_mul_cancel₀ _ hpow]
  exact hsplit.symm

/-- **So many parts are what `ofParts` denotes.** -/
theorem value_ofParts (negative : Bool) (count parts : Nat) :
    (ofParts negative count parts).value = withSign negative (parts / 10 ^ count) := by
  rw [value, magnitude_ofParts]
  show withSign (negative && parts != 0) _ = _
  by_cases hzero : parts = 0
  · simp [hzero, withSign]
  · rw [bne_iff_ne.mpr hzero, Bool.and_true]

theorem canonical_ofParts (negative : Bool) (count parts : Nat) :
    (ofParts negative count parts).Canonical where
  digit := fun _ hd => lt_ten_of_mem_lastDigits (mem_of_mem_rdropWhile hd)
  trimmed := getLast?_rdropWhile _
  signed := by
    intro hnegative
    obtain ⟨hsign, hparts⟩ := Bool.and_eq_true_iff.mp hnegative
    rw [value_ofParts, hsign]
    exact neg_ne_zero.mpr (div_ne_zero (Nat.cast_ne_zero.mpr (bne_iff_ne.mp hparts))
      (pow_ne_zero _ (by norm_num)))

end Numeral

/-- **A number has one spelling.** -/
theorem Spells.text_eq {text other : Bytes} {number : ℚ} (h : Spells text number)
    (h' : Spells other number) : text = other := by
  obtain ⟨n, hn, hvalue, rfl⟩ := h
  obtain ⟨m, hm, hvalue', rfl⟩ := h'
  rw [hn.eq_of_value_eq hm (hvalue.trans hvalue'.symm)]

end RecordStore
