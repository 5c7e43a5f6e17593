import Mathlib
import RecordStore.Proofs.Numeric.Places
import RecordStore.Proofs.Text.Roomy

/-!
# Doubles in fixed point are rounded half up

The places of a double are found in double precision, by multiplying what is
left by ten over and over.  If what is left is a multiple of `2 ^ -50` to begin
with, it stays one below one, and ten times that is a double: no product is
rounded (`Coarse.tenfold_eq`).  So the places are those of the number itself, and
the last one of them is rounded half up (`Coarse.parts_eq`).  What is written is
the canonical text of the rounded number.
-/

namespace RecordStore.FixedPoint

open Binary Numeral

/-- A number of units as a number of ones. -/
def ones (units : Nat) : ℚ :=
  units / one

/-- A number rounded to so many decimal places, a half going up. -/
def halfUp (places : ℕ) (number : ℚ) : ℚ :=
  ⌊number * 10 ^ places + 1 / 2⌋ / 10 ^ places

/-- A number of units that is a multiple of `2 ^ -50`. -/
def Coarse (units : Nat) : Prop :=
  2 ^ (scale - 50) ∣ units

variable {units left : Nat}

/-! ## Units -/

theorem cast_one_ne_zero : (one : ℚ) ≠ 0 :=
  Nat.cast_ne_zero.mpr zero_lt_one_units.ne'

theorem ones_nonneg (units : Nat) : 0 ≤ ones units :=
  div_nonneg (Nat.cast_nonneg _) (Nat.cast_nonneg _)

theorem ones_lt_one (h : left < one) : ones left < 1 := by
  rw [ones, div_lt_one (Nat.cast_pos.mpr zero_lt_one_units)]
  exact_mod_cast h

theorem half_le_ones_iff : 1 / 2 ≤ ones left ↔ one ≤ 2 * left := by
  rw [ones, le_div_iff₀ (Nat.cast_pos.mpr zero_lt_one_units), div_mul_eq_mul_div, one_mul,
    div_le_iff₀ two_pos, mul_comm, ← Nat.cast_ofNat, ← Nat.cast_mul, Nat.cast_le]

/-- Units that make up a fraction of one. -/
theorem ones_mul_two_pow {m e : Nat} (he : e ≤ scale) :
    ones (m * 2 ^ (scale - e)) = m / 2 ^ e := by
  have hone : one = 2 ^ e * 2 ^ (scale - e) := by
    rw [one_eq, ← pow_add, Nat.add_sub_cancel' he]
  have hpow : ((2 ^ (scale - e) : ℕ) : ℚ) ≠ 0 := Nat.cast_ne_zero.mpr (Nat.two_pow_pos _).ne'
  rw [ones, hone, Nat.cast_mul, Nat.cast_mul, mul_div_mul_right _ _ hpow, Nat.cast_pow]
  rfl

theorem ones_mul_ten (units : Nat) : ones (units * 10) = ones units * 10 := by
  rw [ones, ones, Nat.cast_mul, mul_div_right_comm]
  rfl

/-- A whole number and less than one more. -/
theorem ones_eq_add (units : Nat) : ones units = (units / one : ℕ) + ones (units % one) := by
  unfold ones
  rw [add_div_eq_mul_add_div _ _ cast_one_ne_zero, ← Nat.cast_mul, ← Nat.cast_add,
    Nat.div_add_mod']

/-! ## Exact products -/

theorem coarse_one : Coarse one :=
  two_pow_dvd_one (Nat.sub_le scale 50)

theorem Coarse.mod_one (h : Coarse units) : Coarse (units % one) :=
  (Nat.dvd_mod_iff coarse_one).mpr h

theorem Coarse.below (h : Coarse left) (hlt : left < one) : Below left :=
  below_of_dvd (Nat.sub_le_sub_left (by decide) scale) (Nat.sub_le scale 50) h hlt

/-- **No product is rounded**: ten times a multiple of `2 ^ -50` below one has no
more than 53 significant bits. -/
theorem Coarse.tenfold_eq (h : Coarse left) (hlt : left < one) : tenfold left = left * 10 := by
  have hlog := log2_mul_ten_lt (one_eq ▸ hlt)
  have hspacing : double.spacing (left * 10) 1 ≤ scale - 50 + 1 := by
    rw [spacing_mul_ten]
    unfold scale at hlog ⊢
    omega
  apply Format.round_eq_self
  calc Nat.pow 2 (double.spacing (left * 10) 1)
      ∣ 2 ^ (scale - 50 + 1) := pow_dvd_pow 2 hspacing
    _ = 2 ^ (scale - 50) * 2 := pow_succ 2 (scale - 50)
    _ ∣ left * 10 := mul_dvd_mul h (by decide)

/-! ## Rounding -/

/-- A whole number and less than one more are rounded to one of two numbers. -/
theorem halfUp_zero {whole : ℕ} {excess : ℚ} (hnonneg : 0 ≤ excess) (hlt : excess < 1) :
    halfUp 0 (whole + excess) = whole + if 1 / 2 ≤ excess then 1 else 0 := by
  have hfloor : ⌊excess + 1 / 2⌋ = if 1 / 2 ≤ excess then 1 else 0 := by
    rw [Int.floor_eq_iff]
    split <;> constructor <;> push_cast <;> linarith
  rw [halfUp, pow_zero, mul_one, div_one, add_assoc, Int.floor_natCast_add, hfloor]
  push_cast
  rfl

/-- One place more is one place less of ten times the number. -/
theorem halfUp_succ (places : ℕ) (number : ℚ) :
    halfUp (places + 1) number = halfUp places (number * 10) / 10 := by
  rw [halfUp, halfUp, pow_succ', ← mul_assoc, mul_comm 10, ← div_div]

/-- **Places are rounded half up.** -/
theorem Coarse.parts_eq (h : Coarse left) (hlt : left < one) (whole count : Nat) :
    (parts whole left count : ℚ) / 10 ^ count = halfUp count (whole + ones left) := by
  induction count generalizing whole left with
  | zero =>
      rw [halfUp_zero (ones_nonneg left) (ones_lt_one hlt), parts, pow_zero, div_one]
      simp only [half_le_ones_iff]
      split <;> simp
  | succ count ih =>
      have hnext : (whole + ones left) * 10 =
          (whole * 10 + left * 10 / one : ℕ) + ones (left * 10 % one) := by
        rw [add_mul, ← ones_mul_ten, ones_eq_add (left * 10)]
        push_cast
        ring
      have hcoarse : Coarse (left * 10 % one) := Coarse.mod_one (h.mul_right 10)
      rw [parts, h.tenfold_eq hlt, halfUp_succ, hnext,
        ← ih hcoarse (Nat.mod_lt _ zero_lt_one_units), pow_succ, div_div]

/-- **What is written is the canonical text of the rounded number.** -/
theorem Coarse.spells (h : Coarse units) (count : Nat) (negative : Bool) :
    Spells (Piece.textOf (finitePieces count negative units))
      (withSign negative (halfUp count (ones units))) := by
  have hlt := Nat.mod_lt units zero_lt_one_units
  refine ⟨numeral count negative units, canonical_ofParts _ _ _, ?_,
    (textOf_finitePieces (h.mod_one.below hlt) count negative).symm⟩
  rw [numeral, value_ofParts, h.mod_one.parts_eq hlt, ← ones_eq_add]

/-! ## Doubles -/

/-- **A double of magnitude four or more** is coarse. -/
theorem coarse_of_four_le {bits : Nat} {negative : Bool}
    (h : double.ofBits bits = .finite negative units) (hfour : 4 ≤ ones units) : Coarse units := by
  obtain ⟨m, e, hm, rfl⟩ := exists_significand h
  have hle : 2 ^ (scale + 2) ≤ m * 2 ^ e := by
    rw [ones, le_div_iff₀ (Nat.cast_pos.mpr zero_lt_one_units)] at hfour
    rw [pow_add, ← one_eq, mul_comm, ← Nat.cast_le (α := ℚ), Nat.cast_mul]
    exact hfour
  have hlt : m * 2 ^ e < 2 ^ (53 + e) := by
    rw [pow_add]
    exact Nat.mul_lt_mul_of_pos_right hm (Nat.two_pow_pos e)
  have hexponent := (Nat.pow_lt_pow_iff_right (by decide)).mp (hle.trans_lt hlt)
  exact (pow_dvd_pow 2 (by omega)).mul_left m

/-- So is a multiple of `2 ^ -50`. -/
theorem coarse_of_eq_div {k : ℕ} (h : ones units = k / 2 ^ 50) : Coarse units := by
  have hcross : units * 2 ^ 50 = k * one := by
    rw [ones, div_eq_div_iff cast_one_ne_zero (by norm_num)] at h
    rw [← Nat.cast_inj (R := ℚ), Nat.cast_mul, Nat.cast_mul, Nat.cast_pow]
    exact h
  rw [one_eq, ← Nat.pow_sub_mul_pow 2 (show 50 ≤ scale by decide), ← mul_assoc] at hcross
  exact ⟨k, by rw [Nat.eq_of_mul_eq_mul_right (Nat.two_pow_pos 50) hcross, mul_comm]⟩

/-- **Doubles are written exactly.**  A finite double that is a multiple of
`2 ^ -50`, such as one of magnitude four or more, is written with at most 15
decimal places.  The text, of which there is no other, is the canonical one of
the number itself, rounded half up to so many places and with its sign; a
builder that has room for it appends just this text. -/
theorem pieces_spell_rounded {bits places : Nat} {negative : Bool}
    (hbits : double.ofBits bits = .finite negative units)
    (hcoarse : (∃ k : ℕ, ones units = k / 2 ^ 50) ∨ 4 ≤ ones units) :
    (∀ text, Spells text (withSign negative (halfUp (min places 15) (ones units))) ↔
      text = Piece.textOf (pieces (double.ofBits bits) places)) ∧
    ∀ b : Builder,
      b.length + (Piece.textOf (pieces (double.ofBits bits) places)).length < b.buffer.size →
        (b.addAll (pieces (double.ofBits bits) places)).text =
          b.text ++ Piece.textOf (pieces (double.ofBits bits) places) := by
  have hunits : Coarse units := by
    rcases hcoarse with ⟨k, hk⟩ | hfour
    · exact coarse_of_eq_div hk
    · exact coarse_of_four_le hbits hfour
  have hspells := hunits.spells (min places 15) negative
  rw [hbits]
  refine ⟨?_, fun b hroom => (Builder.addAll_of_fits hroom).1⟩
  intro text
  constructor
  · intro htext
    exact htext.text_eq hspells
  · rintro rfl
    exact hspells

/-- To two places, the nine of 12.296875 carries, and to one place that of
9.96875 carries into the whole part.  Of the 17 places of -3 / 2 ^ 17 no more
than 15 are written, whatever is asked for. -/
theorem pieces_spell_rounded_carry :
    (∃ units, double.ofBits 4623112143263236096 = .finite false units ∧ ones units = 787 / 64 ∧
      Spells (Piece.word "12.3").text (withSign false (halfUp 2 (787 / 64))) ∧
      Piece.textOf (pieces (.finite false units) 2) = (Piece.word "12.3").text) ∧
    (∃ units, double.ofBits 4621801525402927104 = .finite false units ∧ ones units = 319 / 32 ∧
      Spells (Piece.word "10").text (withSign false (halfUp 1 (319 / 32))) ∧
      Piece.textOf (pieces (.finite false units) 1) = (Piece.word "10").text) ∧
    ∃ units, double.ofBits 13760748661430550528 = .finite true units ∧ ones units = 3 / 2 ^ 17 ∧
      Spells (Piece.word "-0.000022888183594").text (withSign true (halfUp 15 (3 / 2 ^ 17))) ∧
      Piece.textOf (pieces (.finite true units) 20) =
        (Piece.word "-0.000022888183594").text := by
  refine ⟨⟨787 * 2 ^ (scale - 6), ?_⟩, ⟨319 * 2 ^ (scale - 5), ?_⟩, ⟨3 * 2 ^ (scale - 17), ?_⟩⟩
  · have hbits : double.ofBits 4623112143263236096 = .finite false (787 * 2 ^ (scale - 6)) := by
      decide +kernel
    have hones : ones (787 * 2 ^ (scale - 6)) = 787 / 64 := by
      rw [ones_mul_two_pow (by decide)]
      norm_num
    obtain ⟨hspells, -⟩ := @pieces_spell_rounded _ _ 2 _ hbits (.inr (by rw [hones]; norm_num))
    rw [hones, hbits] at hspells
    exact ⟨hbits, hones, (hspells _).mpr (by decide +kernel), by decide +kernel⟩
  · have hbits : double.ofBits 4621801525402927104 = .finite false (319 * 2 ^ (scale - 5)) := by
      decide +kernel
    have hones : ones (319 * 2 ^ (scale - 5)) = 319 / 32 := by
      rw [ones_mul_two_pow (by decide)]
      norm_num
    obtain ⟨hspells, -⟩ := @pieces_spell_rounded _ _ 1 _ hbits (.inr (by rw [hones]; norm_num))
    rw [hones, hbits] at hspells
    exact ⟨hbits, hones, (hspells _).mpr (by decide +kernel), by decide +kernel⟩
  · have hbits : double.ofBits 13760748661430550528 = .finite true (3 * 2 ^ (scale - 17)) := by
      decide +kernel
    have hones : ones (3 * 2 ^ (scale - 17)) = 3 / 2 ^ 17 := ones_mul_two_pow (by decide)
    have hfine : ones (3 * 2 ^ (scale - 17)) = (3 * 2 ^ 33 : ℕ) / 2 ^ 50 := by
      rw [hones]
      norm_num
    obtain ⟨hspells, -⟩ := @pieces_spell_rounded _ _ 20 _ hbits (.inl ⟨_, hfine⟩)
    rw [hones, hbits] at hspells
    exact ⟨hbits, hones, (hspells _).mpr (by decide +kernel), by decide +kernel⟩

end RecordStore.FixedPoint
