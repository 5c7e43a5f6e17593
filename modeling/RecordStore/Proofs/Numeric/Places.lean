import Mathlib
import RecordStore.Numeric.FixedPoint
import RecordStore.Proofs.Numeric.Decimal
import RecordStore.Proofs.Numeric.Numeral

/-!
# The decimal places of doubles

What a double is in decimal is told without digits (`parts`): as long as places
are asked for, what is left of it beyond the whole is multiplied by ten in double
precision, and the whole part of the product is one place more; in the end a half
of the last place goes up.  The count of the last places has its canonical
numeral (`numeral`).

What is written is found digit by digit, and the rounding is a carry through the
digits.  That comes to the same (`textOf_finitePieces`), since no digit is ten: a
double is at least `2 ^ -53` below the next whole number, and ten times that is
more than the product can gain by rounding (`Below.tenfold_lt`).
-/

namespace RecordStore.FixedPoint

open Binary Numeral

/-! ## What is written -/

/-- Ten times a number of units, in double precision. -/
def tenfold (left : Nat) : Nat :=
  double.round (left * 10) 1

/-- How many parts of `10 ^ -count` are in so many ones and `left` units. -/
def parts : (whole left count : Nat) → Nat
  | whole, left, 0 => if one ≤ 2 * left then whole + 1 else whole
  | whole, left, count + 1 =>
    parts (whole * 10 + tenfold left / one) (tenfold left % one) count

/-- The numeral of a finite double with at most `count` decimal places. -/
def numeral (count : Nat) (negative : Bool) (units : Nat) : Numeral :=
  ofParts negative count (parts (units / one) (units % one) count)

variable {units left count rest : Nat} {digits : List Nat}

/-! ## Units -/

theorem one_eq : one = 2 ^ scale := by
  unfold one
  rw [Nat.pow_eq]

theorem zero_lt_one_units : 0 < one := by
  rw [one_eq]
  exact Nat.two_pow_pos scale

theorem two_pow_dvd_one {e : Nat} (he : e ≤ scale) : 2 ^ e ∣ one := by
  rw [one_eq]
  exact pow_dvd_pow 2 he

/-- A number of units that is as much below one as the doubles there are apart. -/
def Below (left : Nat) : Prop :=
  left + 2 ^ (scale - 53) ≤ one

theorem one_eq_mul : one = 2 ^ 53 * 2 ^ (scale - 53) := by
  rw [one_eq, mul_comm, Nat.pow_sub_mul_pow 2 (by decide)]

theorem Below.lt (h : Below left) : left < one :=
  (Nat.lt_add_of_pos_right (Nat.two_pow_pos _)).trans_le h

theorem below_of_dvd {e : Nat} (hlow : scale - 53 ≤ e) (hhigh : e ≤ scale) (hdvd : 2 ^ e ∣ left)
    (hlt : left < one) : Below left := by
  have hstep : 2 ^ (scale - 53) ≤ 2 ^ e := pow_le_pow_right₀ one_le_two hlow
  have hgap : 2 ^ e ≤ one - left :=
    Nat.le_of_dvd (Nat.sub_pos_of_lt hlt) (Nat.dvd_sub (two_pow_dvd_one hhigh) hdvd)
  unfold Below
  omega

/-- Half of one is far enough below it. -/
theorem below_of_two_mul_le (h : 2 * left ≤ one + 2 ^ (scale - 53)) : Below left := by
  have hone := one_eq_mul
  have hpos := Nat.two_pow_pos (scale - 53)
  unfold Below
  omega

/-- A finite double has no more than 53 significant bits. -/
theorem exists_significand {bits : Nat} {negative : Bool}
    (h : double.ofBits bits = .finite negative units) :
    ∃ m e, m < 2 ^ 53 ∧ units = m * 2 ^ e := by
  unfold Format.ofBits at h
  simp only at h
  split at h
  · split at h <;> cases h
  · split at h
    · obtain ⟨-, rfl⟩ := Datum.finite.inj h
      exact ⟨_, 0, (Nat.mod_lt _ (by decide)).trans (by decide), rfl⟩
    · obtain ⟨-, rfl⟩ := Datum.finite.inj h
      refine ⟨_, _, ?_, rfl⟩
      have hfraction : bits % Nat.pow 2 52 < 2 ^ 52 := Nat.mod_lt _ (by decide)
      show Nat.pow 2 52 + bits % Nat.pow 2 52 < 2 ^ 53
      have hpow : Nat.pow 2 52 = 2 ^ 52 := rfl
      omega

/-- What a double has beyond the whole is below one. -/
theorem below_of_ofBits {bits : Nat} {negative : Bool}
    (h : double.ofBits bits = .finite negative units) : Below (units % one) := by
  obtain ⟨m, e, hm, rfl⟩ := exists_significand h
  rcases le_or_gt (scale - 53) e with hcoarse | hfine
  · refine below_of_dvd (le_min hcoarse (Nat.sub_le _ _)) (min_le_right e scale) ?_
      (Nat.mod_lt _ zero_lt_one_units)
    rw [Nat.dvd_mod_iff (two_pow_dvd_one (min_le_right e scale))]
    exact (pow_dvd_pow 2 (min_le_left e scale)).mul_left m
  · refine below_of_two_mul_le (Nat.le_add_right_of_le ?_)
    calc 2 * (m * 2 ^ e % one)
        ≤ 2 * (2 ^ 53 * 2 ^ e) :=
          Nat.mul_le_mul_left 2 ((Nat.mod_le _ _).trans (Nat.mul_le_mul_right _ hm.le))
      _ = 2 ^ (54 + e) := by ring
      _ ≤ one := by
          rw [one_eq]
          exact pow_le_pow_right₀ one_le_two (by unfold scale at hfine ⊢; omega)

/-! ## Products -/

/-- The nearest number is at most half of a step above. -/
theorem two_mul_nearest_le (num den : Nat) : 2 * (nearest num den * den) ≤ 2 * num + den := by
  have hsplit := Nat.div_add_mod' num den
  unfold nearest
  simp only
  split
  · omega
  · split
    · rw [Nat.add_mul, Nat.one_mul]
      omega
    · split
      · omega
      · rw [Nat.add_mul, Nat.one_mul]
        omega

/-- The exponent of the spacing of doubles around ten times a number. -/
theorem spacing_mul_ten (left : Nat) :
    double.spacing (left * 10) 1 = (left * 10).log2 - 52 := by
  show max 0 ((left * 10 / 1).log2 - 52) = _
  rw [Nat.div_one, Nat.zero_max]

theorem spacing_dvd_tenfold (left : Nat) : 2 ^ ((left * 10).log2 - 52) ∣ tenfold left := by
  rw [← spacing_mul_ten]
  exact Dvd.intro_left _ rfl

theorem two_mul_tenfold_le (left : Nat) :
    2 * tenfold left ≤ 2 * (left * 10) + 2 ^ ((left * 10).log2 - 52) := by
  have htenfold : tenfold left = nearest (left * 10) (2 ^ double.spacing (left * 10) 1) *
      2 ^ double.spacing (left * 10) 1 := by
    rw [tenfold, Format.round, Nat.one_mul]
    rfl
  rw [← spacing_mul_ten, htenfold]
  exact two_mul_nearest_le _ _

theorem log2_mul_ten_lt {n : Nat} (h : left < 2 ^ n) : (left * 10).log2 < n + 4 := by
  rcases Nat.eq_zero_or_pos left with rfl | hpos
  · rw [Nat.zero_mul, Nat.log2_zero]
    omega
  · rw [Nat.log2_lt (by omega), pow_add]
    omega

/-- **No digit is ten.** -/
theorem Below.tenfold_lt (h : Below left) : tenfold left < one * 10 := by
  have hlog := log2_mul_ten_lt (one_eq ▸ h.lt)
  have hspacing : 2 ^ ((left * 10).log2 - 52) ≤ 2 ^ 4 * 2 ^ (scale - 53) := by
    rw [← pow_add]
    exact pow_le_pow_right₀ one_le_two (by unfold scale at hlog ⊢; omega)
  have htenfold := two_mul_tenfold_le left
  have hpos := Nat.two_pow_pos (scale - 53)
  unfold Below at h
  omega

/-- What is left after a digit is below one as well. -/
theorem Below.tenfold_mod (h : Below left) : Below (tenfold left % one) := by
  have hlog := log2_mul_ten_lt (one_eq ▸ h.lt)
  rcases le_or_gt (scale - 53) ((left * 10).log2 - 52) with hcoarse | hfine
  · have hhigh : (left * 10).log2 - 52 ≤ scale := by omega
    refine below_of_dvd hcoarse hhigh ?_ (Nat.mod_lt _ zero_lt_one_units)
    exact (Nat.dvd_mod_iff (two_pow_dvd_one hhigh)).mpr (spacing_dvd_tenfold left)
  · -- the product is small, and what it gains is even smaller
    have hsmall : left * 10 < 2 ^ (scale - 1) := by
      rcases Nat.eq_zero_or_pos left with rfl | hpos
      · rw [Nat.zero_mul]
        exact Nat.two_pow_pos _
      · exact (Nat.log2_lt (by omega)).mp (by omega)
    have hhalf : 2 * 2 ^ (scale - 1) = one := by
      rw [one_eq, ← pow_succ', Nat.sub_add_cancel (by decide)]
    have hgain : 2 ^ ((left * 10).log2 - 52) ≤ 2 ^ (scale - 53) :=
      pow_le_pow_right₀ one_le_two hfine.le
    have htenfold := two_mul_tenfold_le left
    have hmod := Nat.mod_le (tenfold left) one
    exact below_of_two_mul_le (by omega)

/-! ## Digits -/

/-- Nothing that is left is nothing in any place. -/
theorem parts_zero (whole count : Nat) : parts whole 0 count = whole * 10 ^ count := by
  induction count generalizing whole with
  | zero =>
      have hpos := zero_lt_one_units
      rw [parts, if_neg (by omega), pow_zero, mul_one]
  | succ count ih =>
      have htenfold : tenfold 0 = 0 := by decide +kernel
      rw [parts, htenfold, Nat.zero_div, Nat.zero_mod, add_zero, ih, pow_succ', mul_assoc]

/-- Digits of `left` units, and the units left over after them: they are the
parts but for the rounding, and there are fewer digits than asked for only if
nothing is left. -/
structure Expanded (count left : Nat) (digits : List Nat) (rest : Nat) : Prop where
  digit : ∀ d ∈ digits, d < 10
  length_le : digits.length ≤ count
  ended : digits.length < count → rest = 0
  parts_eq : ∀ whole : Nat, (parts whole left count : ℚ) =
    (whole + fraction digits) * 10 ^ count + if one ≤ 2 * rest then 1 else 0

theorem expanded_zero (count : Nat) : Expanded count 0 [] 0 where
  digit := by simp
  length_le := Nat.zero_le count
  ended := fun _ => rfl
  parts_eq := by
    intro whole
    rw [parts_zero, if_neg (by have := zero_lt_one_units; omega)]
    simp [fraction]

/-- No digits. -/
theorem expanded_none (left : Nat) : Expanded 0 left [] left where
  digit := by simp
  length_le := le_rfl
  ended := fun h => absurd h (Nat.lt_irrefl 0)
  parts_eq := by
    intro whole
    rw [parts]
    split <;> simp [fraction]

/-- One digit more before others. -/
theorem Expanded.cons (hbelow : Below left) (h : Expanded count (tenfold left % one) digits rest) :
    Expanded (count + 1) left (tenfold left / one :: digits) rest where
  digit := by
    rw [List.forall_mem_cons]
    exact ⟨Nat.div_lt_of_lt_mul hbelow.tenfold_lt, h.digit⟩
  length_le := Nat.succ_le_succ h.length_le
  ended := fun hshort => h.ended (Nat.lt_of_succ_lt_succ hshort)
  parts_eq := by
    intro whole
    rw [parts, h.parts_eq, fraction, pow_succ]
    push_cast
    ring

/-- **The digits are those of the parts.** -/
theorem Below.expanded (h : Below left) (count : Nat) :
    Expanded count left (expand count left).1 (expand count left).2 := by
  induction count generalizing left with
  | zero => exact expanded_none left
  | succ count ih =>
      unfold expand
      split
      · next hzero =>
          rw [hzero]
          exact expanded_zero _
      · exact (ih h.tenfold_mod).cons h

/-- Half or more is left over after all of the digits only. -/
theorem Expanded.half_le_iff (h : Expanded count left digits rest) :
    digits.length = count ∧ one ≤ 2 * rest ↔ one ≤ 2 * rest := by
  rw [and_iff_right_iff_imp]
  intro hhalf
  by_contra hne
  have hpos := zero_lt_one_units
  rw [h.ended (lt_of_le_of_ne h.length_le hne)] at hhalf
  omega

theorem increment_cons (d : Nat) (rest : List Nat) : increment (d :: rest) =
    if (increment rest).2 then
      if d = 9 then (0 :: (increment rest).1, true) else ((d + 1) :: (increment rest).1, false)
    else (d :: (increment rest).1, false) :=
  rfl

/-- **One more in the last place** carries through the nines. -/
theorem increment_spec (hdigit : ∀ d ∈ digits, d < 10) :
    (∀ d ∈ (increment digits).1, d < 10) ∧
      fraction (increment digits).1 + (if (increment digits).2 then 1 else 0) =
        fraction digits + 1 / 10 ^ digits.length := by
  induction digits with
  | nil => simp [increment, fraction]
  | cons d rest ih =>
      rw [List.forall_mem_cons] at hdigit
      obtain ⟨hrest, hvalue⟩ := ih hdigit.2
      rw [fraction, List.length_cons, pow_succ, ← div_div, ← add_div, add_assoc, ← hvalue,
        increment_cons]
      generalize increment rest = result at hrest ⊢
      obtain ⟨next, carry⟩ := result
      cases carry with
      | false => exact ⟨List.forall_mem_cons.mpr ⟨hdigit.1, hrest⟩, by simp [fraction]⟩
      | true =>
          simp only [if_true]
          split
          · next hnine =>
              refine ⟨List.forall_mem_cons.mpr ⟨by decide, hrest⟩, ?_⟩
              simp only [fraction, hnine, if_true]
              norm_num
              ring
          · next hnine =>
              refine ⟨List.forall_mem_cons.mpr ⟨by omega, hrest⟩, ?_⟩
              simp only [fraction]
              push_cast
              ring

theorem trimZeros_eq (digits : List Nat) : trimZeros digits = digits.rdropWhile (· = 0) :=
  rfl

/-- **Digits are rounded to the parts**, and do not end in zeros. -/
theorem rounded_eq (h : Below (units % one)) (count : Nat) :
    (∀ d ∈ (rounded count units).2, d < 10) ∧ (rounded count units).2.getLast? ≠ some 0 ∧
      ((rounded count units).1 : ℚ) + fraction (rounded count units).2 =
        parts (units / one) (units % one) count / 10 ^ count := by
  have hexpanded := h.expanded count
  unfold rounded
  generalize expand count (units % one) = result at hexpanded ⊢
  obtain ⟨digits, left⟩ := result
  simp only at hexpanded ⊢
  have hpow : (10 : ℚ) ^ count ≠ 0 := pow_ne_zero _ (by norm_num)
  rw [hexpanded.parts_eq, add_div, mul_div_cancel_right₀ _ hpow]
  by_cases hup : digits.length = count ∧ one ≤ 2 * left
  · obtain ⟨hincrement, hvalue⟩ := increment_spec hexpanded.digit
    rw [if_pos hup, if_pos hup.2, trimZeros_eq]
    refine ⟨fun d hd => hincrement d (mem_of_mem_rdropWhile hd), getLast?_rdropWhile _, ?_⟩
    rw [fraction_rdropWhile, add_assoc, ← hup.1, ← hvalue]
    push_cast
    ring
  · rw [if_neg hup, if_neg (hup ∘ hexpanded.half_le_iff.mpr), trimZeros_eq]
    refine ⟨fun d hd => hexpanded.digit d (mem_of_mem_rdropWhile hd), getLast?_rdropWhile _, ?_⟩
    rw [fraction_rdropWhile, zero_div, add_zero]

/-! ## Text -/

/-- The numeral that is written, from its digits; zero has no sign. -/
def written (count : Nat) (negative : Bool) (units : Nat) : Numeral :=
  ⟨negative && ((rounded count units).1 != 0 || !(rounded count units).2.isEmpty),
    (rounded count units).1, (rounded count units).2⟩

/-- The pieces of a double are the text of what is written. -/
theorem textOf_finitePieces_eq_written (count : Nat) (negative : Bool) (units : Nat)
    (hdigit : ∀ d ∈ (rounded count units).2, d < 10) :
    Piece.textOf (finitePieces count negative units) = (written count negative units).text := by
  unfold finitePieces written Numeral.text Numeral.characters
  generalize rounded count units = result at hdigit ⊢
  obtain ⟨whole, digits⟩ := result
  simp only at hdigit ⊢
  have hdecimals : digits.map Decimal.digitByte =
      (digits.map Nat.digitChar).map fun c => UInt8.ofNat c.toNat := by
    rw [List.map_map]
    apply List.map_congr_left
    intro d hd
    rw [Function.comp_apply, Nat.toNat_digitChar_of_lt_ten (hdigit d hd), Decimal.digitByte]
  unfold Piece.textOf
  rw [List.flatMap_append, List.flatMap_append, List.flatMap_singleton, List.map_append,
    List.map_append, ← Decimal.text_eq]
  congr 1
  · congr 1
    split <;> rfl
  · cases digits with
    | nil => rfl
    | cons d rest =>
        rw [if_neg (by simp), if_neg (by simp), hdecimals, List.flatMap_singleton]
        rfl

/-- A number is shown as zero if it is zero. -/
theorem shown_iff {whole : Nat} (htrimmed : digits.getLast? ≠ some 0) :
    (whole != 0 || !digits.isEmpty) ↔ (whole : ℚ) + fraction digits ≠ 0 := by
  have hfraction := fraction_nonneg digits
  have hwhole : (0 : ℚ) ≤ whole := Nat.cast_nonneg whole
  rw [Bool.or_eq_true, bne_iff_ne, Bool.not_eq_true', List.isEmpty_eq_false_iff, ← not_and_or,
    not_iff_not, add_eq_zero_iff_of_nonneg hwhole hfraction, Nat.cast_eq_zero]
  refine and_congr_right fun _ => ⟨?_, eq_nil_of_fraction_eq_zero htrimmed⟩
  rintro rfl
  rfl

/-- What is written is canonical, and denotes the parts. -/
theorem written_eq (h : Below (units % one)) (count : Nat) (negative : Bool) :
    written count negative units = numeral count negative units := by
  obtain ⟨hdigit, htrimmed, hvalue⟩ := rounded_eq h count
  have hshown : ((rounded count units).1 != 0 || !(rounded count units).2.isEmpty) ↔
      ((rounded count units).1 : ℚ) + fraction (rounded count units).2 ≠ 0 :=
    shown_iff htrimmed
  have hwritten : (written count negative units).value =
      withSign (written count negative units).negative
        (parts (units / one) (units % one) count / 10 ^ count) := by
    rw [Numeral.value, ← hvalue]
    rfl
  refine Canonical.eq_of_value_eq ⟨hdigit, htrimmed, ?_⟩ (canonical_ofParts _ _ _) ?_
  · intro hnegative
    rw [hwritten, hnegative, ← hvalue]
    exact neg_ne_zero.mpr (hshown.mp (Bool.and_eq_true_iff.mp hnegative).2)
  · rw [hwritten, numeral, value_ofParts, ← hvalue]
    cases negative with
    | false => rfl
    | true =>
        by_cases hzero : ((rounded count units).1 : ℚ) + fraction (rounded count units).2 = 0
        · simp [hzero, withSign]
        · rw [show (written count true units).negative = true from hshown.mpr hzero]

/-- **What is written of a double** is the text of its numeral. -/
theorem textOf_finitePieces (h : Below (units % one)) (count : Nat) (negative : Bool) :
    Piece.textOf (finitePieces count negative units) = (numeral count negative units).text := by
  rw [textOf_finitePieces_eq_written count negative units (rounded_eq h count).1, written_eq h]

end RecordStore.FixedPoint
