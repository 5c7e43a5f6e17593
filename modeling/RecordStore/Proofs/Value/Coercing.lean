import Mathlib
import RecordStore.Proofs.Collection.Streaming
import RecordStore.Proofs.Numeric.Places
import RecordStore.Value.Coerce

/-!
# One record as an integer, a double and a boolean

The three native forms of a record are worked out apart, each with a default of
its own.  Of a record that is no text they are forms of one number
(`native_forms_agree`): the double is that number, the integer is the number cut
toward zero and to 32 bits, and the boolean says whether it is not zero.  Angles
have no boolean form, and addresses and geometries are no number at all.

Integers of 32 bits lose nothing on the way (`double_ofInt`), which is why a
stored integer is what is cut from its double.
-/

namespace RecordStore

namespace Binary

open FixedPoint (one_eq zero_lt_one_units two_pow_dvd_one)

variable {value : Int}

/-- **Integers of up to 53 bits are exact** in double precision. -/
theorem double_ofInt (h : value.natAbs < 2 ^ 53) :
    double.ofInt value = .finite (value < 0) (value.natAbs * one) := by
  have hbound : value.natAbs * one < 2 ^ (53 + scale) := by
    rw [Nat.pow_add, ← one_eq]
    exact Nat.mul_lt_mul_of_pos_right h zero_lt_one_units
  have hround : double.round (value.natAbs * one) 1 = value.natAbs * one := by
    apply Format.round_eq_self
    by_cases hzero : value.natAbs * one = 0
    · rw [hzero]
      exact dvd_zero _
    have hlog : (value.natAbs * one).log2 < 53 + scale := (Nat.log2_lt hzero).mpr hbound
    have hspacing : double.spacing (value.natAbs * one) 1 ≤ scale := by
      rw [Format.spacing, Nat.div_one]
      exact max_le (Nat.zero_le _) (by show _ - 52 ≤ _; omega)
    exact (two_pow_dvd_one hspacing).trans (dvd_mul_left _ _)
  have hexponent : 53 + scale < double.limit := by decide
  have hlimit : value.natAbs * one < Nat.pow 2 double.limit := by
    generalize double.limit = limit at hexponent
    exact hbound.trans (Nat.pow_lt_pow_right one_lt_two hexponent)
  rw [Format.ofInt, Format.datum]
  simp only [hround, if_pos hlimit]

theorem truncate_double_ofInt (low high : Int) (h : value.natAbs < 2 ^ 53) :
    (double.ofInt value).truncate low high = max low (min high value) := by
  rw [double_ofInt h]
  simp only [Datum.truncate]
  rw [Nat.mul_div_cancel _ zero_lt_one_units]
  by_cases hneg : value < 0
  · rw [if_pos (decide_eq_true hneg), Int.ofNat_natAbs_of_nonpos hneg.le, Int.neg_neg]
  · rw [if_neg (by simpa using hneg), Int.natAbs_of_nonneg (not_lt.mp hneg)]

theorem isZero_double_ofInt (h : value.natAbs < 2 ^ 53) :
    (double.ofInt value).isZero = decide (value = 0) := by
  rw [double_ofInt h, Datum.isZero, decide_eq_decide, Nat.mul_eq_zero, Int.natAbs_eq_zero]
  exact or_iff_left zero_lt_one_units.ne'

end Binary

namespace StoredValue

open Binary

variable {record : Bytes} {type : ValueType} {value : StoredValue}

/-- The types that a value is read as. -/
def types : StoredValue → List ValueType
  | .text _ => [.string, .double, .boolean, .javascript]
  | .ipAddress _ => [.ipAddress]
  | .wkb _ => [.wkb]
  | .integer _ => [.integer]
  | .single _ => [.single]
  | .azimuth _ => [.azimuth]
  | .declination _ => [.declination]
  | .byte _ => [.byte]

theorem mem_types_of_decode (h : decode record type = .ok value) : type ∈ value.types := by
  cases type with
  | coordinate | object => cases h
  | byte =>
      cases record with
      | nil => cases h
      | cons b rest =>
          obtain rfl := Except.ok.inj h
          exact List.mem_singleton_self _
  | string | double | boolean | javascript =>
      obtain ⟨text, -, rfl⟩ := map_eq_ok_iff.mp h
      simp [types]
  | ipAddress | wkb | integer | single | azimuth | declination =>
      obtain ⟨stored, -, rfl⟩ := map_eq_ok_iff.mp h
      exact List.mem_singleton_self _

theorem natAbs_lt_of_int32 (n : Int32) : n.toInt.natAbs < 2 ^ 53 := by
  have hlow := n.le_toInt
  have hhigh := n.toInt_lt
  omega

/-- An integer of 32 bits is cut from its double as it is. -/
theorem toInt32_double_ofInt (n : Int32) : toInt32 (double.ofInt n.toInt) = n := by
  have hlow := n.le_toInt
  have hhigh := n.toInt_lt
  have hinside : max Literal.i32.low (min Literal.i32.high n.toInt) = n.toInt := by
    unfold Literal.i32
    norm_num
    omega
  rw [toInt32, truncate_double_ofInt _ _ (natAbs_lt_of_int32 n), hinside, Int32.ofInt_toInt]

/-- A value that is no text is read as one type. -/
theorem types_eq (h : type ∉ [.string, .double, .boolean, .javascript])
    (hmem : type ∈ value.types) : value.types = [type] := by
  cases value with
  | text bytes => exact absurd hmem h
  | ipAddress | wkb | integer | single | azimuth | declination | byte =>
      rw [List.mem_singleton.mp hmem]
      rfl

/-- **A value that is no text has one number**, of which its forms are made; an
address and a geometry have none. -/
theorem forms_agree (h : value.types = [type]) :
    (value.double?.isSome ↔ type ≠ .ipAddress ∧ type ≠ .wkb) ∧
      value.int? = value.double?.map toInt32 ∧
      value.bool? = if type = .azimuth ∨ type = .declination then none
        else value.double?.map (!·.isZero) := by
  cases value with
  | text bytes => cases h
  | ipAddress | wkb | azimuth | declination | single =>
      obtain rfl := List.singleton_inj.mp h
      simp [double?, int?, bool?]
  | integer n =>
      obtain rfl := List.singleton_inj.mp h
      have hzero : n = 0 ↔ n.toInt = 0 := by rw [← Int32.toInt_inj, Int32.toInt_zero]
      simp only [double?, int?, bool?, Option.map_some, toInt32_double_ofInt,
        isZero_double_ofInt (natAbs_lt_of_int32 n)]
      refine ⟨by simp, trivial, ?_⟩
      rw [if_neg (by simp), decide_eq_decide.mpr hzero.symm]
      rfl
  | byte b =>
      obtain rfl := List.singleton_inj.mp h
      have hsame : (Int32.ofNat b.toNat).toInt = b.toNat :=
        Int32.toInt_ofNat_of_lt (b.toNat_lt.trans (by decide))
      have hzero : b = 0 ↔ (b.toNat : Int) = 0 := by
        rw [← UInt8.toNat_inj, UInt8.toNat_zero, Int.natCast_eq_zero]
      have hforms := toInt32_double_ofInt (Int32.ofNat b.toNat)
      have hnatAbs := natAbs_lt_of_int32 (Int32.ofNat b.toNat)
      rw [hsame] at hforms hnatAbs
      simp only [double?, int?, bool?, Option.map_some, hforms, isZero_double_ofInt hnatAbs]
      refine ⟨by simp, trivial, ?_⟩
      rw [if_neg (by simp), decide_eq_decide.mpr hzero.symm]
      rfl

/-- **The native forms of a record agree.**  A record that is not read as a text
has a number if it can be read and its type is one of numbers; the number cut to
an integer, the number and whether it is not zero are its forms, and a default
stands in for a form only where there is none. -/
theorem native_forms_agree (record : Bytes)
    (h : type ∉ [.string, .double, .boolean, .javascript]) : ∃ number? : Option Datum,
    (number?.isSome ↔ (decode record type).isOk ∧ type ≠ .ipAddress ∧ type ≠ .wkb) ∧
      ∀ i d b, toIntOr record type i = (number?.map toInt32).getD i ∧
        toDoubleOr record type d = number?.getD d ∧
        toBoolOr record type b = (if type = .azimuth ∨ type = .declination then none
          else number?.map (!·.isZero)).getD b := by
  unfold toIntOr toDoubleOr toBoolOr
  cases hdecode : decode record type with
  | error e =>
      refine ⟨none, by simp [Except.isOk, Except.toBool], ?_⟩
      intro i d b
      simp [Except.toOption]
  | ok value =>
      obtain ⟨hnumber, hint, hbool⟩ := forms_agree (types_eq h (mem_types_of_decode hdecode))
      refine ⟨value.double?, by simp [hnumber, Except.isOk, Except.toBool], ?_⟩
      intro i d b
      simp only [Except.toOption, Option.bind_some, hint, hbool, and_self]

end StoredValue

end RecordStore
