import Mathlib
import RecordStore.Proofs.Checked.Guards
import RecordStore.Proofs.Numeric.Canonical
import RecordStore.Proofs.Text.Bounded

/-!
# Integers on a machine

An integer of 64 bits is written into a builder from an array of twenty
digits.  The digits of its magnitude are put into the array from the end, the
last one first, and every place in it is checked.  If there are no more digits
than places before the first one, they fill the last of these
(`fillDigits_eq`), and a magnitude in a word of 64 bits has no more than twenty.

So the array is always enough, for the least integer too, and a builder with
room gets the canonical text of the integer (`addInteger_canonical`).
-/

namespace RecordStore.Checked

/-- Puts the digits of a magnitude into an array, backward from before a place.
Where the first of them is comes with the array. -/
def fillDigits (array : Array UInt8) (place magnitude : Nat) : Checked (Array UInt8 × Nat) := do
  let place ← minus place 1
  index place array.size
  let array := array.setIfInBounds place (Decimal.digitByte (magnitude % 10))
  if _hlast : magnitude / 10 = 0 then return (array, place)
  else fillDigits array place (magnitude / 10)
  termination_by magnitude
  decreasing_by omega

/-- How many digits there is room for. -/
def digitPlaces : Nat := 20

/-- The digits of a magnitude, from an array that is filled with them. -/
def digitRun (magnitude : Nat) : Checked Bytes := do
  let (array, place) ← fillDigits (.replicate digitPlaces 0) digitPlaces magnitude
  slice array.toList place digitPlaces

/-- Adds an integer to a builder: its sign, if it is below zero, and its
digits. -/
def addInteger (b : Builder) (value : Int64) : Checked Builder := do
  let magnitude ← word 64 value.toInt.natAbs
  let digits ← digitRun magnitude
  return (if value < 0 then b.add (.sign '-') else b).add (.run digits)

/-! ## The array -/

section

variable {array : Array UInt8} {place magnitude : Nat}

/-- The place before is the first of those that are left. -/
theorem drop_setIfInBounds_pred (hpos : 0 < place) (hplace : place ≤ array.size) (digit : UInt8) :
    (array.setIfInBounds (place - 1) digit).toList.drop (place - 1) =
      digit :: array.toList.drop place := by
  obtain ⟨before, rfl⟩ := Nat.exists_eq_succ_of_ne_zero hpos.ne'
  have hinside : before < (array.toList.set before digit).length := by
    rw [List.length_set, Array.length_toList]
    exact hplace
  rw [Nat.succ_sub_one, Array.toList_setIfInBounds, List.drop_eq_getElem_cons hinside,
    List.getElem_set_self, List.drop_set_of_lt (Nat.lt_succ_self before)]

/-- One digit is put into its place, and then come those of what is left. -/
theorem fillDigits_step (hpos : 0 < place) (hplace : place ≤ array.size) (magnitude : Nat) :
    fillDigits array place magnitude =
      if magnitude / 10 = 0 then
        .ok (array.setIfInBounds (place - 1) (Decimal.digitByte (magnitude % 10)), place - 1)
      else fillDigits (array.setIfInBounds (place - 1) (Decimal.digitByte (magnitude % 10)))
        (place - 1) (magnitude / 10) := by
  have hindex : place - 1 < array.size := by omega
  rw [fillDigits, bind_of_eq (minus_of_le hpos), bind_of_eq (index_of_lt hindex)]
  rfl

/-- **The digits fill the places before**, if there are as many; what is before
those and after them is left as it is. -/
theorem fillDigits_eq (hroom : (Decimal.digits magnitude).length ≤ place)
    (hplace : place ≤ array.size) : ∃ filled,
      fillDigits array place magnitude =
        .ok (filled, place - (Decimal.digits magnitude).length) ∧
      filled.toList = array.toList.take (place - (Decimal.digits magnitude).length) ++
        Decimal.text magnitude ++ array.toList.drop place := by
  unfold Decimal.text
  induction magnitude using Decimal.digits.induct generalizing array place with
  | case1 n hlast =>
      have hdigits : Decimal.digits n = [n] := by rw [Decimal.digits, if_pos hlast]
      rw [hdigits, List.length_singleton] at hroom ⊢
      have hfilled : (array.setIfInBounds (place - 1) (Decimal.digitByte n)).toList =
          array.toList.take (place - 1) ++ Decimal.digitByte n :: array.toList.drop place := by
        rw [← drop_setIfInBounds_pred hroom hplace, Array.toList_setIfInBounds,
          ← List.take_set_of_le (Nat.le_refl (place - 1)), List.take_append_drop]
      rw [fillDigits_step hroom hplace, if_pos (Nat.div_eq_of_lt hlast), Nat.mod_eq_of_lt hlast,
        List.map_singleton, List.append_assoc, List.singleton_append]
      exact ⟨_, rfl, hfilled⟩
  | case2 n hmore ih =>
      have hdigits : Decimal.digits n = Decimal.digits (n / 10) ++ [n % 10] := by
        rw [Decimal.digits, if_neg hmore]
      rw [hdigits, List.length_append, List.length_singleton] at hroom ⊢
      have hpos : 0 < place := Nat.zero_lt_of_lt hroom
      rw [fillDigits_step hpos hplace, if_neg (by omega)]
      obtain ⟨filled, hfilled, hlist⟩ := @ih
        (array.setIfInBounds (place - 1) (Decimal.digitByte (n % 10))) (place - 1)
        (Nat.le_sub_one_of_lt hroom) ((Nat.sub_le ..).trans (by rwa [Array.size_setIfInBounds]))
      refine ⟨filled, ?_, ?_⟩
      · rw [hfilled, Nat.sub_sub, Nat.add_comm]
      · rw [hlist, drop_setIfInBounds_pred hpos hplace, Array.toList_setIfInBounds,
          List.take_set_of_le (Nat.sub_le ..), Nat.sub_sub, Nat.add_comm, List.map_append,
          List.map_singleton, List.append_assoc, List.append_assoc, List.append_assoc,
          List.singleton_append]

/-- A magnitude in a word of 64 bits has no more digits than there is room for. -/
theorem length_digits_le (h : magnitude < 2 ^ 64) :
    (Decimal.digits magnitude).length ≤ digitPlaces := by
  have hlength : (Nat.toDigits 10 magnitude).length ≤ digitPlaces :=
    (Nat.length_toDigits_le_iff (by decide) (by decide)).mpr (h.trans (by decide))
  rwa [← Decimal.map_digitChar_digits, List.length_map] at hlength

/-- **The array is always enough.** -/
theorem digitRun_eq (h : magnitude < 2 ^ 64) : digitRun magnitude = .ok (Decimal.text magnitude) := by
  have hfits := length_digits_le h
  have hzeros : (Array.replicate digitPlaces (0 : UInt8)).size = digitPlaces := Array.size_replicate
  obtain ⟨filled, hfilled, hlist⟩ := fillDigits_eq hfits hzeros.ge
  have hfront : ((Array.replicate digitPlaces (0 : UInt8)).toList.take
      (digitPlaces - (Decimal.digits magnitude).length)).length =
        digitPlaces - (Decimal.digits magnitude).length :=
    List.length_take_of_le ((Nat.sub_le ..).trans hzeros.ge)
  have htext : (Decimal.text magnitude).length = (Decimal.digits magnitude).length :=
    List.length_map _
  have hbetween := slice_append ((Array.replicate digitPlaces (0 : UInt8)).toList.take
    (digitPlaces - (Decimal.digits magnitude).length)) (Decimal.text magnitude)
    ((Array.replicate digitPlaces 0).toList.drop digitPlaces)
  rw [← hlist, hfront, htext, Nat.sub_add_cancel hfits] at hbetween
  unfold digitRun
  rw [bind_of_eq hfilled]
  exact hbetween

end

/-! ## Integers -/

theorem natAbs_toInt_le (value : Int64) : value.toInt.natAbs ≤ 2 ^ 63 := by
  have hlow := value.le_toInt
  have hhigh := value.toInt_lt
  omega

/-- An integer is added as it is without bounds. -/
theorem addInteger_eq (b : Builder) (value : Int64) :
    addInteger b value = .ok (b.perform (.integer value)) := by
  have hword : value.toInt.natAbs < 2 ^ 64 := (natAbs_toInt_le value).trans_lt (by decide)
  unfold addInteger
  rw [bind_of_eq (word_of_lt hword), bind_of_eq (digitRun_eq hword)]
  show Except.ok _ = Except.ok (b.addAll (Decimal.pieces value.toInt))
  by_cases hneg : value < 0
  · have hsign : value.toInt < 0 := Int64.lt_iff_toInt_lt.mp hneg
    rw [if_pos hneg, Decimal.pieces, if_pos hsign]
    rfl
  · have hsign : ¬ value.toInt < 0 := fun h => hneg (Int64.lt_iff_toInt_lt.mpr h)
    rw [if_neg hneg, Decimal.pieces, if_neg hsign]
    rfl

theorem contains_toInt (value : Int64) : Literal.i64.contains value.toInt = true := by
  have hlow := value.le_toInt
  have hhigh := value.toInt_lt
  rw [Literal.contains_iff]
  show -9223372036854775808 ≤ value.toInt ∧ value.toInt ≤ 9223372036854775807
  omega

theorem length_characters_le (value : Int64) :
    (Decimal.characters value.toInt).length ≤ digitPlaces := by
  have hdigits : (Nat.toDigits 10 value.toInt.natAbs).length ≤ 19 :=
    (Nat.length_toDigits_le_iff (by decide) (by decide)).mpr
      ((natAbs_toInt_le value).trans_lt (by decide))
  have hsign : (if value.toInt < 0 then ['-'] else []).length ≤ 1 := by split <;> decide
  rw [Decimal.characters, List.length_append]
  exact Nat.add_le_add hsign hdigits

/-- A builder with room has the characters of the integer after its text. -/
theorem perform_integer (b : Builder) (value : Int64)
    (hroom : b.length + (Decimal.characters value.toInt).length < b.buffer.size) :
    (b.perform (.integer value)).text =
        b.text ++ Utf8.encode (String.ofList (Decimal.characters value.toInt)) ∧
      (b.perform (.integer value)).full = b.full := by
  have htext : Piece.textOf (Decimal.pieces value.toInt) =
      Utf8.encode (String.ofList (Decimal.characters value.toInt)) := by
    rw [Decimal.textOf_pieces, Utf8.encode_of_ascii (Decimal.ascii_characters _)]
  have hlength : (Piece.textOf (Decimal.pieces value.toInt)).length =
      (Decimal.characters value.toInt).length := by
    rw [Decimal.textOf_pieces, List.length_map]
  rw [← htext]
  rw [← hlength] at hroom
  exact Builder.addAll_of_fits hroom

/-- **Integers are written exactly.**  An integer of 64 bits has one canonical
text, and no other integer has that text.  Twenty places are enough for its
digits, whatever it is added to, and where there is room just this text is
added.  Read as a whole or from the front of a text, it is the integer again. -/
theorem addInteger_canonical (value : Int64) : ∃ text : List Char,
    (∀ other, Decimal.Canonical other value.toInt ↔ other = text) ∧
    (∀ other : Int64, Decimal.Canonical text other.toInt ↔ other = value) ∧
    text.length ≤ digitPlaces ∧
    (∀ b : Builder, addInteger b value = .ok (b.perform (.integer value)) ∧
      (b.length + text.length < b.buffer.size →
        (b.perform (.integer value)).text = b.text ++ Utf8.encode (String.ofList text) ∧
          (b.perform (.integer value)).full = b.full)) ∧
    Literal.integer Literal.i64 text = .ok value.toInt ∧
    StoredValue.leadingLong? (String.ofList text) = some value.toInt := by
  have hrange := contains_toInt value
  refine ⟨Decimal.characters value.toInt, fun other => Decimal.canonical_iff, ?_,
    length_characters_le value, fun b => ⟨addInteger_eq b value, perform_integer b value⟩,
    Literal.integer_characters (by decide) hrange, StoredValue.leadingLong?_characters hrange⟩
  intro other
  rw [Decimal.canonical_iff]
  constructor
  · intro hsame
    have hvalue := congrArg Literal.signed hsame
    rw [Decimal.signed_characters, Decimal.signed_characters] at hvalue
    exact Int64.toInt_inj.mp hvalue.symm
  · rintro rfl
    rfl

/-- The least integer, the magnitude of which is none, leaves of twenty-one bytes
only the one that is kept for the terminator. -/
example : (addInteger (.over (.replicate 21 0)) Int64.minValue).map Builder.text =
    .ok (Utf8.encode "-9223372036854775808") := by
  rw [addInteger_eq]
  decide +kernel

end RecordStore.Checked
