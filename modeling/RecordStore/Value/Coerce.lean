import RecordStore.Value.Basic
import RecordStore.Numeric.Literal
import RecordStore.Text.Utf8
import RecordStore.Text.Blank

/-!
# Stored values as native values

A stored value may stand in for an integer, a double or a boolean; where it
has no such form, a default supplied by the caller does.  Texts are read from
their front, as far as they are a number.
-/

namespace RecordStore

namespace Leading

/-- The characters of a text after the blanks before them, if it is text. -/
def chars? (bytes : Bytes) : Option (List Char) :=
  (Utf8.decode? bytes).map Blank.trimStart

end Leading

namespace StoredValue

open Binary

/-- The range of a 32 bit integer, for values cut to it. -/
def toInt32 (value : Datum) : Int32 :=
  Int32.ofInt (value.truncate Literal.i32.low Literal.i32.high)

/-- The number that a value is in double precision, if it is one. -/
def double? : StoredValue → Option Datum
  | .text bytes =>
    match Leading.chars? bytes with
    | none => none
    | some chars =>
      match Leading.decimal chars with
      | [] => none
      | number => some (Literal.decimal Binary.double number)
  | .integer value => some (Binary.double.ofInt value.toInt)
  | .single bits => some (Binary.single.ofBits bits.toNat)
  | .azimuth raw => some (degrees raw azimuthMax)
  | .declination raw => some (degrees raw declinationMax)
  | .byte value => some (Binary.double.ofInt value.toNat)
  | .ipAddress _ | .wkb _ => none

/-- The integer that a value is, if it is one. -/
def int? : StoredValue → Option Int32
  | .text bytes =>
    match Leading.chars? bytes with
    | none => none
    | some chars =>
      match Leading.integer chars with
      | [] => none
      | number =>
        let n := Literal.signed number
        if Literal.i32.contains n then some (Int32.ofInt n) else none
  | .integer value => some value
  | .single bits => some (toInt32 (Binary.single.ofBits bits.toNat))
  | .azimuth raw => some (toInt32 (degrees raw azimuthMax))
  | .declination raw => some (toInt32 (degrees raw declinationMax))
  | .byte value => some (Int32.ofNat value.toNat)
  | .ipAddress _ | .wkb _ => none

/-- The boolean that a value is, if it is one.  Of texts, only `True` is
true. -/
def bool? : StoredValue → Option Bool
  | .text bytes => some (bytes = Utf8.encode "True")
  | .integer value => some (value != 0)
  | .byte value => some (value != 0)
  | .single bits => some (!(Binary.single.ofBits bits.toNat).isZero)
  | _ => none

/-- The integer of a record, or a default. -/
def toIntOr (record : Bytes) (type : ValueType) (default : Int32) : Int32 :=
  ((decode record type).toOption.bind int?).getD default

/-- The double of a record, or a default. -/
def toDoubleOr (record : Bytes) (type : ValueType) (default : Datum) : Datum :=
  ((decode record type).toOption.bind double?).getD default

/-- The boolean of a record, or a default. -/
def toBoolOr (record : Bytes) (type : ValueType) (default : Bool) : Bool :=
  ((decode record type).toOption.bind bool?).getD default

end StoredValue

end RecordStore
