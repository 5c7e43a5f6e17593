import RecordStore.Value.Coerce
import RecordStore.Value.Render

/-!
# Comparing stored values with text

A stored value is compared with the text of a value of its type.  The result
is negative if the stored value comes first, zero if the two are equal, and
positive otherwise.  Numbers are read from the front of the text, and a text
whose number is out of range comes after every value.
-/

namespace RecordStore

namespace Bytes

/-- The order of bytes as words of a dictionary: the first difference decides,
and what ends first comes first. -/
def order : Bytes → Bytes → Ordering
  | [], [] => .eq
  | [], _ :: _ => .lt
  | _ :: _, [] => .gt
  | a :: as, b :: bs => (compare a b).then (order as bs)

/-- It is the order of lists, so it is a linear one. -/
theorem order_eq_compare (a b : Bytes) : order a b = compare a b := by
  induction a generalizing b with
  | nil =>
      cases b with
      | nil => rfl
      | cons y b => rfl
  | cons x a ih =>
      cases b with
      | nil => rfl
      | cons y b =>
          rw [order, ih]
          exact List.compareLex_cons_cons.symm

end Bytes

namespace StoredValue

open Binary

/-- The number that an order is shown as. -/
def sign : Ordering → Int
  | .lt => -1
  | .eq => 0
  | .gt => 1

/-- The integer of 64 bits at the front of a text, zero if there is none; none
if it is out of range. -/
def leadingLong? (target : String) : Option Int :=
  match Leading.integer (Blank.trimStart target.toList) with
  | [] => some 0
  | number =>
    let n := Literal.signed number
    if Literal.i64.contains n then some n else none

/-- The double at the front of a text, zero if there is none; none if it is
out of range. -/
def leadingDouble? (target : String) : Option Datum :=
  match Leading.decimal (Blank.trimStart target.toList) with
  | [] => some (.finite false 0)
  | number =>
    match Literal.decimal Binary.double number with
    | .finite negative units => some (.finite negative units)
    | _ => none

/-- Compares an integer with the integer of a text: their difference, cut to
32 bits. -/
def compareInteger (value : Int) (target : String) : Int :=
  match leadingLong? target with
  | some n =>
    if Literal.i32.contains n then
      max Literal.i32.low (min Literal.i32.high (value - n))
    else -1
  | none => -1

/-- Compares a number with the number of a text. -/
def compareDouble (value : Datum) (target : String) : Int :=
  match leadingDouble? target with
  | some n =>
    match value.compare? n with
    | some order => sign order
    | none => -1
  | none => -1

/-- Compares octets with the address of a text.  Where neither has a first
difference from the other, the result is the difference in length; a text
that is no address compares as the number of octets. -/
def compareAddress (octets : Bytes) (target : String) : Int :=
  match IpAddress.ofText? (Blank.trim target.toList) with
  | none => octets.length
  | some address =>
    let common := min octets.length address.octets.length
    match Bytes.order (octets.take common) (address.octets.take common) with
    | .eq => (octets.length : Int) - address.octets.length
    | different => sign different

/-- Compares a value with the text of a value of its type. -/
def compareWith (value : StoredValue) (target : String) : Except StoreError Int :=
  match value with
  | .text bytes => .ok (sign (Bytes.order bytes (Utf8.encode target)))
  | .ipAddress octets => .ok (compareAddress octets target)
  | .wkb _ => do
    let text ← value.toText FixedPoint.maxPlaces
    return sign (Bytes.order (Utf8.encode text) (Utf8.encode target))
  | .integer n => .ok (compareInteger n.toInt target)
  | .single bits => .ok (compareDouble (Binary.single.ofBits bits.toNat) target)
  | .azimuth raw => .ok (compareDouble (degrees raw azimuthMax) target)
  | .declination raw => .ok (compareDouble (degrees raw declinationMax) target)
  | .byte _ => .error (.unsupportedType .byte)

/-- Compares a record, read as a type, with the text of a value of that
type. -/
def compareRecord (record : Bytes) (type : ValueType) (target : String) :
    Except StoreError Int := do
  (← decode record type).compareWith target

end StoredValue

end RecordStore
