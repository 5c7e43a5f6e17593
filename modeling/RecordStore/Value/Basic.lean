import RecordStore.Key
import RecordStore.Numeric.Binary

/-!
# Stored values

The bytes of a record, read as a type:

| type | stored as |
|------|-----------|
| string, double, boolean, javascript | length in 16 bits, text, terminator |
| ip, wkb | length in 16 bits, bytes |
| integer | 32 bit integer |
| float | single precision float |
| azimuth, declination | 16 bit integer that scales to ±180° or ±90° |
| byte | one byte |

The length of a text counts its terminator.  Numbers are stored with their
least significant byte first.
-/

namespace RecordStore

/-- A value read from a record. -/
inductive StoredValue
  /-- Text without its terminator. -/
  | text (bytes : Bytes)
  /-- The octets of an address; as many as the record has. -/
  | ipAddress (octets : Bytes)
  /-- A geometry. -/
  | wkb (bytes : Bytes)
  /-- A 32 bit integer. -/
  | integer (value : Int32)
  /-- A single precision float, by its bits. -/
  | single (bits : UInt32)
  /-- A compressed azimuth. -/
  | azimuth (raw : Int16)
  /-- A compressed declination. -/
  | declination (raw : Int16)
  /-- One byte. -/
  | byte (value : UInt8)
  deriving DecidableEq

namespace StoredValue

/-- What follows the length of a record, as far as the length says. -/
def payload (record : Bytes) : Except StoreError Bytes := do
  let length ← Sizing.lengthPrefixed record
  if length.toNat ≤ record.length then return (record.take length.toNat).drop 2
  throw (.corrupt (.shortRecord record.length length.toNat))

/-- The text of a record, whose last byte is its terminator. -/
def terminated (record : Bytes) : Except StoreError Bytes := do
  let text ← payload record
  if text = [] then throw (.corrupt .noTerminator)
  return text.dropLast

/-- The number in the first `width` bytes of a record. -/
def number (width : Nat) (record : Bytes) : Except StoreError Nat :=
  match Bytes.leading? width record with
  | some n => .ok n
  | none => .error (.corrupt .endOfData)

/-- The value that a record holds when read as a type. -/
def decode (record : Bytes) (type : ValueType) : Except StoreError StoredValue :=
  match type with
  | .string | .double | .boolean | .javascript => .text <$> terminated record
  | .ipAddress => .ipAddress <$> payload record
  | .wkb => .wkb <$> payload record
  | .integer => (fun n => .integer (Int32.ofNat n)) <$> number 4 record
  | .single => (fun n => .single (UInt32.ofNat n)) <$> number 4 record
  | .azimuth => (fun n => .azimuth (Int16.ofNat n)) <$> number 2 record
  | .declination => (fun n => .declination (Int16.ofNat n)) <$> number 2 record
  | .byte =>
    match record with
    | b :: _ => .ok (.byte b)
    | [] => .error (.corrupt .emptyByte)
  | .coordinate => .error (.unsupportedType .coordinate)
  | .object => .error (.unsupportedType .object)

/-- Degrees of the greatest azimuth. -/
def azimuthMax : Nat := 180

/-- Degrees of the greatest declination. -/
def declinationMax : Nat := 90

/-- The stored form of the greatest angle. -/
def angleSteps : Nat := 32767

/-- The degrees of a compressed angle, in double precision: the product with
the greatest angle, then the quotient. -/
def degrees (raw : Int16) (greatest : Nat) : Binary.Datum :=
  let product := Binary.double.rescale (Binary.double.ofInt raw.toInt) greatest 1
  Binary.double.rescale product 1 angleSteps

/-- The compressed form of an angle in degrees: the product with the greatest
stored form and the quotient, in double precision, rounded to the nearest
integer and brought into the range of 16 bits. -/
def compress (angle : Binary.Datum) (greatest : Nat) : Int16 :=
  let product := Binary.double.rescale angle angleSteps 1
  let steps := (Binary.double.rescale product 1 greatest).roundAway
  Int16.ofInt (steps.truncate (-32768) 32767)

end StoredValue

end RecordStore
