import RecordStore.Bytes
import RecordStore.StoreError

/-!
# Keys of records

A record is addressed by index in a fixed-width collection and by byte
offset in a variable-width one.  How long it is is said by a `Sizing`:
either a fixed number of bytes, or a header of so many bytes from which the
full length follows.

Two keys are the same key if they have the same address, whatever their
sizings.
-/

namespace RecordStore

/-- How long records are. -/
structure Sizing where
  /-- The name of the kind of record. -/
  name : String
  /-- How many bytes are read before the length is known. -/
  initialBytes : UInt32
  /-- The full length of a record from its first bytes, where they decide it. -/
  fullLength? : Option (Bytes → Except StoreError UInt32)

namespace Sizing

/-- Records of `size` bytes. -/
def fixed (name : String) (size : UInt32) : Sizing :=
  ⟨name, size, none⟩

/-- Records whose first `initialBytes` bytes decide their length. -/
def headed (name : String) (initialBytes : UInt32)
    (fullLength : Bytes → Except StoreError UInt32) : Sizing :=
  ⟨name, initialBytes, some fullLength⟩

/-- Does the length depend on the record? -/
def isVariable (sizing : Sizing) : Bool :=
  sizing.fullLength?.isSome

/-- The full length of a record that starts with `header`. -/
def fullLength (sizing : Sizing) (header : Bytes) : Except StoreError UInt32 :=
  match sizing.fullLength? with
  | some length => length header
  | none => .ok sizing.initialBytes

/-- The 16 bit integer that two bytes hold. -/
def int16 (bytes : Bytes) : Option Int :=
  (Bytes.leading? 2 bytes).map fun n => (Int16.ofNat n).toInt

/-- The full length of a record that starts with its length in 16 bits; those
two bytes are not counted by it. -/
def lengthPrefixed (header : Bytes) : Except StoreError UInt32 :=
  match int16 header with
  | none => .error (.corrupt .endOfData)
  | some length =>
    if length < 0 then .error (.corrupt (.negativeLength length))
    else .ok (UInt32.ofNat (2 + length.toNat))

/-- One byte. -/
def byte : Sizing := fixed "byte" 1

/-- A 16 bit integer. -/
def short : Sizing := fixed "short" 2

/-- A 32 bit integer. -/
def integer : Sizing := fixed "integer" 4

/-- A single precision float. -/
def single : Sizing := fixed "float" 4

/-- Text; its length counts the terminator. -/
def string : Sizing := headed "string" 2 lengthPrefixed

/-- Bytes after their length. -/
def byteArray : Sizing := headed "byte array" 2 lengthPrefixed

end Sizing

/-- The address of a record and how to size it. -/
structure Key where
  /-- An index in a fixed-width collection, a byte offset in a variable-width
  one. -/
  address : UInt32
  /-- How long the record is. -/
  sizing : Sizing

namespace Key

/-- Keys are told apart by address alone. -/
instance : BEq Key where
  beq a b := a.address == b.address

instance : Hashable Key where
  hash key := hash key.address

instance : ReflBEq Key where
  rfl := by simp [BEq.beq]

end Key

/-- How records of a type of value are sized; an error for a type that no
record holds. -/
def ValueType.sizing : ValueType → Except StoreError Sizing
  | .string | .double | .boolean | .javascript => .ok Sizing.string
  | .integer => .ok Sizing.integer
  | .single => .ok Sizing.single
  | .byte => .ok Sizing.byte
  | .ipAddress | .wkb => .ok Sizing.byteArray
  | .declination | .azimuth => .ok Sizing.short
  | .coordinate => .error (.unsupportedType .coordinate)
  | .object => .error (.unsupportedType .object)

end RecordStore
