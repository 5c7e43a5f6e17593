import RecordStore.Key

/-!
# Records of a data set

A data set describes profiles, each of which lists the indices of its values
in the order of their properties.

* A **profile offset** has 8 bytes: the id of a profile and its byte offset.
* A **profile** has a component index of one byte, its id, the number of its
  values, and their indices.
* A **value** has 14 bytes: a property index of 16 bits, and the offsets of
  its name, its description and its url.
-/

namespace RecordStore

/-- Where the profile with an id is. -/
structure ProfileOffset where
  profileId : UInt32
  /-- The offset of the profile in its collection. -/
  offset : UInt32
  deriving DecidableEq, Repr

/-- A profile. -/
structure Profile where
  /-- The component that the profile belongs to. -/
  componentIndex : UInt8
  profileId : UInt32
  /-- How many values it says it has. -/
  valueCount : UInt32
  /-- The indices of its values, in the order of their properties. -/
  values : List UInt32
  deriving DecidableEq, Repr

/-- A value of a property. -/
structure ValueRecord where
  /-- The property that the value belongs to. -/
  propertyIndex : Int16
  /-- The offset of the name in the collection of strings. -/
  nameOffset : Int32
  /-- The offset of the description in the collection of strings. -/
  descriptionOffset : Int32
  /-- The offset of the url in the collection of strings. -/
  urlOffset : Int32
  deriving DecidableEq, Repr

namespace Bytes

/-- The numbers in fields of the given widths, one after another. -/
def fields? : (widths : List Nat) → Bytes → Option (List Nat)
  | [], _ => some []
  | width :: widths, bytes => do
    let (front, rest) ← split? width bytes
    return ofLittleEndian front :: (← fields? widths rest)

/-- Numbers of four bytes, as many as there are. -/
def words : Bytes → List UInt32
  | a :: b :: c :: d :: rest => UInt32.ofNat (ofLittleEndian [a, b, c, d]) :: words rest
  | _ => []

end Bytes

namespace ProfileOffset

/-- How profile offsets are sized. -/
def sizing : Sizing :=
  Sizing.fixed "profile offset" 8

/-- The profile offset that a record holds. -/
def decode (record : Bytes) : Except StoreError ProfileOffset :=
  match Bytes.fields? [4, 4] record with
  | some [id, offset] => .ok ⟨UInt32.ofNat id, UInt32.ofNat offset⟩
  | _ => .error (.corrupt .endOfData)

end ProfileOffset

namespace Profile

/-- How many bytes a profile has before the indices of its values. -/
def headerLength : Nat := 9

/-- The fields of a profile before the indices of its values. -/
def header (record : Bytes) : Except StoreError Profile :=
  match Bytes.fields? [1, 4, 4] record with
  | some [component, id, count] =>
    .ok ⟨UInt8.ofNat component, UInt32.ofNat id, UInt32.ofNat count, []⟩
  | _ => .error (.corrupt .endOfData)

/-- The length of a profile that starts with `record`. -/
def length (record : Bytes) : Except StoreError UInt32 := do
  let count := (← header record).valueCount.toNat
  let length := headerLength + 4 * count
  if length < 4294967296 then return UInt32.ofNat length
  throw (.corrupt (.valueCount count))

/-- How profiles are sized. -/
def sizing : Sizing :=
  Sizing.headed "profile" 9 length

/-- The profile that a record holds. -/
def decode (record : Bytes) : Except StoreError Profile := do
  let profile ← header record
  let needed := (← length record).toNat
  if needed ≤ record.length then
    return { profile with values := Bytes.words ((record.take needed).drop headerLength) }
  throw (.corrupt (.shortProfile record.length needed))

end Profile

namespace ValueRecord

/-- How values are sized. -/
def sizing : Sizing :=
  Sizing.fixed "value" 14

/-- The value that a record holds. -/
def decode (record : Bytes) : Except StoreError ValueRecord :=
  match Bytes.fields? [2, 4, 4, 4] record with
  | some [property, name, description, url] =>
    .ok ⟨Int16.ofNat property, Int32.ofNat name, Int32.ofNat description, Int32.ofNat url⟩
  | _ => .error (.corrupt .endOfData)

end ValueRecord

end RecordStore
