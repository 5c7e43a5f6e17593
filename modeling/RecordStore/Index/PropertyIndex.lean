import Std.Data.HashMap
import RecordStore.Collection.Basic
import RecordStore.Index.Record

/-!
# The first value of every property of every profile

To find the first value of a property in a profile one would have to go
through the values of the profile.  A `PropertyIndex` has looked already: it
is a table with a row for every profile id up to the greatest and a column
for every property.  Places without a value take no room.
-/

namespace RecordStore

/-- The first value of every property of every profile. -/
structure PropertyIndex where
  /-- The number of properties, which is that of columns. -/
  propertyCount : Nat
  /-- The number of profiles that were indexed. -/
  profileCount : Nat
  /-- The number of places in the table. -/
  size : Nat
  /-- How many values were entered, as far as 32 bits count: the number starts
  over after the greatest. -/
  counter : UInt32
  /-- The values that were entered, by place. -/
  table : Std.HashMap Nat UInt32

namespace PropertyIndex

/-- A table whose places would take more bytes than there are addresses for
cannot be had; a place takes eight. -/
def sizeLimit : Nat := 9223372036854775807 / 8

/-- The place of a property in the row of a profile. -/
def place (index : PropertyIndex) (profileId : UInt32) (property : Nat) : Nat :=
  profileId.toNat * index.propertyCount + property

/-- How many values were entered, by the counter. -/
def filled (index : PropertyIndex) : Nat :=
  index.counter.toNat

/-- The first value of a property in a profile, if it has one. -/
def lookup (index : PropertyIndex) (profileId property : UInt32) : Option UInt32 :=
  if property.toNat < index.propertyCount then
    index.table[index.place profileId property.toNat]?
  else none

/-- Enters the values of a profile from `next` on: a value is entered if its
property comes after that of every value entered before it in the profile. -/
def enter (values : Collection) (profileId : UInt32) (index : PropertyIndex) (next : Nat) :
    List UInt32 → Access PropertyIndex
  | [] => return index
  | valueIndex :: rest => do
    let record ← values.bytesOf ⟨valueIndex, ValueRecord.sizing⟩
    let property := (← ValueRecord.decode record).propertyIndex.toInt
    if next ≤ property ∧ property < index.propertyCount then
      let index := { index with
        counter := index.counter + 1
        table := index.table.insert (index.place profileId property.toNat) valueIndex }
      enter values profileId index (property.toNat + 1) rest
    else enter values profileId index next rest

/-- Enters the values of a profile. -/
def enterProfile (values : Collection) (index : PropertyIndex) (profile : Profile) :
    Access PropertyIndex := do
  if index.size < index.place profile.profileId index.propertyCount then
    throw (.corrupt (.profileAboveLast profile.profileId.toNat))
  enter values profile.profileId index 0 profile.values

/-- The profile offset with a number. -/
def offsetAt (offsets : Collection) (number : Nat) : Access ProfileOffset := do
  ProfileOffset.decode (← offsets.bytesOf ⟨UInt32.ofNat number, ProfileOffset.sizing⟩)

/-- Enters the profiles of the profile offsets from `number` on. -/
def enterFrom (offsets profiles values : Collection) (number : Nat) :
    (count : Nat) → PropertyIndex → Access PropertyIndex
  | 0, index => return index
  | count + 1, index => do
    let offset ← offsetAt offsets number
    let profile ← Profile.decode (← profiles.bytesOf ⟨offset.offset, Profile.sizing⟩)
    let index ← enterProfile values index profile
    enterFrom offsets profiles values (number + 1) count index

/-- An index of every profile that has a profile offset; the profile offsets
are in the order of the ids of the profiles. -/
def build (offsets profiles values : Collection) (propertyCount : UInt32) :
    Access PropertyIndex := do
  let greatest ←
    if offsets.count = 0 then pure 0
    else (fun offset => offset.profileId.toNat) <$> offsetAt offsets (offsets.count - 1)
  let size := (greatest + 1) * propertyCount.toNat
  if sizeLimit < size then throw (.insufficientMemory size)
  enterFrom offsets profiles values 0 offsets.count
    ⟨propertyCount.toNat, offsets.count, size, 0, ∅⟩

end PropertyIndex

end RecordStore
