import RecordStore.ByteReader
import RecordStore.Storage.DataFile

/-!
# Headers of collections

A collection is preceded by four bytes that hold either the number of its
records or their total byte length.  Which of the two is known to whoever
reads the file; the file does not say.
-/

namespace RecordStore

/-- Where a collection starts and how big it is. -/
structure Header where
  /-- Position of the first record. -/
  start : UInt64
  /-- Byte length of the records. -/
  length : UInt32
  /-- Number of records, zero if not known. -/
  count : UInt32
  deriving DecidableEq, Repr

namespace Header

/-- The header of a collection whose four bytes hold `value`: a number of
records of `elementSize` bytes if `isCount`, else a byte length. -/
def ofValue (start : UInt64) (value elementSize : UInt32) (isCount : Bool) :
    Except StoreError Header :=
  if isCount then
    if value.toNat * elementSize.toNat < 4294967296 then .ok ⟨start, value * elementSize, value⟩
    else .error (.corrupt (.recordTotal value.toNat elementSize.toNat))
  else if elementSize = 0 then .ok ⟨start, value, 0⟩
  else .ok ⟨start, value, value / elementSize⟩

/-- Reads a header from resident bytes, and leaves the reader at the first
record. -/
def ofReader (reader : ByteReader) (elementSize : UInt32) (isCount : Bool) :
    Except StoreError (Header × ByteReader) := do
  let (value, reader) ← reader.word
  return (← ofValue (UInt64.ofNat reader.position) value elementSize isCount, reader)

/-- Reads a header at a position of a file, and yields the position of the
first record. -/
def ofFile (file : DataFile) (position : Nat) (elementSize : UInt32) (isCount : Bool) :
    Except StoreError (Header × Nat) :=
  match Bytes.leading? 4 (file.contents.drop position) with
  | none => .error .readFailed
  | some value => do
    let start := position + 4
    return (← ofValue (UInt64.ofNat start) (UInt32.ofNat value) elementSize isCount, start)

end Header

end RecordStore
