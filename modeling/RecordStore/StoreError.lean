import RecordStore.ValueType
import RecordStore.Geometry.Kind

/-!
# What can go wrong

Every fallible operation on a store reports a `StoreError`: a cause, and a
wording for people in `StoreError.message`.  Outcomes that are no failures —
a cache whose nodes are all held, a search that finds nothing — are values,
never errors.
-/

namespace RecordStore

/-- How stored bytes fall short of the shape they should have. -/
inductive Corruption
  /-- A number needs more bytes than there are. -/
  | endOfData
  /-- A length below zero. -/
  | negativeLength (length : Int)
  /-- A move forward of `count` bytes where only `remaining` are left. -/
  | shortAdvance (count remaining : Nat)
  /-- A record whose length says it is longer than it is. -/
  | shortRecord (present needed : Nat)
  /-- Text without room for its terminator. -/
  | noTerminator
  /-- A byte record without a byte. -/
  | emptyByte
  /-- An address of a length no address has. -/
  | addressLength (length : Nat)
  /-- More records than a collection can be long. -/
  | recordTotal (count elementSize : Nat)
  /-- A record that reaches beyond its collection. -/
  | pastEnd (length offset : Nat)
  /-- A profile with more values than a record can hold. -/
  | valueCount (count : Nat)
  /-- A profile whose value count says it is longer than it is. -/
  | shortProfile (present needed : Nat)
  /-- A profile whose id is above that of the last profile offset. -/
  | profileAboveLast (id : Nat)
  /-- A name at a place below zero. -/
  | nameOffset (offset : Int)
  /-- A geometry of `length` bytes that needs `needed` more at `position`. -/
  | geometryEnds (length needed position : Nat)
  deriving DecidableEq, Repr

/-- Why well-formed input is not acceptable. -/
inductive Refusal
  /-- A pool that may open no handle. -/
  | poolConcurrency
  /-- A reader that is not where the collection starts. -/
  | readerPosition (position start : Nat)
  /-- A byte order flag that is neither order. -/
  | byteOrder (flag : Nat)
  /-- Geometries inside each other deeper than the limit. -/
  | nesting (limit : Nat)
  /-- An unknown thousands digit. -/
  | coordinateType (digit : Nat)
  /-- An unknown kind of geometry. -/
  | geometryCode (code : Nat)
  /-- A member of a kind that the geometry around it does not have. -/
  | unexpectedKind (expected found : Geometry.Kind)
  /-- A kind of geometry without a text form. -/
  | reservedKind (kind : Geometry.Kind)
  /-- A reason given by the caller's own loader or comparison. -/
  | other (reason : String)
  deriving DecidableEq, Repr

/-- Why an operation on a store failed. -/
inductive StoreError
  /-- An index outside the collection. -/
  | indexOutOfRange (index : UInt32)
  /-- A byte offset outside the collection. -/
  | offsetOutOfRange (offset : UInt32)
  /-- The data file has no such position. -/
  | seekFailed
  /-- The data file ends too early. -/
  | readFailed
  /-- The data file cannot be opened. -/
  | openFailed
  /-- No memory for a table of this size. -/
  | insufficientMemory (size : Nat)
  /-- The type is of no use here. -/
  | unsupportedType (type : ValueType)
  /-- No type has this code. -/
  | unknownTypeCode (code : Nat)
  /-- The stored bytes do not have the expected shape. -/
  | corrupt (what : Corruption)
  /-- The input is well formed but not acceptable. -/
  | invalid (why : Refusal)
  /-- A cache whose shards would hold fewer nodes than there are concurrent
  operations, or one whose nodes are all held. -/
  | tooManyOperations (capacity concurrency : Nat)
  deriving DecidableEq, Repr

/-- The wording of a corruption. -/
def Corruption.message : Corruption → String
  | .endOfData => "io error: unexpected end of file"
  | .negativeLength length => s!"length: {length}"
  | .shortAdvance count remaining => s!"cannot advance {count} bytes, {remaining} remain"
  | .shortRecord present needed => s!"{present} bytes, {needed} needed"
  | .noTerminator => "string without a terminator"
  | .emptyByte => "empty byte record"
  | .addressLength length => s!"IP address of {length} bytes"
  | .recordTotal count elementSize => s!"{count} records of {elementSize} bytes is too long"
  | .pastEnd length offset =>
    s!"record of {length} bytes at: {offset} runs past the end of the collection"
  | .valueCount count => s!"value count: {count}"
  | .shortProfile present needed => s!"profile of {present} bytes, {needed} needed"
  | .profileAboveLast id => s!"profile id: {id} is above the last profile offset"
  | .nameOffset offset => s!"name offset: {offset}"
  | .geometryEnds length needed position =>
    s!"WKB ends at: {length}, {needed} more bytes needed at: {position}"

/-- The wording of a refusal. -/
def Refusal.message : Refusal → String
  | .poolConcurrency => "file pool concurrency must be > 0"
  | .readerPosition position start =>
    s!"reader is at: {position} but the collection starts at: {start}"
  | .byteOrder flag => s!"WKB byte order: {flag}"
  | .nesting limit => s!"WKB geometries nested more than {limit} deep"
  | .coordinateType digit => s!"WKB coordinate type: {digit}"
  | .geometryCode code => s!"WKB geometry code: {code}"
  | .unexpectedKind expected found => s!"expected {expected.name} but found {found.name}"
  | .reservedKind kind => s!"{kind.name} can't be written as WKT"
  | .other reason => reason

namespace StoreError

/-- The wording of an error. -/
def message : StoreError → String
  | .indexOutOfRange index => s!"index: {index.toNat} is outside the collection"
  | .offsetOutOfRange offset => s!"offset: {offset.toNat} is outside the collection"
  | .seekFailed => "could not seek in collection file"
  | .readFailed => "could not read from collection file"
  | .openFailed => "could not open collection file"
  | .insufficientMemory size => s!"could not allocate: {size} bytes"
  | .unsupportedType type => s!"stored value type: {type.name} is not supported"
  | .unknownTypeCode code => s!"stored value type code: {code} is not known"
  | .corrupt what => "corrupt data: " ++ what.message
  | .invalid why => "invalid input: " ++ why.message
  | .tooManyOperations capacity concurrency =>
    s!"capacity: {capacity} is too small for concurrency: {concurrency}"

/-- The wording of what lies behind an error, where the system reports it. -/
def cause? : StoreError → Option String
  | .seekFailed => some "Invalid argument (os error 22)"
  | .readFailed => some "failed to fill whole buffer"
  | .openFailed => some "No such file or directory (os error 2)"
  | _ => none

end StoreError

end RecordStore
