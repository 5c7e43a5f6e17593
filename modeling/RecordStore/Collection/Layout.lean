import RecordStore.Collection.Header
import RecordStore.Key

/-!
# Where records lie

A `Layout` is the sizes of a collection, or of the part of one that is in
memory.  With a size for every record it is fixed-width and its records are
numbered; otherwise they are found by byte offset.

The size of a record is a quotient: the byte length over the number of
records, whatever remains.

A record never reaches past the end of its collection: `Layout.reach` is
asked before any byte is read.
-/

namespace RecordStore

/-- The sizes of a collection, or of a part of it. -/
structure Layout where
  /-- The number of records, zero if not known. -/
  count : Nat
  /-- The byte length of the records. -/
  size : Nat
  /-- The byte length of every record, zero if they differ. -/
  elementSize : Nat
  deriving DecidableEq, Repr

namespace Layout

/-- The sizes that a header says. -/
def ofHeader (header : Header) : Layout :=
  ⟨header.count.toNat, header.length.toNat, header.length.toNat / header.count.toNat⟩

/-- The sizes of as many whole records of a size as `size` bytes hold; of
records that differ if that size is zero. -/
def ofBytes (size elementSize : Nat) : Layout :=
  ⟨size / elementSize, size, elementSize⟩

/-- Have all records the same size? -/
def isFixed (layout : Layout) : Bool :=
  0 < layout.elementSize

/-- Succeeds if `length` bytes at `offset` are within the collection. -/
def reach (layout : Layout) (offset length : Nat) : Except StoreError Unit :=
  if offset + length ≤ layout.size then .ok () else .error (.corrupt (.pastEnd length offset))

/-- Offset and length of a numbered record.  A sizing that needs more than the
size of a record gets it, as far as the collection goes. -/
def fixedRecord (layout : Layout) (key : Key) : Except StoreError (Nat × Nat) := do
  if layout.count ≤ key.address.toNat then throw (.indexOutOfRange key.address)
  let offset := key.address.toNat * layout.elementSize
  let length := max layout.elementSize key.sizing.initialBytes.toNat
  layout.reach offset length
  return (offset, length)

/-- Offset and header length of a record that is found by offset. -/
def headerOf (layout : Layout) (key : Key) : Except StoreError (Nat × Nat) := do
  if layout.size ≤ key.address.toNat then throw (.offsetOutOfRange key.address)
  let initial := key.sizing.initialBytes.toNat
  layout.reach key.address.toNat initial
  return (key.address.toNat, initial)

/-- Length of a record that is found by offset, from its header. -/
def lengthOf (layout : Layout) (key : Key) (header : Bytes) : Except StoreError Nat := do
  let length ← key.sizing.fullLength header
  layout.reach key.address.toNat length.toNat
  return length.toNat

/-- Offset and length of the record of a key in bytes that are laid out so. -/
def locate (layout : Layout) (bytes : Bytes) (key : Key) : Except StoreError (Nat × Nat) :=
  if layout.isFixed then layout.fixedRecord key
  else do
    let (offset, initial) ← layout.headerOf key
    let length ← layout.lengthOf key ((bytes.drop offset).take initial)
    return (offset, length)

/-- The record of a key in bytes that are laid out so. -/
def record (layout : Layout) (bytes : Bytes) (key : Key) : Except StoreError Bytes := do
  let (offset, length) ← layout.locate bytes key
  return (bytes.drop offset).take length

/-- **Records stay inside.**  What is located lies within the collection. -/
theorem locate_within {layout : Layout} {bytes : Bytes} {key : Key} {offset length : Nat}
    (h : layout.locate bytes key = .ok (offset, length)) : offset + length ≤ layout.size := by
  unfold locate at h
  split at h
  · unfold fixedRecord reach at h
    simp only [bind, Except.bind, throw, throwThe, MonadExceptOf.throw, pure, Except.pure] at h
    grind
  · unfold headerOf lengthOf reach at h
    simp only [bind, Except.bind, throw, throwThe, MonadExceptOf.throw, pure, Except.pure] at h
    grind

end Layout

end RecordStore
