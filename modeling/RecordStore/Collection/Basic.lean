import RecordStore.Collection.Layout
import RecordStore.Storage.Basic

/-!
# Collections of records

A collection is served by up to two **tiers**.  The first is the part of it
that is resident in memory; the second reads from the data file, through a
cache or directly.  A record that the first tier does not hold as a whole is
the second one's.

Records come as an `Item`.  One that came through a cache holds its node
until it is released; `none` says that every node was held and the record
could not be loaded.
-/

namespace RecordStore

/-- Bytes from the start of a collection that are in memory. -/
structure Resident where
  bytes : Bytes
  /-- What the bytes cover, perhaps less than the collection. -/
  layout : Layout
  deriving DecidableEq, Repr

/-- Where the records of a collection are in the data file. -/
structure Source where
  /-- The position of the first record. -/
  start : UInt64
  /-- The number of the cache that records come through, if they do. -/
  cache? : Option Nat
  deriving DecidableEq, Repr

/-- What serves the records of a collection. -/
inductive Tiers
  /-- Memory holds all of them. -/
  | memory (resident : Resident)
  /-- Memory holds the first of them, and the file serves the others. -/
  | both (resident : Resident) (source : Source)
  /-- The file serves all of them. -/
  | file (source : Source)
  deriving DecidableEq, Repr

/-- A collection of records. -/
structure Collection where
  layout : Layout
  tiers : Tiers
  deriving DecidableEq, Repr

namespace Resident

/-- Bytes in memory that hold whole records of a size, or records that differ
if it is zero. -/
def ofBytes (bytes : Bytes) (elementSize : Nat) : Resident :=
  ⟨bytes, Layout.ofBytes bytes.length elementSize⟩

/-- Is the record of a key in memory as a whole? -/
def holds (resident : Resident) (key : Key) : Bool :=
  (resident.layout.locate resident.bytes key).isOk

/-- The record of a key in memory. -/
def record (resident : Resident) (key : Key) : Except StoreError Bytes :=
  resident.layout.record resident.bytes key

end Resident

namespace Handle

/-- Reads `count` bytes of a collection that starts at `start`, from `offset`
on. -/
def readAt (handle : Handle) (file : DataFile) (start : UInt64) (offset count : Nat) :
    Except StoreError Bytes × Handle :=
  match handle.seek (start + UInt64.ofNat offset).toNat with
  | .error e => (.error e, handle)
  | .ok handle => handle.readExactly file count

/-- Reads a record whose length follows from its header: the header, and what
of the record comes after it. -/
def readSized (handle : Handle) (file : DataFile) (start : UInt64) (offset initial : Nat)
    (length : Bytes → Except StoreError Nat) : Except StoreError Bytes × Handle :=
  match handle.readAt file start offset initial with
  | (.error e, handle) => (.error e, handle)
  | (.ok header, handle) =>
    match length header with
    | .error e => (.error e, handle)
    | .ok length =>
      match handle.readExactly file (length - initial) with
      | (.error e, handle) => (.error e, handle)
      | (.ok rest, handle) => (.ok (header.take length ++ rest), handle)

end Handle

namespace Source

/-- Reads the record of a key from the data file. -/
def stream (source : Source) (layout : Layout) (key : Key) : Access Bytes := do
  if layout.isFixed then
    let (offset, length) ← layout.fixedRecord key
    Storage.withHandle fun file handle => handle.readAt file source.start offset length
  else
    let (offset, initial) ← layout.headerOf key
    Storage.withHandle fun file handle =>
      handle.readSized file source.start offset initial (layout.lengthOf key)

/-- Gets the record of a key, through the cache if there is one. -/
def get (source : Source) (layout : Layout) (key : Key) : Access (Option Item) :=
  fun storage =>
    match source.cache?.bind fun id => (storage.cache? id).map (id, ·) with
    | none => ((fun bytes => some ⟨bytes, none⟩) <$> source.stream layout key) storage
    | some (id, cache) =>
      let ((result, cache), storage) :=
        cache.get key.address (source.stream layout key).run storage
      (result.map (·.map fun ref => ⟨ref.data, some (id, ref.pin)⟩), storage.setCache id cache)

end Source

namespace Collection

/-- The number of records, zero if not known. -/
def count (c : Collection) : Nat :=
  c.layout.count

/-- The byte length of the records. -/
def size (c : Collection) : Nat :=
  c.layout.size

/-- The byte length of every record, zero if they differ. -/
def elementSize (c : Collection) : Nat :=
  c.layout.elementSize

/-- The second tier, or the only one if that reads the file. -/
def source? (c : Collection) : Option Source :=
  match c.tiers with
  | .memory _ => none
  | .both _ source => some source
  | .file source => some source

/-- The names of the tiers, the first one first. -/
def kinds (c : Collection) : List String :=
  let file (source : Source) := if source.cache?.isSome then "cache" else "file"
  match c.tiers with
  | .memory _ => ["memory"]
  | .both _ source => ["memory", file source]
  | .file source => [file source]

/-- What is known of the cache of a collection, if it has one. -/
def cacheStats? (c : Collection) (storage : Storage) : Option Cache.Stats := do
  let source ← c.source?
  let cache ← storage.cache? (← source.cache?)
  return cache.stats

/-- Gets the record of a key.  None if it has to come through the cache and
every node it could be loaded into is held. -/
def get (c : Collection) (key : Key) : Access (Option Item) :=
  match c.tiers with
  | .memory resident => (fun bytes => some ⟨bytes, none⟩) <$> resident.record key
  | .both resident source =>
    if resident.holds key then (fun bytes => some ⟨bytes, none⟩) <$> resident.record key
    else source.get c.layout key
  | .file source => source.get c.layout key

/-- The error for a record that could not be had because every node it could
be loaded into is held. -/
def exhausted (c : Collection) (storage : Storage) : StoreError :=
  match c.cacheStats? storage with
  | some stats => .tooManyOperations stats.capacity.toNat stats.concurrency.toNat
  | none => .tooManyOperations 0 0

/-- Gets the record of a key; that it could not be had is an error. -/
def fetch (c : Collection) (key : Key) : Access Item := do
  match ← c.get key with
  | some item => return item
  | none => throw (c.exhausted (← getThe Storage))

/-- The bytes of the record of a key; nothing is held for them. -/
def bytesOf (c : Collection) (key : Key) : Access Bytes := do
  let item ← c.fetch key
  item.release
  return item.bytes

/-- The record at an address as a 32 bit integer. -/
def integer (c : Collection) (address : UInt32) : Access Int32 := do
  let bytes ← c.bytesOf ⟨address, Sizing.integer⟩
  match Bytes.leading? 4 bytes with
  | some n => return Int32.ofNat n
  | none => throw (.corrupt .endOfData)

/-- Gets the record of a value of a type. -/
def value (c : Collection) (address : UInt32) (type : ValueType) : Access (Option Item) := do
  c.get ⟨address, ← type.sizing⟩

end Collection

end RecordStore
