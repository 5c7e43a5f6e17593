import RecordStore.Collection.Basic
import RecordStore.Cache.Mix

/-!
# Opening collections

A collection is opened over resident bytes, or from a data file as a
configuration says: so many bytes of it are loaded, rounded down to whole
records, and the rest is read through a cache or directly.  Either way what
was read from is left at the end of the collection, where the header of the
next one is.
-/

namespace RecordStore

/-- How a collection read from a file is held. -/
structure CollectionConfig where
  /-- Bytes that are loaded when the collection is opened. -/
  loaded : UInt32
  /-- Nodes of the cache for records that are not loaded; zero for no cache. -/
  capacity : UInt32
  /-- Shards of the cache. -/
  concurrency : UInt16
  deriving DecidableEq, Repr, Inhabited

namespace CollectionConfig

/-- All of the collection in memory. -/
def inMemory : CollectionConfig :=
  ⟨4294967295, 0, 1⟩

/-- Records read from the file through a cache. -/
def cached (capacity : UInt32) (concurrency : UInt16) : CollectionConfig :=
  ⟨0, capacity, concurrency⟩

/-- Records read from the file whenever they are asked for. -/
def streamed (concurrency : UInt16) : CollectionConfig :=
  ⟨0, 0, concurrency⟩

/-- How many bytes of a collection are loaded: as many as configured and
there, in whole records. -/
def budget (config : CollectionConfig) (layout : Layout) : Nat :=
  let most := min config.loaded.toNat layout.size
  if layout.isFixed then most - most % layout.elementSize else most

/-- Is there a cache for records that are not loaded? -/
def hasCache (config : CollectionConfig) : Bool :=
  0 < config.capacity && 0 < config.concurrency

end CollectionConfig

namespace Collection

/-- The number that decides the shard of an address. -/
def spread (address : UInt32) : UInt64 :=
  (Cache.mix address).toUInt64

/-- A collection over resident bytes.  The reader has to be at the first
record and is moved past the last. -/
def ofReader (reader : ByteReader) (header : Header) :
    Except StoreError (Collection × ByteReader) := do
  if reader.position ≠ header.start.toNat then
    throw (.invalid (.readerPosition reader.position header.start.toNat))
  let layout := Layout.ofHeader header
  let (bytes, reader) ← reader.take layout.size
  return (⟨layout, .memory (Resident.ofBytes bytes layout.elementSize)⟩, reader)

/-- The bytes to be loaded from a file: none, or as many as there are to be.
-/
def load (file : DataFile) (start : UInt64) (count : Nat) : Except StoreError (Option Bytes) :=
  if count = 0 then .ok none
  else some <$> (Handle.readAt ⟨0, 0⟩ file start 0 count).1

/-- Makes the tier that reads a file, with a cache if there is to be one. -/
def openSource (config : CollectionConfig) (start : UInt64) (storage : Storage) :
    Except StoreError (Source × Storage) := do
  if config.hasCache then
    let cache ← Cache.create config.capacity config.concurrency spread
    let (id, storage) := storage.addCache cache
    return (⟨start, some id⟩, storage)
  return (⟨start, none⟩, storage)

/-- A collection from the data file, held as configured, and the position of
the end of the collection. -/
def ofFile (config : CollectionConfig) (header : Header) (storage : Storage) :
    Except StoreError ((Collection × Nat) × Storage) := do
  let layout := Layout.ofHeader header
  let loaded ← load storage.file header.start (config.budget layout)
  let resident? := loaded.map fun bytes => Resident.ofBytes bytes layout.elementSize
  let whole := resident?.filter fun resident => resident.bytes.length = layout.size
  let (tiers, storage) ←
    match whole, resident? with
    | some resident, _ => pure (Tiers.memory resident, storage)
    | none, some resident => do
      let (source, storage) ← openSource config header.start storage
      pure (Tiers.both resident source, storage)
    | none, none => do
      let (source, storage) ← openSource config header.start storage
      pure (Tiers.file source, storage)
  let done ← Handle.seek ⟨0, 0⟩ (header.start + UInt64.ofNat layout.size).toNat
  return ((⟨layout, tiers⟩, done.position), storage)

end Collection

end RecordStore
