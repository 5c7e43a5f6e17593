import RecordStore.Storage.HandlePool
import RecordStore.Cache.Basic

/-!
# Storage shared by collections

Several collections may lie in one data file.  What changes while they are
used is the `Storage` they share: the file, the pool of handles on it, and
the caches, one for each collection that was opened with one.  A collection
itself never changes.

An `Access` is an operation on storage; it may fail, and the storage it
leaves counts also then.
-/

namespace RecordStore

/-- What changes while collections are used. -/
structure Storage where
  /-- The file that collections are read from. -/
  file : DataFile
  /-- Handles on the file. -/
  pool : HandlePool
  /-- The caches, keyed by the addresses of records. -/
  caches : Array (Cache UInt32)

/-- An operation on storage. -/
abbrev Access (α : Type) : Type :=
  ExceptT StoreError (StateM Storage) α

/-- One fetched record. -/
structure Item where
  /-- The bytes of the record. -/
  bytes : Bytes
  /-- The cache, and the reference to its node, that has to be released. -/
  pin? : Option (Nat × Cache.Pin)
  deriving DecidableEq

namespace Item

/-- Is a node of a cache held for the item? -/
def isCached (item : Item) : Bool :=
  item.pin?.isSome

/-- The bytes of an item as shown to people who look for faults: printable
ASCII as itself, the rest escaped. -/
def escaped (bytes : Bytes) : String :=
  String.join (bytes.map fun b =>
    let n := b.toNat
    if n = 10 then "\\n"
    else if n = 13 then "\\r"
    else if n = 9 then "\\t"
    else if n = 92 then "\\\\"
    else if n = 34 then "\\\""
    else if n = 0 then "\\0"
    else if 0x20 ≤ n ∧ n < 0x7F then String.singleton (Char.ofNat n)
    else "\\x" ++ String.ofList [Nat.digitChar (n / 16), Nat.digitChar (n % 16)])

/-- An item as shown to people who look for faults. -/
def describe (item : Item) : String :=
  "Item \x7b data: b\"" ++ escaped item.bytes ++ s!"\", cached: {item.isCached}" ++ " \x7d"

end Item

namespace Storage

/-- Storage over a file, with no handle open and no cache. -/
def «over» (file : DataFile) (pool : HandlePool) : Storage :=
  ⟨file, pool, #[]⟩

/-- Uses a handle, which is given back however the use ends.  Every use gives
its handle back before the next one begins, so there is always one to be
had; storage whose handles are all out refuses. -/
def withHandle {α : Type} (use : DataFile → Handle → Except StoreError α × Handle) : Access α :=
  fun storage =>
    match storage.pool.checkOut storage.file with
    | (.error e, pool) => (.error e, { storage with pool })
    | (.ok none, pool) =>
      (.error (.tooManyOperations pool.concurrency pool.concurrency), { storage with pool })
    | (.ok (some handle), pool) =>
      let (result, handle) := use storage.file handle
      (result, { storage with pool := pool.giveBack handle })

/-- The cache with a number. -/
def cache? (storage : Storage) (id : Nat) : Option (Cache UInt32) :=
  storage.caches[id]?

/-- Adds a cache, and yields its number. -/
def addCache (storage : Storage) (cache : Cache UInt32) : Nat × Storage :=
  (storage.caches.size, { storage with caches := storage.caches.push cache })

/-- Changes the cache with a number. -/
def setCache (storage : Storage) (id : Nat) (cache : Cache UInt32) : Storage :=
  { storage with caches := storage.caches.setIfInBounds id cache }

/-- Finishes with an item. -/
def release (storage : Storage) (item : Item) : Storage :=
  match item.pin? with
  | some (id, pin) =>
    match storage.cache? id with
    | some cache => storage.setCache id (cache.release pin)
    | none => storage
  | none => storage

end Storage

/-- Finishes with an item. -/
def Item.release (item : Item) : Access Unit :=
  fun storage => (.ok (), storage.release item)

end RecordStore
