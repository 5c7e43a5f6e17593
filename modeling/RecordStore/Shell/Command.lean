import RecordStore.Collection.Open
import RecordStore.Collection.Records
import RecordStore.Shell.Fault
import RecordStore.Value.Compare

/-!
# Commands on a store

What can be asked of a store, and what is printed in answer.  A command
prints whole lines; one that fails may have printed some before.
-/

namespace RecordStore.Shell

/-- What can be asked of a store. -/
inductive Command
  /-- Compare the value at an offset with a text. -/
  | compare (offset : UInt32) (type : ValueType) (target : String)
  /-- Show the value at an offset. -/
  | get (offset : UInt32) (type : ValueType) (places? : Option Nat)
  /-- List the commands. -/
  | help
  /-- Describe the store. -/
  | info
  /-- Show all records, each as a value of one type. -/
  | records (type : ValueType)
  /-- Show a geometry given in hexadecimal. -/
  | wkt (hex : String) (places? : Option Nat)
  deriving DecidableEq, Repr

/-- A store that is open. -/
structure Store where
  collection : Collection
  storage : Storage

/-- What a command came to: the lines printed, and a fault if it failed. -/
structure Reply where
  lines : List String
  fault? : Option Fault
  deriving DecidableEq, Repr

namespace Reply

/-- One line, or a fault. -/
def ofLine (line : Except Fault String) : Reply :=
  match line with
  | .ok line => ⟨[line], none⟩
  | .error fault => ⟨[], some fault⟩

end Reply

namespace Store

/-- Opens the store with some contents, held as configured. -/
def ofContents (config : CollectionConfig) (contents : Bytes) : Except StoreError Store := do
  let pool ← HandlePool.create (max config.concurrency.toNat 1)
  let storage := Storage.over ⟨contents, true⟩ pool
  let (header, _) ← Header.ofFile storage.file 0 0 false
  let ((collection, _), storage) ← Collection.ofFile config header storage
  return ⟨collection, storage⟩

/-- Fetches the value at an offset and makes it into a line. -/
def withValue (store : Store) (offset : UInt32) (type : ValueType)
    (line : StoredValue → Except StoreError String) : Reply × Store :=
  match store.collection.value offset type store.storage with
  | (.error e, storage) => (.ofLine (.error (.ofStore e)), { store with storage })
  | (.ok none, storage) =>
    (.ofLine (.error (.plain "cache is exhausted")), { store with storage })
  | (.ok (some item), storage) =>
    let text := StoredValue.decode item.bytes type >>= line
    (.ofLine (text.mapError .ofStore), { store with storage := storage.release item })

/-- The lines that describe a store. -/
def description (store : Store) : List String :=
  let kinds := store.collection.kinds
  ["kind: " ++ kinds.headD "", s!"count: {store.collection.count}",
      s!"size: {store.collection.size}"] ++
    (kinds.drop 1).map ("then: " ++ ·) ++
    (match store.collection.cacheStats? store.storage with
      | some stats =>
        [s!"cache: {stats.resident} of {stats.capacity} resident, {stats.hits} hits, " ++
          s!"{stats.misses} misses, concurrency {stats.concurrency}"]
      | none => [])

/-- The lines that show all records as values of a type. -/
def listing (store : Store) (type : ValueType) : Reply × Store :=
  match type.sizing with
  | .error e => (.ofLine (.error (.ofStore e)), store)
  | .ok sizing =>
    let row := fun (address : UInt32) (bytes : Bytes) => do
      let text ← (← StoredValue.decode bytes type).toText FixedPoint.maxPlaces
      return s!"{address}: " ++ text
    let (report, storage) := (store.collection.walk sizing).takeAll row false store.storage
    let stopped := if report.exhausted then ["stopped: cache is exhausted"] else []
    (⟨report.rows ++ stopped, report.failure?.map .ofStore⟩, { store with storage })

end Store

/-- The bytes of a geometry's text: a buffer that holds most texts is tried
first, and one of the size that the text turned out to need after it.  The
terminator is left off. -/
def geometryText (wkb : Bytes) (places : Nat) : Except StoreError Bytes := do
  let (first, result) :=
    Geometry.convert wkb (Array.replicate StoredValue.usualLength 0) places
  let conversion ← result
  if !conversion.tooSmall then return first.buffer.toList.take (conversion.written - 1)
  let (second, result) := Geometry.convert wkb (Array.replicate conversion.written 0) places
  let conversion ← result
  return second.buffer.toList.take (conversion.written - 1)

/-- The text of a geometry given in hexadecimal. -/
def geometryLine (hex : String) (places : Nat) : Except Fault String := do
  let wkb ← bytesOf hex
  let text ← (geometryText wkb places).mapError .ofStore
  return Utf8.lossy text

/-- The lines that list the commands. -/
def commandList : List String :=
  ["  compare  Compare the value at this offset with text",
    "  get      Get the value at this offset",
    "  help     Interactive Help",
    "  info     Display store details",
    "  records  List store records, all read as one type",
    "  wkt      Convert hex encoded WKB to WKT",
    "  help     Print this message or the help of the given subcommand(s)"]

/-- Carries out a command. -/
def Command.run (command : Command) (store : Store) : Reply × Store :=
  match command with
  | .compare offset type target =>
    store.withValue offset type fun value => toString <$> value.compareWith target
  | .get offset type places? =>
    store.withValue offset type fun value => value.toText (places?.getD FixedPoint.maxPlaces)
  | .help => (⟨commandList, none⟩, store)
  | .info => (⟨store.description, none⟩, store)
  | .records type => store.listing type
  | .wkt hex places? =>
    (.ofLine (geometryLine hex (places?.getD FixedPoint.maxPlaces)), store)

end RecordStore.Shell
