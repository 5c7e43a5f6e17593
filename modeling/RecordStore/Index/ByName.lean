import RecordStore.Collection.Search
import RecordStore.Index.Record
import RecordStore.Value.Compare

/-!
# Values by name

The values of a property are in the order of their names, so the value with
a name is found by binary search.  Names are compared byte by byte.
-/

namespace RecordStore

namespace ValueRecord

/-- The name of a value, from the collection of strings. -/
def name (strings : Collection) (value : ValueRecord) : Access Bytes := do
  let offset := value.nameOffset.toInt
  if offset < 0 then throw (.corrupt (.nameOffset offset))
  let record ← strings.bytesOf ⟨UInt32.ofNat offset.toNat, Sizing.string⟩
  StoredValue.terminated record

/-- How the name of a value is ordered relative to a text. -/
def compareName (strings : Collection) (target record : Bytes) : Access Ordering := do
  let value ← decode record
  return Bytes.order (← value.name strings) target

/-- The index of a value with a name, among the values from `first` to `last`,
both included. -/
def indexByName (values strings : Collection) (first last : UInt32) (name : String) :
    Access (Option UInt32) :=
  fun storage =>
    let target := Utf8.encode name
    let compare := fun (_ : UInt32) (item : Item) ((state, storage) : Unit × Storage) =>
      let (result, storage) := compareName strings target item.bytes storage
      (result, (state, storage))
    match values.binarySearch first last sizing compare ((), storage) with
    | (.error e, (_, storage)) => (.error e, storage)
    | (.ok (.found index item), (_, storage)) => (.ok (some index), storage.release item)
    | (.ok .absent, (_, storage)) => (.ok none, storage)
    | (.ok .exhausted, (_, storage)) => (.error (values.exhausted storage), storage)

end ValueRecord

end RecordStore
