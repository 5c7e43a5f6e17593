import RecordStore.Collection.Basic

/-!
# All records of a collection

A walk over a collection goes from record to record in order: by index in a
fixed-width collection, and in a variable-width one by offset, each record
starting where the one before it ends.  The sizing of the walk must therefore
fit every record.

A walk ends at the end of the collection, after a failure, when a cache is
full of held records, and after a record without bytes, which it would not
get past.
-/

namespace RecordStore

/-- A walk over the records of a collection. -/
structure Walk where
  collection : Collection
  sizing : Sizing
  /-- The address of the next record. -/
  next : UInt32
  /-- Whether the walk stopped because a record could not be had. -/
  exhausted : Bool
  /-- Whether the walk is over. -/
  done : Bool

/-- A step of a walk. -/
inductive WalkStep
  /-- The record at an address; it is held. -/
  | record (address : UInt32) (item : Item)
  /-- A record could not be read. -/
  | failed (e : StoreError)
  /-- The walk is over. -/
  | finished

namespace Collection

/-- A walk from the first record on. -/
def walk (c : Collection) (sizing : Sizing) : Walk :=
  ⟨c, sizing, 0, false, false⟩

end Collection

namespace Walk

/-- The address that no record of the collection has any more. -/
def limit (walk : Walk) : Nat :=
  if walk.collection.layout.isFixed then walk.collection.count else walk.collection.size

/-- How far the next address is from that of a record. -/
def stride (walk : Walk) (item : Item) : Nat :=
  if walk.collection.layout.isFixed then 1 else item.bytes.length

/-- The walk after a record.  The last address stands for all beyond it. -/
def past (walk : Walk) (item : Item) : Walk :=
  { walk with
    next := UInt32.ofNat (min (walk.next.toNat + walk.stride item) 4294967295)
    done := walk.stride item = 0 }

/-- Gets the next record. -/
def step (walk : Walk) (storage : Storage) : (WalkStep × Walk) × Storage :=
  if walk.done ∨ walk.limit ≤ walk.next.toNat then ((.finished, walk), storage)
  else
    match walk.collection.get ⟨walk.next, walk.sizing⟩ storage with
    | (.ok (some item), storage) => ((.record walk.next item, walk.past item), storage)
    | (.ok none, storage) =>
      ((.finished, { walk with exhausted := true, done := true }), storage)
    | (.error e, storage) => ((.failed e, { walk with done := true }), storage)

/-- What some steps of a walk came to. -/
structure Report (α : Type) where
  /-- What the records were made into, in order. -/
  rows : List α
  /-- The items of the records, if they are still held. -/
  held : List Item
  /-- The failure that ended the walk, if one did. -/
  failure? : Option StoreError
  /-- Whether the walk stopped because a record could not be had. -/
  exhausted : Bool

/-- Takes at most `most` records and makes each into a row; a record that
cannot be made into one ends the walk.  The items are released one by one, or
kept if `keep`. -/
def take {α : Type} (row : UInt32 → Bytes → Except StoreError α) (keep : Bool) :
    (most : Nat) → Walk → Storage → Report α × Storage
  | 0, walk, storage => (⟨[], [], none, walk.exhausted⟩, storage)
  | most + 1, walk, storage =>
    match walk.step storage with
    | ((.finished, walk), storage) => (⟨[], [], none, walk.exhausted⟩, storage)
    | ((.failed e, walk), storage) => (⟨[], [], some e, walk.exhausted⟩, storage)
    | ((.record address item, walk), storage) =>
      let storage := if keep then storage else storage.release item
      match row address item.bytes with
      | .error e => (⟨[], if keep then [item] else [], some e, walk.exhausted⟩, storage)
      | .ok first =>
        let (report, storage) := take row keep most walk storage
        ({ report with
            rows := first :: report.rows
            held := if keep then item :: report.held else report.held }, storage)

/-- Takes every record and makes each into a row. -/
def takeAll {α : Type} (walk : Walk) (row : UInt32 → Bytes → Except StoreError α) (keep : Bool)
    (storage : Storage) : Report α × Storage :=
  take row keep (walk.limit + 1) walk storage

end Walk

end RecordStore
