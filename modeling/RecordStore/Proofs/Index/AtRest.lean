import Mathlib
import RecordStore.Proofs.Collection.AnyHandle
import RecordStore.Proofs.Index.Leaving

/-!
# Handles come back

`Operation` are the things that can be done with collections, on their own or
one after another, and `Used` are the states of storage that they lead to, while
collections are opened and the file changes, or is deleted.

In each of them the pool is at rest, so no operation ever waits for a handle, not
even for the ones it needs while it is carried out, and none depends on where the
one handle was left (`handles_at_rest`).
-/

namespace RecordStore

/-- What can be done with collections in some storage: with any of them, any
number of times, and depending on what came of it before.  Records may be
compared in a way that uses collections as well. -/
inductive Operation : {α : Type} → (Storage → α × Storage) → Prop
  | done {α : Type} (a : α) : Operation fun storage => (a, storage)
  | stats (c : Collection) : Operation fun storage => (c.cacheStats? storage, storage)
  | get (c : Collection) (key : Key) : Operation (c.get key).run
  | fetch (c : Collection) (key : Key) : Operation (c.fetch key).run
  | release (item : Item) : Operation fun storage => ((), storage.release item)
  | value (c : Collection) (address : UInt32) (type : ValueType) :
      Operation (c.value address type).run
  | integer (c : Collection) (address : UInt32) : Operation (c.integer address).run
  | search {σ : Type} (c : Collection) (lower upper : UInt32) (sizing : Sizing)
      {compare : UInt32 → Item → σ × Storage → Except StoreError Ordering × (σ × Storage)}
      (hcompare : ∀ index item state, Operation (restate (compare index item) state)) (state : σ) :
      Operation (restate (c.binarySearch lower upper sizing compare) state)
  | byName (values strings : Collection) (first last : UInt32) (name : String) :
      Operation (ValueRecord.indexByName values strings first last name).run
  | build (offsets profiles values : Collection) (propertyCount : UInt32) :
      Operation (PropertyIndex.build offsets profiles values propertyCount).run
  | step (walk : Walk) : Operation walk.step
  | take {α : Type} (row : UInt32 → Bytes → Except StoreError α) (keep : Bool) (most : Nat)
      (walk : Walk) : Operation (Walk.take row keep most walk)
  | andThen {α β : Type} {op : Storage → α × Storage} {rest : α → Storage → β × Storage}
      (h : Operation op) (hrest : ∀ a, Operation (rest a)) :
      Operation fun storage => rest (op storage).1 (op storage).2

/-- The states of storage that using collections leads to, from storage over a
file of which nothing is open yet.  The file may be changed at any time. -/
inductive Used : Storage → Prop
  | start (file : DataFile) {concurrency : Nat} {pool : HandlePool}
      (hpool : HandlePool.create concurrency = .ok pool) : Used (.over file pool)
  | opened {storage after : Storage} (h : Used storage) {config : CollectionConfig}
      {header : Header} {c : Collection} {position : Nat}
      (hopen : Collection.ofFile config header storage = .ok ((c, position), after)) : Used after
  | changed {storage : Storage} (h : Used storage) (file : DataFile) : Used { storage with file }
  | operation {α : Type} {storage : Storage} (h : Used storage) {op : Storage → α × Storage}
      (hop : Operation op) : Used (op storage).2

/-! ## Fetching and names -/

/-- How fetching a record goes on after the get. -/
def fetched (c : Collection) (result : Except StoreError (Option Item)) (storage : Storage) :
    Except StoreError Item × Storage :=
  match result with
  | .ok (some item) => (.ok item, storage)
  | .ok none => (.error (c.exhausted storage), storage)
  | .error e => (.error e, storage)

theorem run_fetch (c : Collection) (key : Key) (storage : Storage) :
    (c.fetch key).run storage =
      fetched c ((c.get key).run storage).1 ((c.get key).run storage).2 := by
  have hget : (c.get key).run storage = c.get key storage := rfl
  show (c.fetch key) storage = _
  unfold Collection.fetch
  simp only [bind, ExceptT.bind, ExceptT.mk, StateT.bind, hget]
  rcases c.get key storage with ⟨e | _ | item, after⟩ <;> rfl

theorem unaware_fetch (c : Collection) (key : Key) : Unaware (c.fetch key).run := by
  refine ((unaware_get c key).andThen (fetched c) ?_).congr (run_fetch c key)
  rintro (e | _ | item)
  · exact unaware_done _
  · exact unaware_exhausted c _
  · exact unaware_done _

theorem unaware_value (c : Collection) (address : UInt32) (type : ValueType) :
    Unaware (c.value address type).run :=
  (unaware_lift type.sizing).bind fun _ => unaware_get c _

theorem unaware_integer (c : Collection) (address : UInt32) :
    Unaware (c.integer address).run := by
  refine (unaware_bytesOf c _).bind fun bytes => ?_
  split
  · exact unaware_pure _
  · exact unaware_throw _

theorem unaware_compareName (strings : Collection) (target record : Bytes) :
    Unaware (ValueRecord.compareName strings target record).run := by
  refine (unaware_lift _).bind fun value => ?_
  have hname : Unaware (value.name strings).run := by
    refine unaware_ite (unaware_throw _) ?_
    exact (unaware_bytesOf strings _).bind fun record => unaware_lift _
  exact hname.bind fun name => unaware_pure _

/-- **Looking for a name** compares by fetching from another collection. -/
theorem unaware_indexByName (values strings : Collection) (first last : UInt32) (name : String) :
    Unaware (ValueRecord.indexByName values strings first last name).run := by
  have hsearch : Unaware (restate (values.binarySearch first last ValueRecord.sizing
      (comparison strings (Utf8.encode name))) ()) := by
    refine unaware_binarySearch ?_ first last ()
    intro index item state
    exact (unaware_compareName strings (Utf8.encode name) item.bytes).andThen
      (fun result storage => ((result, state), storage)) fun result => unaware_done _
  refine (hsearch.andThen (named values) ?_).congr
    (run_indexByName values strings first last name)
  rintro ⟨e | ⟨index, item⟩ | _ | _, _⟩
  · exact unaware_done _
  · exact (unaware_done _).afterRelease item
  · exact unaware_done _
  · exact unaware_exhausted values _

/-! ## The property index -/

theorem unaware_enter (values : Collection) (profileId : UInt32) (index : PropertyIndex)
    (next : Nat) (listed : List UInt32) :
    Unaware (PropertyIndex.enter values profileId index next listed).run := by
  induction listed generalizing index next with
  | nil => exact unaware_pure index
  | cons valueIndex rest ih =>
      refine (unaware_bytesOf values _).bind fun record => ?_
      exact (unaware_lift _).bind fun value => unaware_ite (ih _ _) (ih _ _)

theorem unaware_offsetAt (offsets : Collection) (number : Nat) :
    Unaware (PropertyIndex.offsetAt offsets number).run :=
  (unaware_bytesOf offsets _).bind fun _ => unaware_lift _

theorem unaware_enterFrom (offsets profiles values : Collection) (number count : Nat)
    (index : PropertyIndex) :
    Unaware (PropertyIndex.enterFrom offsets profiles values number count index).run := by
  induction count generalizing number index with
  | zero => exact unaware_pure index
  | succ count ih =>
      refine (unaware_offsetAt offsets number).bind fun offset => ?_
      refine (unaware_bytesOf profiles _).bind fun record => ?_
      refine (unaware_lift _).bind fun profile => ?_
      refine Unaware.bind ?_ fun index => ih (number + 1) index
      exact unaware_ite (unaware_throw _) (unaware_enter values _ index 0 _)

/-- **Building the index** is fetching, profile by profile. -/
theorem unaware_build (offsets profiles values : Collection) (propertyCount : UInt32) :
    Unaware (PropertyIndex.build offsets profiles values propertyCount).run := by
  have hrest : ∀ greatest : Nat, Unaware
      (if PropertyIndex.sizeLimit < (greatest + 1) * propertyCount.toNat then
        throw (.insufficientMemory ((greatest + 1) * propertyCount.toNat))
      else PropertyIndex.enterFrom offsets profiles values 0 offsets.count
        ⟨propertyCount.toNat, offsets.count, (greatest + 1) * propertyCount.toNat, 0, ∅⟩).run :=
    fun greatest => unaware_ite (unaware_throw _) (unaware_enterFrom offsets profiles values _ _ _)
  unfold PropertyIndex.build
  refine unaware_ite ?_ ?_
  · exact (unaware_pure 0).bind hrest
  · exact ((unaware_offsetAt offsets _).map _).bind hrest

/-! ## In every state -/

/-- **Nothing that can be done with collections depends on handles.** -/
theorem Operation.unaware {α : Type} {op : Storage → α × Storage} (h : Operation op) :
    Unaware op := by
  induction h with
  | done a => exact unaware_done a
  | stats c => exact unaware_look fun caches => c.cacheStats? ⟨⟨[], true⟩, ⟨0, [], 0, 0⟩, caches⟩
  | get c key => exact unaware_get c key
  | fetch c key => exact unaware_fetch c key
  | release item => exact unaware_release item
  | value c address type => exact unaware_value c address type
  | integer c address => exact unaware_integer c address
  | search c lower upper sizing _ state ih => exact unaware_binarySearch ih lower upper state
  | byName values strings first last name =>
      exact unaware_indexByName values strings first last name
  | build offsets profiles values propertyCount =>
      exact unaware_build offsets profiles values propertyCount
  | step walk => exact unaware_step walk
  | take row keep most walk => exact unaware_take row keep most walk
  | andThen _ _ ih ihrest => exact ih.andThen _ ihrest

theorem Used.rested {storage : Storage} (h : Used storage) : storage.pool.Rested := by
  induction h with
  | start file hpool => exact HandlePool.rested_create hpool
  | opened _ hopen ih => exact (ofFile_keeps hopen).2 ▸ ih
  | changed _ file ih => exact ih
  | operation _ hop ih => exact (hop.unaware (.refl ih)).alike.rested

/-- How handles stand while collections are used, one operation at a time.

* `returned`: no handle is out.
* `issued_le`: no more than one was ever opened.
* `never_waits`: whoever asks for a handle gets it, or fails to open the file.
* `granted`: nor does an operation have to wait that has already begun.
* `after`: so it is when an operation has been carried out, whatever it came to.
* `anywhere`: what comes of an operation does not depend on where the idle handle
  was left.
* `alike`: nor does it depend on which handle that is, or how many may be open;
  and the same goes for what is done next. -/
structure AtRest (storage : Storage) : Prop where
  returned : storage.pool.opened = storage.pool.idle.length
  issued_le : storage.pool.issued ≤ 1
  never_waits : (storage.pool.checkOut storage.file).1 ≠ .ok none
  granted : ∀ {α : Type} {op : Storage → α × Storage}, Operation op → Granted op storage
  after : ∀ {α : Type} {op : Storage → α × Storage}, Operation op → (op storage).2.pool.Rested
  anywhere : ∀ {α : Type} {op : Storage → α × Storage}, Operation op → ∀ position,
    (op (storage.moved position)).1 = (op storage).1
  alike : ∀ {α : Type} {op : Storage → α × Storage}, Operation op → ∀ other,
    storage.Alike other → (op storage).1 = (op other).1 ∧ (op storage).2.Alike (op other).2

/-- **Handles come back**, and are never waited for, whatever collections share
them and whatever is done with those, one thing at a time. -/
theorem handles_at_rest {storage : Storage} (h : Used storage) : AtRest storage where
  returned := h.rested.opened_eq
  issued_le := h.rested.issued_eq ▸ h.rested.opened_le
  never_waits := h.rested.checkOut_ne_none storage.file
  granted := fun hop => (hop.unaware (.refl h.rested)).granted
  after := fun hop => (hop.unaware (.refl h.rested)).alike.rested
  anywhere := by
    intro α op hop position
    exact (hop.unaware (Storage.alike_moved h.rested position)).same.symm
  alike := by
    intro α op hop other halike
    have hindifferent := hop.unaware halike
    exact ⟨hindifferent.same, hindifferent.alike⟩

/-- The pool has one handle, which is left behind the record that was read.
Wherever it is, the first record is read, even if the file is deleted. -/
theorem handles_at_rest_deleted : ∃ c storage, Used storage ∧
    storage = ⟨⟨[3, 0, 0, 0, 10, 0, 0, 0, 20, 0, 0, 0, 30, 0, 0, 0], false⟩,
      ⟨1, [⟨0, 12⟩], 1, 1⟩, #[]⟩ ∧
    ((Collection.get c ⟨7, .integer⟩).run storage).1 = .error (.indexOutOfRange 7) ∧
    ∀ position, ((c.get ⟨0, .integer⟩).run (storage.moved position)).1 =
      .ok (some ⟨[10, 0, 0, 0], none⟩) := by
  let file : DataFile := ⟨[3, 0, 0, 0, 10, 0, 0, 0, 20, 0, 0, 0, 30, 0, 0, 0], true⟩
  let c : Collection := ⟨⟨3, 12, 4⟩, .file ⟨4, none⟩⟩
  have hpool : HandlePool.create 1 = .ok ⟨1, [], 0, 0⟩ := rfl
  have hopen : Collection.ofFile (.streamed 1) ⟨4, 12, 3⟩ (.over file ⟨1, [], 0, 0⟩) =
      .ok ((c, 16), .over file ⟨1, [], 0, 0⟩) := rfl
  have hread := ((Used.start file hpool).opened hopen).operation (.get c ⟨1, .integer⟩)
  have hdeleted := hread.changed file.delete.2
  refine ⟨c, _, hdeleted, rfl, rfl, ?_⟩
  intro position
  exact (handles_at_rest hdeleted).anywhere (.get c ⟨0, .integer⟩) position

end RecordStore
