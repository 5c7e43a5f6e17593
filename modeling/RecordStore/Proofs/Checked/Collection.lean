import Mathlib
import RecordStore.Proofs.Checked.Cache
import RecordStore.Proofs.Collection.Answering

/-!
# Collections on a machine

A get of a collection as a machine does it: offsets and lengths in words of 32
bits, positions in words of 64, the header of a record as a slice of the bytes
in memory or of a buffer that is grown when the length is known.

What keeps it inside is that numbered records do not reach past the bytes of a
layout (`Layout.Bounded`), and that `reach` is asked, in words that are wide
enough, before a sum is formed that might not fit.
-/

namespace RecordStore

/-! ## Layouts -/

/-- The sizes of a layout fit their words, and its records its bytes. -/
structure Layout.Bounded (layout : Layout) : Prop where
  size : layout.size < 2 ^ 32
  elementSize : layout.elementSize < 2 ^ 32
  records : layout.count * layout.elementSize ≤ layout.size

theorem Layout.bounded_ofHeader (header : Header) : (Layout.ofHeader header).Bounded := by
  have hlength := header.length.toNat_lt
  exact ⟨hlength, (Nat.div_le_self ..).trans_lt hlength, Nat.mul_div_le ..⟩

theorem Resident.bounded_ofFile (file : DataFile) (header : Header) {part : Nat}
    (hpart : part ≤ (Layout.ofHeader header).size) :
    (Resident.ofFile file header part).layout.Bounded := by
  have hwhole := Layout.bounded_ofHeader header
  have hlength : ((file.contents.drop header.start.toNat).take part).length ≤ part :=
    List.length_take_le ..
  exact ⟨(hlength.trans hpart).trans_lt hwhole.size, hwhole.elementSize, Nat.div_mul_le_self ..⟩

namespace Checked

/-- Succeeds if `length` bytes at `offset` are within the collection. -/
def reach (layout : Layout) (offset length : Nat) : ExceptT StoreError Checked Unit := do
  let last ← word 64 (offset + length)
  if last ≤ layout.size then return () else throw (.corrupt (.pastEnd length offset))

/-- Offset and length of a numbered record. -/
def fixedRecord (layout : Layout) (key : Key) : ExceptT StoreError Checked (Nat × Nat) :=
  if layout.count ≤ key.address.toNat then throw (.indexOutOfRange key.address)
  else do
    let offset ← word 32 (key.address.toNat * layout.elementSize)
    let length := max layout.elementSize key.sizing.initialBytes.toNat
    reach layout offset length
    return (offset, length)

/-- Offset of a record that is found by offset, and the end of its header. -/
def headerEnd (layout : Layout) (key : Key) : ExceptT StoreError Checked (Nat × Nat) :=
  if layout.size ≤ key.address.toNat then throw (.offsetOutOfRange key.address)
  else do
    reach layout key.address.toNat key.sizing.initialBytes.toNat
    let last ← word 32 (key.address.toNat + key.sizing.initialBytes.toNat)
    return (key.address.toNat, last)

/-- Length of a record that is found by offset, from its header. -/
def lengthOf (layout : Layout) (key : Key) (header : Bytes) : ExceptT StoreError Checked Nat := do
  let length ← ofExcept (key.sizing.fullLength header)
  reach layout key.address.toNat length.toNat
  return length.toNat

section

variable {layout : Layout} {key : Key}

theorem reach_eq_ok {layout : Layout} {offset length : Nat} {u : Unit}
    (h : layout.reach offset length = .ok u) : offset + length ≤ layout.size := by
  unfold Layout.reach at h
  split at h
  · assumption
  · cases h

theorem reach_run (layout : Layout) {offset length : Nat} (hoffset : offset < 2 ^ 32)
    (hlength : length < 2 ^ 32) :
    (reach layout offset length).run = .ok (layout.reach offset length) := by
  have hsum : word 64 (offset + length) = .ok (offset + length) := word_of_lt (by omega)
  unfold reach Layout.reach
  rw [run_lift_bind hsum]
  split <;> rfl

theorem fixedRecord_run (h : layout.Bounded) (key : Key) :
    (fixedRecord layout key).run = .ok (layout.fixedRecord key) := by
  unfold fixedRecord Layout.fixedRecord
  by_cases hindex : layout.count ≤ key.address.toNat
  · rw [if_pos hindex, if_pos hindex]
    rfl
  · rw [if_neg hindex, if_neg hindex]
    have hproduct : key.address.toNat * layout.elementSize < 2 ^ 32 := by
      have hle : key.address.toNat * layout.elementSize ≤ layout.count * layout.elementSize :=
        Nat.mul_le_mul_right _ (Nat.le_of_not_le hindex)
      exact (hle.trans h.records).trans_lt h.size
    have hlength : max layout.elementSize key.sizing.initialBytes.toNat < 2 ^ 32 :=
      max_lt h.elementSize key.sizing.initialBytes.toNat_lt
    rw [run_lift_bind (word_of_lt hproduct)]
    exact run_bind (reach_run layout hproduct hlength) fun _ _ => rfl

theorem headerEnd_run (h : layout.Bounded) (key : Key) : (headerEnd layout key).run =
    .ok (layout.headerOf key >>= fun place => .ok (place.1, place.1 + place.2)) := by
  by_cases hstart : layout.size ≤ key.address.toNat
  · unfold headerEnd Layout.headerOf
    rw [if_pos hstart, if_pos hstart]
    rfl
  · have hheader : layout.headerOf key =
        layout.reach key.address.toNat key.sizing.initialBytes.toNat >>= fun _ =>
          .ok (key.address.toNat, key.sizing.initialBytes.toNat) := if_neg hstart
    unfold headerEnd
    rw [if_neg hstart, hheader, bind_assoc]
    refine run_bind (reach_run layout key.address.toNat_lt key.sizing.initialBytes.toNat_lt) ?_
    intro u hu
    rw [run_lift_bind (word_of_lt ((reach_eq_ok hu).trans_lt h.size))]
    rfl

theorem lengthOf_run (layout : Layout) (key : Key) (header : Bytes) :
    (lengthOf layout key header).run = .ok (layout.lengthOf key header) := by
  have hlength : (ofExcept (key.sizing.fullLength header) :
      ExceptT StoreError Checked UInt32).run = .ok (key.sizing.fullLength header) := by
    cases key.sizing.fullLength header <;> rfl
  refine run_bind hlength ?_
  intro length _
  exact run_bind (reach_run layout key.address.toNat_lt length.toNat_lt) fun _ _ => rfl

end

/-! ## Memory -/

/-- Where the record of a key is in memory: its first byte, and the end of its
last. -/
def locate (resident : Resident) (key : Key) : ExceptT StoreError Checked (Nat × Nat) :=
  if resident.layout.isFixed then do
    let (offset, length) ← fixedRecord resident.layout key
    let last ← word 32 (offset + length)
    return (offset, last)
  else do
    let (offset, headerLast) ← headerEnd resident.layout key
    let header ← slice resident.bytes offset headerLast
    let length ← lengthOf resident.layout key header
    let last ← word 32 (offset + length)
    return (offset, last)

/-- The record of a key in memory. -/
def record (resident : Resident) (key : Key) : ExceptT StoreError Checked Bytes := do
  let (offset, last) ← locate resident key
  slice resident.bytes offset last

section

variable {resident : Resident}

theorem locate_run (h : resident.layout.Bounded)
    (hsize : resident.bytes.length = resident.layout.size) (key : Key) :
    (locate resident key).run = .ok (resident.layout.locate resident.bytes key >>=
      fun place => .ok (place.1, place.1 + place.2)) := by
  unfold locate Layout.locate
  by_cases hfixed : resident.layout.isFixed
  · rw [if_pos hfixed, if_pos hfixed]
    refine run_bind (fixedRecord_run h key) ?_
    intro place hplace
    obtain ⟨-, -, -, hinside⟩ := Layout.fixedRecord_eq_ok_iff.mp hplace
    rw [run_lift_bind (word_of_lt (hinside.trans_lt h.size))]
    rfl
  · rw [if_neg hfixed, if_neg hfixed, bind_assoc]
    refine run_bind_map (headerEnd_run h key) ?_
    intro place hplace
    obtain ⟨-, hoffset, -, hinside⟩ := Layout.headerOf_eq_ok_iff.mp hplace
    rw [← hsize] at hinside
    rw [run_lift_bind (slice_of_le hinside), bind_assoc]
    refine run_bind (lengthOf_run ..) ?_
    intro length hlength
    obtain ⟨-, -, -, hend⟩ := Layout.lengthOf_eq_ok_iff.mp hlength
    rw [← hoffset] at hend
    rw [run_lift_bind (word_of_lt (hend.trans_lt h.size))]
    rfl

/-- **Memory** comes to what it comes to without bounds. -/
theorem record_run (h : resident.layout.Bounded)
    (hsize : resident.bytes.length = resident.layout.size) (key : Key) :
    (record resident key).run = .ok (resident.record key) := by
  refine run_bind_map (locate_run h hsize key) ?_
  intro place hplace
  have hinside := Layout.locate_within hplace
  rw [← hsize] at hinside
  have hslice := slice_of_le hinside
  show (liftM (slice _ _ _) : ExceptT StoreError Checked Bytes).run = _
  rw [hslice]
  rfl

/-- A layout that says more than there is would be found out. -/
example : (record ⟨[1, 2], ⟨1, 4, 4⟩⟩ ⟨0, .byte⟩).run = .error .outside := by rfl

end

/-! ## Files -/

/-- Reads `count` bytes of a collection that starts at `start`, from `offset`
on. -/
def readAt (handle : Handle) (file : DataFile) (start : UInt64) (offset count : Nat) :
    Checked (Except StoreError Bytes × Handle) := do
  let position ← word 64 (start.toNat + offset)
  match handle.seek position with
  | .error e => return (.error e, handle)
  | .ok handle => return handle.readExactly file count

/-- Reads a record whose length follows from its header into a buffer that is
grown, or cut, to that length. -/
def readSized (handle : Handle) (file : DataFile) (start : UInt64) (offset initial : Nat)
    (length : Bytes → ExceptT StoreError Checked Nat) :
    Checked (Except StoreError Bytes × Handle) := do
  let (read, handle) ← readAt handle file start offset initial
  match read with
  | .error e => return (.error e, handle)
  | .ok header =>
    match ← (length header).run with
    | .error e => return (.error e, handle)
    | .ok length =>
      if header.length < length then
        let additional ← minus length header.length
        let buffer := header ++ List.replicate additional 0
        let ahead ← slice buffer initial buffer.length
        let (read, handle) := handle.readExactly file ahead.length
        return (read.map (buffer.take initial ++ ·), handle)
      else return (.ok (header.take length), handle)

/-- Takes a handle; those that are open are counted in 16 bits. -/
def checkOut (pool : HandlePool) (file : DataFile) :
    Checked (Except StoreError (Option Handle) × HandlePool) :=
  match pool.idle with
  | handle :: idle => return (.ok (some handle), { pool with idle })
  | [] =>
    if pool.opened < pool.concurrency then do
      let opened ← word 16 (pool.opened + 1)
      if file.named then
        return (.ok (some ⟨pool.issued, 0⟩), { pool with opened, issued := pool.issued + 1 })
      else
        let opened ← minus opened 1
        return (.error .openFailed, { pool with opened })
    else return (.ok none, pool)

/-- Uses a handle, which is given back however the use ends. -/
def withHandle {α : Type} (use : DataFile → Handle → Checked (Except StoreError α × Handle))
    (storage : Storage) : Checked (Except StoreError α × Storage) := do
  let (out, pool) ← checkOut storage.pool storage.file
  match out with
  | .error e => return (.error e, { storage with pool })
  | .ok none =>
    return (.error (.tooManyOperations pool.concurrency pool.concurrency), { storage with pool })
  | .ok (some handle) =>
    let (result, handle) ← use storage.file handle
    return (result, { storage with pool := pool.giveBack handle })

/-- Offset and header length of a record that is found by offset. -/
def headerOf (layout : Layout) (key : Key) : ExceptT StoreError Checked (Nat × Nat) := do
  let (offset, last) ← headerEnd layout key
  let initial ← minus last offset
  return (offset, initial)

/-- Reads the record of a key from the data file. -/
def stream (source : Source) (layout : Layout) (key : Key) (storage : Storage) :
    Checked (Except StoreError Bytes × Storage) :=
  if layout.isFixed then do
    match ← (fixedRecord layout key).run with
    | .error e => return (.error e, storage)
    | .ok (offset, length) =>
      withHandle (fun file handle => readAt handle file source.start offset length) storage
  else do
    match ← (headerOf layout key).run with
    | .error e => return (.error e, storage)
    | .ok (offset, initial) =>
      withHandle (fun file handle =>
        readSized handle file source.start offset initial (lengthOf layout key)) storage

section

variable {handle : Handle} {file : DataFile} {start : UInt64} {offset count initial : Nat}

theorem readAt_eq (h : start.toNat + offset < 2 ^ 64) :
    readAt handle file start offset count = .ok (handle.readAt file start offset count) := by
  have hposition : (start + UInt64.ofNat offset).toNat = start.toNat + offset := by
    rw [UInt64.toNat_add, UInt64.toNat_ofNat']
    omega
  unfold readAt Handle.readAt
  rw [bind_of_eq (word_of_lt h), hposition]
  cases handle.seek (start.toNat + offset) <;> rfl

/-- What is read has the length that was asked for. -/
theorem length_of_readAt {after : Handle} {bytes : Bytes}
    (h : handle.readAt file start offset count = (.ok bytes, after)) : bytes.length = count := by
  have hpart : (handle.readAt file start offset count).1 =
      file.partAt (start + UInt64.ofNat offset).toNat count := handle.readAt_fst
  rw [h] at hpart
  exact (DataFile.part_eq_ok (DataFile.part_of_partAt hpart.symm)).2

/-- A buffer that is grown has room for what is still to be read. -/
theorem readSized_eq (h : start.toNat + offset < 2 ^ 64)
    {lengths : Bytes → ExceptT StoreError Checked Nat} {length : Bytes → Except StoreError Nat}
    (hlength : ∀ header, (lengths header).run = .ok (length header)) :
    readSized handle file start offset initial lengths =
      .ok (handle.readSized file start offset initial length) := by
  unfold readSized Handle.readSized
  rw [bind_of_eq (readAt_eq h)]
  rcases hread : handle.readAt file start offset initial with ⟨e | header, after⟩
  · rfl
  · have hheader := length_of_readAt hread
    simp only
    rw [bind_of_eq (hlength header)]
    cases length header with
    | error e => rfl
    | ok length =>
        simp only
        by_cases hmore : header.length < length
        · have hbuffer : (header ++ List.replicate (length - header.length) (0 : UInt8)).length =
              initial + (length - initial) := by
            rw [List.length_append, List.length_replicate]
            omega
          rw [if_pos hmore, bind_of_eq (minus_of_le hmore.le), hbuffer,
            bind_of_eq (slice_of_le hbuffer.ge), List.length_take, List.length_drop, hbuffer,
            Nat.add_sub_cancel_left, Nat.min_self, List.take_of_length_le hmore.le,
            List.take_left' hheader]
          rcases after.readExactly file (length - initial) with ⟨e | rest, last⟩ <;> rfl
        · have hnone : length - initial = 0 := by omega
          have hnothing : after.readExactly file 0 = (.ok [], after) := rfl
          rw [if_neg hmore, hnone, hnothing]
          simp only
          rw [List.append_nil]
          rfl

theorem checkOut_eq {pool : HandlePool} (h : pool.concurrency < 2 ^ 16) (file : DataFile) :
    checkOut pool file = .ok (pool.checkOut file) := by
  obtain ⟨concurrency, idle, opened, issued⟩ := pool
  unfold checkOut HandlePool.checkOut
  cases idle with
  | cons handle idle => rfl
  | nil =>
      simp only at h ⊢
      by_cases hroom : opened < concurrency
      · rw [if_pos hroom, if_pos hroom, bind_of_eq (word_of_lt (by omega))]
        by_cases hnamed : file.named
        · rw [if_pos hnamed, if_pos hnamed]
          rfl
        · rw [if_neg hnamed, if_neg hnamed, bind_of_eq (minus_of_le (by omega))]
          rfl
      · rw [if_neg hroom, if_neg hroom]
        rfl

theorem withHandle_eq {α : Type} {storage : Storage}
    (h : storage.pool.concurrency < 2 ^ 16)
    {checked : DataFile → Handle → Checked (Except StoreError α × Handle)}
    {use : DataFile → Handle → Except StoreError α × Handle}
    (huse : ∀ file handle, checked file handle = .ok (use file handle)) :
    withHandle checked storage = .ok ((Storage.withHandle use).run storage) := by
  have hrun : (Storage.withHandle use).run storage = Storage.withHandle use storage := rfl
  rw [hrun]
  unfold withHandle Storage.withHandle
  rw [bind_of_eq (checkOut_eq h storage.file)]
  rcases storage.pool.checkOut storage.file with ⟨e | _ | handle, pool⟩
  · rfl
  · rfl
  · simp only
    rw [bind_of_eq (huse storage.file handle)]
    rfl

variable {layout : Layout} {source : Source} {storage : Storage}

theorem headerOf_run (h : layout.Bounded) (key : Key) :
    (headerOf layout key).run = .ok (layout.headerOf key) := by
  rw [← bind_pure (layout.headerOf key)]
  refine run_bind_map (headerEnd_run h key) ?_
  intro place _
  rw [run_lift_bind (minus_of_le (Nat.le_add_right ..)), Nat.add_sub_cancel_left]
  rfl

/-- **Streaming** comes to what it comes to without bounds. -/
theorem stream_eq (h : layout.Bounded) (hpool : storage.pool.concurrency < 2 ^ 16)
    (hstart : source.start.toNat + layout.size < 2 ^ 64) (key : Key) :
    stream source layout key storage = .ok ((source.stream layout key).run storage) := by
  unfold stream Source.stream
  by_cases hfixed : layout.isFixed
  · rw [if_pos hfixed, if_pos hfixed, bind_of_eq (fixedRecord_run h key)]
    cases hrecord : layout.fixedRecord key with
    | error e => rfl
    | ok place =>
        obtain ⟨-, -, -, hinside⟩ := Layout.fixedRecord_eq_ok_iff.mp hrecord
        exact withHandle_eq hpool fun file handle => readAt_eq (by omega)
  · rw [if_neg hfixed, if_neg hfixed, bind_of_eq (headerOf_run h key)]
    cases hrecord : layout.headerOf key with
    | error e => rfl
    | ok place =>
        obtain ⟨-, -, -, hinside⟩ := Layout.headerOf_eq_ok_iff.mp hrecord
        exact withHandle_eq hpool fun file handle =>
          readSized_eq (by omega) (lengthOf_run layout key)

end

/-! ## Collections -/

/-- Gets the record of a key, through the cache if there is one. -/
def sourceGet (source : Source) (layout : Layout) (key : Key) (storage : Storage) :
    Checked (Except StoreError (Option Item) × Storage) :=
  match source.cache?.bind fun id => (storage.cache? id).map (id, ·) with
  | none => do
    let (result, storage) ← stream source layout key storage
    return (result.map (some ⟨·, none⟩), storage)
  | some (id, cache) => do
    let ((result, cache), storage) ←
      cacheGet cache key.address (stream source layout key) storage
    return (result.map (·.map fun ref => ⟨ref.data, some (id, ref.pin)⟩),
      storage.setCache id cache)

/-- Gets the record of a key from memory. -/
def residentGet (resident : Resident) (key : Key) (storage : Storage) :
    Checked (Except StoreError (Option Item) × Storage) := do
  let result ← (record resident key).run
  return (result.map (some ⟨·, none⟩), storage)

/-- Gets the record of a key. -/
def get (c : Collection) (key : Key) (storage : Storage) :
    Checked (Except StoreError (Option Item) × Storage) :=
  match c.tiers with
  | .memory resident => residentGet resident key storage
  | .both resident source => do
    let located ← (locate resident key).run
    if located.isOk then residentGet resident key storage
    else sourceGet source c.layout key storage
  | .file source => sourceGet source c.layout key storage

section

variable {file : DataFile} {header : Header} {source : Source} {c : Collection}
  {storage : Storage} {keys : List Key} {items : List Item}

/-- A source comes to what it comes to without bounds, as long as the references
to the nodes of its cache can be counted. -/
theorem sourceGet_eq (h : Backed file header source c storage keys items)
    (hsome : c.source? = some source) (hpool : storage.pool.concurrency < 2 ^ 16)
    (hstart : source.start.toNat + (Layout.ofHeader header).size < 2 ^ 64)
    (hheld : items.length + 1 < 2 ^ 32) (key : Key) :
    sourceGet source (Layout.ofHeader header) key storage =
      .ok ((source.get (Layout.ofHeader header) key).run storage) := by
  have hstream := stream_eq (Layout.bounded_ofHeader header) hpool hstart key
  unfold sourceGet
  cases h with
  | alone hnone =>
      rw [hnone] at hsome
      cases hsome
  | direct hnone _ =>
      rw [Source.get_run_uncached hnone]
      simp only [hnone, Option.bind_none]
      rw [bind_of_eq hstream]
      rfl
  | cached hid hpos _ huse =>
      obtain ⟨cache, hcache, hsound⟩ := huse.lent.lent
      have hout : (pinsOf items).length + 1 < 2 ^ 32 :=
        (Nat.succ_le_succ (List.length_filterMap_le ..)).trans_lt hheld
      rw [Source.get_run hid hcache]
      simp only [hid, hcache, Option.bind_some, Option.map_some]
      rw [bind_of_eq (cacheGet_eq hsound hpos hout hstream)]
      rfl

theorem residentGet_eq {part : Nat} (hpart : part ≤ (Layout.ofHeader header).size) (key : Key)
    (storage : Storage) : residentGet (.ofFile file header part) key storage =
      .ok (((Resident.ofFile file header part).record key).map (some ⟨·, none⟩), storage) := by
  unfold residentGet
  rw [bind_of_eq (record_run (Resident.bounded_ofFile file header hpart) rfl key)]
  rfl

/-- **A collection does nothing that a machine does not allow.** -/
theorem get_eq (h : Backed file header source c storage keys items)
    (hopened : Opened file header source c) (hpool : storage.pool.concurrency < 2 ^ 16)
    (hstart : source.start.toNat + (Layout.ofHeader header).size < 2 ^ 64)
    (hheld : items.length + 1 < 2 ^ 32) (key : Key) :
    get c key storage = .ok ((c.get key).run storage) := by
  cases hopened with
  | memory _ =>
      rw [get_resident rfl (.inl rfl)]
      exact residentGet_eq le_rfl key storage
  | @both part hpart _ =>
      have hlocate := locate_run (Resident.bounded_ofFile file header hpart) rfl key
      have hheld' : ((Resident.ofFile file header part).layout.locate
          (Resident.ofFile file header part).bytes key >>= fun place =>
            Except.ok (place.1, place.1 + place.2)).isOk =
          (Resident.ofFile file header part).holds key := by
        unfold Resident.holds
        cases (Resident.ofFile file header part).layout.locate _ key <;> rfl
      unfold get
      simp only
      rw [bind_of_eq hlocate, hheld']
      by_cases hholds : (Resident.ofFile file header part).holds key
      · rw [if_pos hholds, get_resident rfl (.inr hholds)]
        exact residentGet_eq hpart key storage
      · have hget : Collection.get ⟨Layout.ofHeader header,
            .both (Resident.ofFile file header part) source⟩ key =
              source.get (Layout.ofHeader header) key := if_neg hholds
        rw [if_neg hholds, hget]
        exact sourceGet_eq h rfl hpool hstart hheld key
  | file => exact sourceGet_eq h rfl hpool hstart hheld key

end

end Checked

end RecordStore
