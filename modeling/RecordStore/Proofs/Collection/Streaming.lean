import Mathlib
import RecordStore.Collection.Basic

/-!
# Reading records from the file

A record that is streamed depends on the file only: any handle reads the same
(`readAt_fst`, `readSized_fst`), and as long as there is one to be had, the
pool does not matter either.  `Source.reading` is what streaming reads;
`stream_run` says so and that storage stays as it was, the pool apart.

Where the bytes are in the file, what is read is the record in those bytes
(`reading_eq_record`), and a record found in a part of a collection is the
record of the whole (`reading_of_within`).
-/

namespace RecordStore

/-- Steps succeed if each of them does. -/
theorem bind_eq_ok_iff {ε α β : Type} {x : Except ε α} {f : α → Except ε β} {b : β} :
    (x >>= f) = .ok b ↔ ∃ a, x = .ok a ∧ f a = .ok b := by
  cases x with
  | error e => simp [bind, Except.bind]
  | ok a => simp [bind, Except.bind]

theorem map_eq_ok_iff {ε α β : Type} {x : Except ε α} {f : α → β} {b : β} :
    x.map f = .ok b ↔ ∃ a, x = .ok a ∧ f a = b := by
  cases x with
  | error e => simp [Except.map]
  | ok a => simp [Except.map]

theorem mapError_eq_ok_iff {ε ε' α : Type} {x : Except ε α} {f : ε → ε'} {a : α} :
    x.mapError f = .ok a ↔ x = .ok a := by
  cases x with
  | error e => simp [Except.mapError]
  | ok b => simp [Except.mapError]

/-! ## Handles -/

namespace Storage

/-- A handle can be had without opening what cannot be opened. -/
def Ready (storage : Storage) : Prop :=
  storage.pool.idle ≠ [] ∨ storage.pool.opened < storage.pool.concurrency ∧ storage.file.named

/-- Reading leaves everything but the handles as it is. -/
structure Kept (storage after : Storage) : Prop where
  ready : after.Ready
  file : after.file = storage.file
  caches : after.caches = storage.caches

theorem Kept.refl {storage : Storage} (h : storage.Ready) : storage.Kept storage :=
  ⟨h, rfl, rfl⟩

/-- **There is always a handle.**  One is used, and is there for the next
use. -/
theorem withHandle_run {α : Type} {storage : Storage} (h : storage.Ready)
    (use : DataFile → Handle → Except StoreError α × Handle) :
    ∃ handle after, (withHandle use).run storage = ((use storage.file handle).1, after) ∧
      storage.Kept after := by
  obtain ⟨file, ⟨concurrency, idle, opened, issued⟩, caches⟩ := storage
  have hback : ∀ handle (rest : List Handle) (n m : Nat),
      Ready ⟨file, HandlePool.giveBack ⟨concurrency, rest, n, m⟩ handle, caches⟩ :=
    fun handle rest n m => .inl (List.cons_ne_nil handle rest)
  cases idle with
  | cons handle rest =>
      exact ⟨handle, _, rfl, hback _ _ _ _, rfl, rfl⟩
  | nil =>
      obtain ⟨hroom, hnamed⟩ := h.resolve_left (fun hne => hne rfl)
      simp only at hroom hnamed
      refine ⟨⟨issued, 0⟩, ⟨file, HandlePool.giveBack ⟨concurrency, [], opened + 1, issued + 1⟩
        (use file ⟨issued, 0⟩).2, caches⟩, ?_, hback _ _ _ _, rfl, rfl⟩
      simp [withHandle, HandlePool.checkOut, ExceptT.run, hroom, hnamed]

/-- What stays the same in storage that is used, whatever fails: the file, how
many handles may be open, and that there is one to be had. -/
structure Steady (storage after : Storage) : Prop where
  file : after.file = storage.file
  concurrency : after.pool.concurrency = storage.pool.concurrency
  ready : storage.Ready → after.Ready

theorem Steady.refl (storage : Storage) : storage.Steady storage :=
  ⟨rfl, rfl, id⟩

theorem Steady.trans {storage between after : Storage} (h : storage.Steady between)
    (h' : between.Steady after) : storage.Steady after :=
  ⟨h'.file.trans h.file, h'.concurrency.trans h.concurrency, h'.ready ∘ h.ready⟩

/-- Using a handle, or failing to get one, changes the pool only. -/
theorem withHandle_steady {α : Type} (storage : Storage)
    (use : DataFile → Handle → Except StoreError α × Handle) :
    storage.Steady ((withHandle use).run storage).2 ∧
      ((withHandle use).run storage).2.caches = storage.caches := by
  have hready : storage.Ready → ((withHandle use).run storage).2.Ready := by
    intro h
    obtain ⟨handle, after, hrun, hkept⟩ := withHandle_run h use
    rw [hrun]
    exact hkept.ready
  have hpool : (storage.pool.checkOut storage.file).2.concurrency = storage.pool.concurrency := by
    unfold HandlePool.checkOut
    split
    · rfl
    · split
      · split <;> rfl
      · rfl
  have hrun : (withHandle use).run storage = withHandle use storage := rfl
  rw [hrun] at hready ⊢
  unfold withHandle at hready ⊢
  rcases hout : storage.pool.checkOut storage.file with ⟨e | _ | handle, pool⟩ <;>
    rw [hout] at hpool hready <;> exact ⟨⟨rfl, hpool, hready⟩, rfl⟩

/-- What comes of using a handle is what its use gave. -/
theorem withHandle_eq_ok {α : Type} {storage : Storage}
    {use : DataFile → Handle → Except StoreError α × Handle} {a : α}
    (h : ((withHandle use).run storage).1 = .ok a) :
    ∃ handle, (use storage.file handle).1 = .ok a := by
  have hrun : (withHandle use).run storage = withHandle use storage := rfl
  rw [hrun] at h
  unfold withHandle at h
  rcases hout : storage.pool.checkOut storage.file with ⟨e | _ | handle, pool⟩ <;> rw [hout] at h
  · cases h
  · cases h
  · exact ⟨handle, h⟩

end Storage

namespace DataFile

/-- The `count` bytes at a position; an error unless all of them are there. -/
def part (file : DataFile) (position count : Nat) : Except StoreError Bytes :=
  let bytes := (file.contents.drop position).take count
  if bytes.length = count then .ok bytes else .error .readFailed

/-- The `count` bytes at a position, which has to be one that a file can
have. -/
def partAt (file : DataFile) (position count : Nat) : Except StoreError Bytes :=
  if position < Handle.positionLimit then file.part position count else .error .seekFailed

theorem part_of_le {file : DataFile} {position count : Nat}
    (h : position + count ≤ file.contents.length) :
    file.part position count = .ok ((file.contents.drop position).take count) := by
  have hlength : ((file.contents.drop position).take count).length = count := by
    rw [List.length_take, List.length_drop]
    omega
  simp only [part, hlength, if_true]

theorem part_eq_ok {file : DataFile} {position count : Nat} {bytes : Bytes}
    (h : file.part position count = .ok bytes) :
    bytes = (file.contents.drop position).take count ∧ bytes.length = count := by
  unfold part at h
  simp only at h
  split at h
  · next hlength =>
      obtain rfl := Except.ok.inj h
      exact ⟨rfl, hlength⟩
  · cases h

theorem part_of_partAt {file : DataFile} {position count : Nat} {bytes : Bytes}
    (h : file.partAt position count = .ok bytes) : file.part position count = .ok bytes := by
  unfold partAt at h
  split at h
  · exact h
  · cases h

theorem lt_of_partAt {file : DataFile} {position count : Nat} {bytes : Bytes}
    (h : file.partAt position count = .ok bytes) : position < Handle.positionLimit := by
  unfold partAt at h
  split at h
  · next hlt => exact hlt
  · cases h

end DataFile

namespace Handle

variable {file : DataFile} {start : UInt64} {offset count initial : Nat}

/-- Every handle reads the same, wherever it stood. -/
theorem readAt_fst (handle : Handle) : (handle.readAt file start offset count).1 =
    file.partAt (start + UInt64.ofNat offset).toNat count := by
  unfold readAt seek DataFile.partAt
  by_cases hposition : (start + UInt64.ofNat offset).toNat < positionLimit
  · rw [if_pos hposition, if_pos hposition]
    rfl
  · rw [if_neg hposition, if_neg hposition]

theorem position_of_readExactly {handle after : Handle} {bytes : Bytes}
    (h : handle.readExactly file count = (.ok bytes, after)) :
    after.position = handle.position + count := by
  obtain ⟨hbytes, rfl⟩ := Prod.mk.inj h
  split at hbytes
  · next hlength =>
      exact congrArg (handle.position + ·) hlength
  · cases hbytes

/-- After reading, a handle stands behind what it read. -/
theorem position_of_readAt {handle after : Handle} {bytes : Bytes}
    (h : handle.readAt file start offset count = (.ok bytes, after)) :
    after.position = (start + UInt64.ofNat offset).toNat + count := by
  unfold readAt seek at h
  by_cases hposition : (start + UInt64.ofNat offset).toNat < positionLimit
  · rw [if_pos hposition] at h
    exact position_of_readExactly h
  · rw [if_neg hposition] at h
    cases h

/-- A record with a header is read in two parts. -/
theorem readSized_fst (handle : Handle) (length : Bytes → Except StoreError Nat) :
    (handle.readSized file start offset initial length).1 = (do
      let header ← file.partAt (start + UInt64.ofNat offset).toNat initial
      let length ← length header
      let rest ← file.part ((start + UInt64.ofNat offset).toNat + initial) (length - initial)
      return header.take length ++ rest) := by
  unfold readSized
  rw [← readAt_fst handle]
  rcases hread : handle.readAt file start offset initial with ⟨e | header, after⟩
  · rfl
  · have hposition := position_of_readAt hread
    cases hlength : length header with
    | error e => simp [hlength, bind, Except.bind]
    | ok total =>
        have hrest : (after.readExactly file (total - initial)).1 =
            file.part ((start + UInt64.ofNat offset).toNat + initial) (total - initial) := by
          rw [← hposition]
          rfl
        simp only [hlength, bind, Except.bind]
        rw [← hrest]
        rcases after.readExactly file (total - initial) with ⟨e | rest, last⟩ <;> rfl

end Handle

namespace Source

/-- What streaming reads for a key. -/
def reading (source : Source) (layout : Layout) (file : DataFile) (key : Key) :
    Except StoreError Bytes := do
  if layout.isFixed then
    let (offset, length) ← layout.fixedRecord key
    file.partAt (source.start + UInt64.ofNat offset).toNat length
  else
    let (offset, initial) ← layout.headerOf key
    let header ← file.partAt (source.start + UInt64.ofNat offset).toNat initial
    let length ← layout.lengthOf key header
    let rest ← file.part ((source.start + UInt64.ofNat offset).toNat + initial) (length - initial)
    return header.take length ++ rest

/-- Streaming refuses a key before it asks for a handle, or uses one. -/
theorem stream_course (source : Source) (layout : Layout) (key : Key) (storage : Storage) :
    (∃ e, (source.stream layout key).run storage = (.error e, storage) ∧
        ∀ file, source.reading layout file key = .error e) ∨
      ∃ use, (source.stream layout key).run storage = (Storage.withHandle use).run storage ∧
        ∀ file handle, (use file handle).1 = source.reading layout file key := by
  unfold stream reading
  by_cases hfixed : layout.isFixed
  · simp only [if_pos hfixed]
    cases hrecord : layout.fixedRecord key with
    | error e => exact .inl ⟨e, rfl, fun _ => rfl⟩
    | ok place =>
        refine .inr ⟨fun file handle => handle.readAt file source.start place.1 place.2, rfl, ?_⟩
        intro file handle
        exact Handle.readAt_fst handle
  · simp only [if_neg hfixed]
    cases hrecord : layout.headerOf key with
    | error e => exact .inl ⟨e, rfl, fun _ => rfl⟩
    | ok place =>
        refine .inr ⟨fun file handle => handle.readSized file source.start place.1 place.2
          (layout.lengthOf key), rfl, ?_⟩
        intro file handle
        exact Handle.readSized_fst handle _

/-- **Streaming reads what is in the file**, and leaves it there. -/
theorem stream_run (source : Source) (layout : Layout) (key : Key) {storage : Storage}
    (h : storage.Ready) : ∃ after,
      (source.stream layout key).run storage = (source.reading layout storage.file key, after) ∧
        storage.Kept after := by
  rcases source.stream_course layout key storage with ⟨e, hrun, hread⟩ | ⟨use, hrun, hread⟩
  · exact ⟨storage, by rw [hrun, hread], .refl h⟩
  · obtain ⟨handle, after, huse, hkept⟩ := Storage.withHandle_run h use
    rw [hread] at huse
    exact ⟨after, hrun.trans huse, hkept⟩

/-- Streaming, or failing to, changes the pool only. -/
theorem stream_steady (source : Source) (layout : Layout) (key : Key) (storage : Storage) :
    storage.Steady ((source.stream layout key).run storage).2 ∧
      ((source.stream layout key).run storage).2.caches = storage.caches := by
  rcases source.stream_course layout key storage with ⟨e, hrun, -⟩ | ⟨use, hrun, -⟩
  · rw [hrun]
    exact ⟨.refl storage, rfl⟩
  · rw [hrun]
    exact Storage.withHandle_steady storage use

/-- What was streamed is what is in the file, even if there need not have been a
handle. -/
theorem reading_of_stream {source : Source} {layout : Layout} {key : Key} {storage : Storage}
    {bytes : Bytes} (h : ((source.stream layout key).run storage).1 = .ok bytes) :
    source.reading layout storage.file key = .ok bytes := by
  rcases source.stream_course layout key storage with ⟨e, hrun, -⟩ | ⟨use, hrun, hread⟩
  · rw [hrun] at h
    cases h
  · rw [hrun] at h
    obtain ⟨handle, huse⟩ := Storage.withHandle_eq_ok h
    rw [← hread storage.file handle]
    exact huse

end Source

/-! ## Records that are there -/

namespace Layout

variable {layout : Layout} {key : Key} {offset length : Nat}

theorem fixedRecord_eq_ok_iff : layout.fixedRecord key = .ok (offset, length) ↔
    key.address.toNat < layout.count ∧ offset = key.address.toNat * layout.elementSize ∧
      length = max layout.elementSize key.sizing.initialBytes.toNat ∧
      offset + length ≤ layout.size := by
  unfold fixedRecord reach
  simp only [bind, Except.bind, throw, throwThe, MonadExceptOf.throw, pure, Except.pure]
  grind

theorem headerOf_eq_ok_iff : layout.headerOf key = .ok (offset, length) ↔
    key.address.toNat < layout.size ∧ offset = key.address.toNat ∧
      length = key.sizing.initialBytes.toNat ∧ offset + length ≤ layout.size := by
  unfold headerOf reach
  simp only [bind, Except.bind, throw, throwThe, MonadExceptOf.throw, pure, Except.pure]
  grind

theorem lengthOf_eq_ok_iff {header : Bytes} : layout.lengthOf key header = .ok length ↔
    ∃ word, key.sizing.fullLength header = .ok word ∧ length = word.toNat ∧
      key.address.toNat + length ≤ layout.size := by
  unfold lengthOf reach
  cases key.sizing.fullLength header with
  | error e => simp [bind, Except.bind]
  | ok word =>
      simp only [bind, Except.bind, pure, Except.pure]
      grind

end Layout

/-- A window of a window. -/
theorem window_window {bytes : Bytes} {start size offset length : Nat}
    (h : offset + length ≤ size) : (((bytes.drop start).take size).drop offset).take length =
      (bytes.drop (start + offset)).take length := by
  rw [List.drop_take, List.take_take, List.drop_drop, Nat.min_eq_left (by omega)]

/-- What was read first and what comes after it make up the record, also where
the record ends before what was read first does. -/
theorem take_append_rest (bytes : Bytes) {initial : Nat} (h : initial ≤ bytes.length)
    (length : Nat) : (bytes.take initial).take length ++
      (bytes.drop initial).take (length - initial) = bytes.take length := by
  conv_rhs => rw [← List.take_append_drop initial bytes, List.take_append, List.length_take,
    Nat.min_eq_left h]

theorem toNat_position {start : UInt64} {offset : Nat}
    (h : start.toNat + offset < Handle.positionLimit) :
    (start + UInt64.ofNat offset).toNat = start.toNat + offset := by
  unfold Handle.positionLimit at h
  rw [UInt64.toNat_add, UInt64.toNat_ofNat']
  omega

namespace Source

variable {source : Source} {layout : Layout} {file : DataFile} {key : Key}

/-- **A collection that is all in the file is read as it lies there.** -/
theorem reading_eq_record (h : source.start.toNat + layout.size ≤ file.contents.length)
    (hlimit : file.contents.length < Handle.positionLimit) :
    source.reading layout file key =
      layout.record ((file.contents.drop source.start.toNat).take layout.size) key := by
  have hpart : ∀ {offset length}, offset + length ≤ layout.size →
      file.partAt (source.start + UInt64.ofNat offset).toNat length =
        .ok ((((file.contents.drop source.start.toNat).take layout.size).drop offset).take
          length) := by
    intro offset length hinside
    rw [toNat_position (by omega), DataFile.partAt, if_pos (by omega),
      DataFile.part_of_le (by omega), window_window hinside]
  unfold reading Layout.record Layout.locate
  by_cases hfixed : layout.isFixed
  · rw [if_pos hfixed, if_pos hfixed]
    rcases hrecord : layout.fixedRecord key with e | ⟨offset, length⟩
    · rfl
    · obtain ⟨-, -, -, hinside⟩ := Layout.fixedRecord_eq_ok_iff.mp hrecord
      exact hpart hinside
  · rw [if_neg hfixed, if_neg hfixed]
    rcases hheader : layout.headerOf key with e | ⟨offset, initial⟩
    · rfl
    · obtain ⟨-, hoffset, -, hinside⟩ := Layout.headerOf_eq_ok_iff.mp hheader
      simp only [bind, Except.bind, hpart hinside]
      cases hlength : layout.lengthOf key _ with
      | error e => rfl
      | ok length =>
          obtain ⟨_, -, -, hend⟩ := Layout.lengthOf_eq_ok_iff.mp hlength
          rw [← hoffset] at hend
          have hrest : file.part ((source.start + UInt64.ofNat offset).toNat + initial)
              (length - initial) = .ok (((((file.contents.drop source.start.toNat).take
                layout.size).drop offset).drop initial).take (length - initial)) := by
            rw [toNat_position (by omega), DataFile.part_of_le (by omega), List.drop_drop,
              window_window (by omega), Nat.add_assoc]
          have hheld : initial ≤ (((file.contents.drop source.start.toNat).take
              layout.size).drop offset).length := by
            rw [List.length_drop, List.length_take, List.length_drop]
            omega
          simp only [hrest, pure, Except.pure]
          rw [take_append_rest _ hheld]

end Source

/-! ## Parts of a collection -/

namespace Layout

/-- A layout of the first bytes of a collection. -/
structure Within (part whole : Layout) : Prop where
  elementSize : part.elementSize = whole.elementSize
  size : part.size ≤ whole.size
  count : whole.isFixed → part.count ≤ whole.count

variable {part whole : Layout} {key : Key} {place : Nat × Nat}

theorem Within.isFixed (h : part.Within whole) : part.isFixed = whole.isFixed := by
  rw [Layout.isFixed, Layout.isFixed, h.elementSize]

theorem Within.fixedRecord (h : part.Within whole) (hfixed : whole.isFixed)
    (hpart : part.fixedRecord key = .ok place) : whole.fixedRecord key = .ok place := by
  obtain ⟨hindex, hoffset, hlength, hinside⟩ := fixedRecord_eq_ok_iff.mp hpart
  have hcount := h.count hfixed
  have hsize := h.size
  rw [h.elementSize] at hoffset hlength
  exact fixedRecord_eq_ok_iff.mpr ⟨by omega, hoffset, hlength, by omega⟩

theorem Within.headerOf (h : part.Within whole) (hpart : part.headerOf key = .ok place) :
    whole.headerOf key = .ok place := by
  obtain ⟨hstart, hoffset, hlength, hinside⟩ := headerOf_eq_ok_iff.mp hpart
  have hsize := h.size
  exact headerOf_eq_ok_iff.mpr ⟨by omega, hoffset, hlength, by omega⟩

theorem Within.lengthOf (h : part.Within whole) {header : Bytes} {length : Nat}
    (hpart : part.lengthOf key header = .ok length) : whole.lengthOf key header = .ok length := by
  obtain ⟨word, hword, hlength, hinside⟩ := lengthOf_eq_ok_iff.mp hpart
  have hsize := h.size
  exact lengthOf_eq_ok_iff.mpr ⟨word, hword, hlength, by omega⟩

end Layout

/-- **A record in a part of a collection** is the record of the whole. -/
theorem Source.reading_of_within {source : Source} {part whole : Layout} {file : DataFile}
    {key : Key} {bytes : Bytes} (h : part.Within whole)
    (hpart : source.reading part file key = .ok bytes) :
    source.reading whole file key = .ok bytes := by
  unfold reading at hpart ⊢
  rw [h.isFixed] at hpart
  by_cases hfixed : whole.isFixed
  · rw [if_pos hfixed] at hpart ⊢
    obtain ⟨place, hrecord, hread⟩ := bind_eq_ok_iff.mp hpart
    rw [h.fixedRecord hfixed hrecord]
    exact hread
  · rw [if_neg hfixed] at hpart ⊢
    obtain ⟨place, hplace, hrest⟩ := bind_eq_ok_iff.mp hpart
    obtain ⟨header, hheader, hrest⟩ := bind_eq_ok_iff.mp hrest
    obtain ⟨length, hlength, hrest⟩ := bind_eq_ok_iff.mp hrest
    rw [h.headerOf hplace]
    apply bind_eq_ok_iff.mpr ⟨place, rfl, ?_⟩
    apply bind_eq_ok_iff.mpr ⟨header, hheader, ?_⟩
    exact bind_eq_ok_iff.mpr ⟨length, h.lengthOf hlength, hrest⟩

end RecordStore
