import Mathlib
import RecordStore.Proofs.Checked.Collection

/-!
# Records stay inside their collection

Whatever a key says about the length of its record, and however the collection
is held, what a get gives is a window of the collection (`Layout.Window`): the
bytes from the offset of the record on, none of them past the end.  Where the
bytes come from does not matter, as memory and streaming give windows only
(`Resident.window`, `Source.window`), and a cache has what was streamed.

On the way no word overflows, and no index or slice is outside
(`get_contained`).
-/

namespace RecordStore

/-- Where the record at an address starts. -/
def Layout.offsetOf (layout : Layout) (address : UInt32) : Nat :=
  if layout.isFixed then address.toNat * layout.elementSize else address.toNat

/-- Bytes that lie in a collection, which starts somewhere in `data`, from where
the record at an address starts. -/
structure Layout.Window (layout : Layout) (data : Bytes) (start : Nat) (address : UInt32)
    (bytes : Bytes) : Prop where
  inside : layout.offsetOf address + bytes.length ≤ layout.size
  bytes_eq : bytes = (data.drop (start + layout.offsetOf address)).take bytes.length

/-- Bytes that lie in a collection of a file.  Where the record starts is a
word; past the last one, positions begin anew. -/
structure Layout.Extract (layout : Layout) (data : Bytes) (start : UInt64) (address : UInt32)
    (bytes : Bytes) : Prop where
  inside : layout.offsetOf address + bytes.length ≤ layout.size
  bytes_eq : bytes =
    (data.drop (start + UInt64.ofNat (layout.offsetOf address)).toNat).take bytes.length

section

variable {layout : Layout} {data bytes : Bytes} {start offset length : Nat} {address : UInt32}

/-- As many bytes as there were to be. -/
theorem Layout.Extract.of_length {start : UInt64} (hoffset : offset = layout.offsetOf address)
    (hinside : offset + length ≤ layout.size)
    (hbytes : bytes = (data.drop (start + UInt64.ofNat offset).toNat).take length)
    (hlength : bytes.length = length) : layout.Extract data start address bytes := by
  subst hoffset hlength
  exact ⟨hinside, hbytes⟩

/-- Short of where positions begin anew, extracts are windows. -/
theorem Layout.extract_iff_window {start : UInt64}
    (hlimit : start.toNat + layout.offsetOf address < 2 ^ 64) :
    layout.Extract data start address bytes ↔ layout.Window data start.toNat address bytes := by
  have hposition : (start + UInt64.ofNat (layout.offsetOf address)).toNat =
      start.toNat + layout.offsetOf address := by
    rw [UInt64.toNat_add, UInt64.toNat_ofNat']
    omega
  constructor
  · intro h
    exact ⟨h.inside, hposition ▸ h.bytes_eq⟩
  · intro h
    exact ⟨h.inside, hposition.symm ▸ h.bytes_eq⟩

theorem Layout.offset_of_locate {place : Nat × Nat} {key : Key}
    (h : layout.locate bytes key = .ok place) : place.1 = layout.offsetOf key.address := by
  unfold Layout.locate at h
  unfold Layout.offsetOf
  by_cases hfixed : layout.isFixed
  · rw [if_pos hfixed] at h ⊢
    obtain ⟨-, hoffset, -, -⟩ := Layout.fixedRecord_eq_ok_iff.mp h
    exact hoffset
  · rw [if_neg hfixed] at h ⊢
    obtain ⟨header, hheader, hrest⟩ := bind_eq_ok_iff.mp h
    obtain ⟨length, -, hsame⟩ := bind_eq_ok_iff.mp hrest
    obtain ⟨-, hoffset, -, -⟩ := Layout.headerOf_eq_ok_iff.mp hheader
    rw [← Except.ok.inj hsame]
    exact hoffset

end

section

variable {file : DataFile} {header : Header} {source : Source} {c : Collection}
  {storage : Storage} {keys : List Key} {items : List Item} {key : Key} {bytes : Bytes}

/-- **Memory gives windows** of the part that it has. -/
theorem Resident.record_eq_ok {part : Nat}
    (hthere : header.start.toNat + part ≤ file.contents.length)
    (h : (Resident.ofFile file header part).record key = .ok bytes) :
    (Layout.ofHeader header).offsetOf key.address + bytes.length ≤ part ∧
      bytes = (file.contents.drop (header.start.toNat +
        (Layout.ofHeader header).offsetOf key.address)).take bytes.length := by
  obtain ⟨place, hplace, hbytes⟩ := bind_eq_ok_iff.mp h
  have hlength := Resident.length_ofFile hthere
  have hinside : place.1 + place.2 ≤ part := by
    rw [← hlength]
    exact Layout.locate_within hplace
  have htaken : bytes = (((file.contents.drop header.start.toNat).take part).drop
      place.1).take place.2 := (Except.ok.inj hbytes).symm
  -- the size of a record is that of the whole, and with it the offset
  have hown := Layout.offset_of_locate hplace
  have hoffset : place.1 = (Layout.ofHeader header).offsetOf key.address := hown
  have hcount : bytes.length = place.2 := by
    rw [htaken, List.length_take, List.length_drop, hlength]
    omega
  rw [← hoffset, hcount]
  exact ⟨hinside, htaken.trans (window_window hinside)⟩

/-- **Streaming gives extracts.** -/
theorem Source.extract {layout : Layout} (h : source.reading layout file key = .ok bytes) :
    layout.Extract file.contents source.start key.address bytes := by
  unfold Source.reading at h
  by_cases hfixed : layout.isFixed
  · rw [if_pos hfixed] at h
    obtain ⟨⟨offset, length⟩, hrecord, hread⟩ := bind_eq_ok_iff.mp h
    obtain ⟨-, hoffset, -, hinside⟩ := Layout.fixedRecord_eq_ok_iff.mp hrecord
    obtain ⟨hbytes, hlength⟩ := DataFile.part_eq_ok (DataFile.part_of_partAt hread)
    exact .of_length (by rw [Layout.offsetOf, if_pos hfixed, hoffset]) hinside hbytes hlength
  · rw [if_neg hfixed] at h
    obtain ⟨⟨offset, initial⟩, hheader, hrest⟩ := bind_eq_ok_iff.mp h
    obtain ⟨first, hfirst, hrest⟩ := bind_eq_ok_iff.mp hrest
    obtain ⟨length, hlength, hrest⟩ := bind_eq_ok_iff.mp hrest
    obtain ⟨rest, hread, hsame⟩ := bind_eq_ok_iff.mp hrest
    obtain ⟨-, hoffset, -, hinside⟩ := Layout.headerOf_eq_ok_iff.mp hheader
    obtain ⟨-, -, -, hend⟩ := Layout.lengthOf_eq_ok_iff.mp hlength
    obtain ⟨hfirst, hinitial⟩ := DataFile.part_eq_ok (DataFile.part_of_partAt hfirst)
    obtain ⟨hread, hmore⟩ := DataFile.part_eq_ok hread
    rw [← hoffset] at hend
    generalize hposition : (source.start + UInt64.ofNat offset).toNat = position at hfirst hread
    -- what was read first and the rest are next to each other in the file
    have hbytes : bytes = (file.contents.drop position).take length := by
      have hheld : initial ≤ (file.contents.drop position).length := by
        rw [← hinitial, hfirst]
        exact List.length_take_le' ..
      have happend := take_append_rest _ hheld length
      rw [List.drop_drop] at happend
      rw [← Except.ok.inj hsame, hfirst, hread]
      exact happend
    have hcount : bytes.length = length := by
      rw [← Except.ok.inj hsame, List.length_append, List.length_take, hinitial, hmore]
      omega
    subst hposition
    exact .of_length (by rw [Layout.offsetOf, if_neg hfixed, hoffset]) hend hbytes hcount

/-- What was read is at a position that a file can have. -/
theorem Source.position_lt {layout : Layout} (h : source.reading layout file key = .ok bytes) :
    (source.start + UInt64.ofNat (layout.offsetOf key.address)).toNat < Handle.positionLimit := by
  unfold Source.reading at h
  unfold Layout.offsetOf
  by_cases hfixed : layout.isFixed
  · rw [if_pos hfixed] at h ⊢
    obtain ⟨⟨offset, length⟩, hrecord, hread⟩ := bind_eq_ok_iff.mp h
    obtain ⟨-, rfl, -, -⟩ := Layout.fixedRecord_eq_ok_iff.mp hrecord
    exact DataFile.lt_of_partAt hread
  · rw [if_neg hfixed] at h ⊢
    obtain ⟨⟨offset, initial⟩, hheader, hrest⟩ := bind_eq_ok_iff.mp h
    obtain ⟨first, hfirst, -⟩ := bind_eq_ok_iff.mp hrest
    obtain ⟨-, rfl, -, -⟩ := Layout.headerOf_eq_ok_iff.mp hheader
    exact DataFile.lt_of_partAt hfirst

/-- **Bytes that were given** were in memory, or were read for some key of the
address. -/
theorem Served.origin (h : Served file header source c storage keys key (.ok (some bytes))) :
    (∃ part ≤ (Layout.ofHeader header).size,
        header.start.toNat + part ≤ file.contents.length ∧
        (Resident.ofFile file header part).record key = .ok bytes) ∨
      ∃ asked, asked.address = key.address ∧
        source.reading (Layout.ofHeader header) file asked = .ok bytes := by
  generalize hanswer : (.ok (some bytes) : Except StoreError (Option Bytes)) = answer at h
  cases h with
  | memory hpart hthere _ _ =>
      obtain ⟨given, hrecord, hsame⟩ := map_eq_ok_iff.mp hanswer.symm
      rw [← Option.some.inj hsame]
      exact .inl ⟨_, hpart, hthere, hrecord⟩
  | @cached asked given _ haddress hread =>
      rw [Option.some.inj (Except.ok.inj hanswer)]
      exact .inr ⟨asked, haddress, hread⟩
  | full _ _ _ => cases Except.ok.inj hanswer
  | streamed hfile _ =>
      obtain ⟨given, hstream, hsame⟩ := map_eq_ok_iff.mp hanswer.symm
      have hread := Source.reading_of_stream hstream
      rw [hfile] at hread
      rw [← Option.some.inj hsame]
      exact .inr ⟨key, rfl, hread⟩

/-- **Every answer is a window**, if it has bytes. -/
theorem Served.window (h : Served file header source c storage keys key (.ok (some bytes)))
    (hstart : source.start = header.start)
    (hlimit : source.start.toNat + (Layout.ofHeader header).size < 2 ^ 64) :
    (Layout.ofHeader header).Window file.contents header.start.toNat key.address bytes := by
  rcases h.origin with ⟨part, hpart, hthere, hrecord⟩ | ⟨asked, haddress, hread⟩
  · obtain ⟨hinside, hbytes⟩ := Resident.record_eq_ok hthere hrecord
    exact ⟨hinside.trans hpart, hbytes⟩
  · rw [← haddress, ← hstart]
    have hextract := Source.extract hread
    have hinside := hextract.inside
    exact (Layout.extract_iff_window (by omega)).mp hextract

/-- An answer is an extract, wherever the collection is said to start. -/
theorem Served.extract (h : Served file header source c storage keys key (.ok (some bytes)))
    (hstart : source.start = header.start)
    (hlimit : file.contents.length < Handle.positionLimit) :
    (Layout.ofHeader header).Extract file.contents header.start key.address bytes := by
  unfold Handle.positionLimit at hlimit
  rcases h.origin with ⟨part, hpart, hthere, hrecord⟩ | ⟨asked, haddress, hread⟩
  · obtain ⟨hinside, hbytes⟩ := Resident.record_eq_ok hthere hrecord
    exact (Layout.extract_iff_window (by omega)).mpr ⟨hinside.trans hpart, hbytes⟩
  · rw [← haddress, ← hstart]
    exact Source.extract hread

/-- A collection that has a record at its start does not start too far out for
a file. -/
theorem Served.start_lt (h : Served file header source c storage keys key (.ok (some bytes)))
    (hstart : source.start = header.start)
    (hlimit : file.contents.length < Handle.positionLimit)
    (hfirst : (Layout.ofHeader header).offsetOf key.address = 0) :
    header.start.toNat < Handle.positionLimit := by
  rcases h.origin with ⟨part, -, hthere, -⟩ | ⟨asked, haddress, hread⟩
  · omega
  · have hposition := Source.position_lt hread
    rw [haddress, hfirst, hstart] at hposition
    simpa using hposition

/-- **Records stay inside, and gets do not fail a machine.**  A header was read
somewhere in `data`, and a collection was created with it.  After any gets and
releases, a get for any key gives bytes only from where its record starts to at
most the end of the collection, so none of what lies behind it.  On a machine it
comes to the same, without an overflow, an index or a slice outside, as long as
the items that are held can be counted in a word. -/
theorem get_contained {data : Bytes} {elementSize : UInt32} {isCount : Bool} {start : Storage}
    (hheader : header.ReadFrom data elementSize isCount)
    (hlimit : data.length < Handle.positionLimit) (hcreated : Created data header c start)
    (hpool : start.pool.concurrency < 2 ^ 16) (hvisited : Visited c start keys storage items)
    (key : Key) :
    (∀ item, ((c.get key).run storage).1 = .ok (some item) →
        c.layout.Window data header.start.toNat key.address item.bytes) ∧
      (items.length + 1 < 2 ^ 32 → Checked.get c key storage = .ok ((c.get key).run storage)) := by
  obtain ⟨file, source, rfl, hstart, hopened, hbacked⟩ := hcreated.opened
  have hnow := hbacked.visited hopened hvisited
  have hfirst := hheader.start_le hlimit
  have hsize := (Layout.bounded_ofHeader header).size
  have hend : source.start.toNat + (Layout.ofHeader header).size < 2 ^ 64 := by
    unfold Handle.positionLimit at hlimit
    rw [hstart]
    omega
  refine ⟨?_, ?_⟩
  · intro item hitem
    have hserved := hnow.served hopened key
    rw [hitem] at hserved
    rw [hopened.layout]
    exact hserved.window hstart hend
  · intro hheld
    rw [← hvisited.steady.concurrency] at hpool
    exact Checked.get_eq hnow hopened hpool hend hheld key

end

/-- A text at the end of a collection that another one follows, read through a
cache. -/
theorem get_contained_text : ∃ c position start item,
    Collection.ofFile (.cached 1 1) ⟨4, 5, 0⟩
        (.over ⟨[5, 0, 0, 0, 3, 0, 97, 98, 0, 1, 0, 0, 0, 7], true⟩ ⟨1, [], 0, 0⟩) =
      .ok ((c, position), start) ∧
    ((c.get ⟨0, .string⟩).run start).1 = .ok (some item) ∧
    c.layout.Window [5, 0, 0, 0, 3, 0, 97, 98, 0, 1, 0, 0, 0, 7] 4 0 item.bytes ∧
    Checked.get c ⟨0, .string⟩ start = .ok ((c.get ⟨0, .string⟩).run start) := by
  let storage := Storage.over
    ⟨[5, 0, 0, 0, 3, 0, 97, 98, 0, 1, 0, 0, 0, 7], true⟩ ⟨1, [], 0, 0⟩
  let c : Collection := ⟨⟨0, 5, 0⟩, .file ⟨4, some 0⟩⟩
  let start : Storage := ⟨storage.file, storage.pool,
    #[⟨#[Cache.Shard.ofSize 1], Collection.spread, 1, 1, 0, 0⟩]⟩
  let item : Item := ⟨[3, 0, 97, 98, 0], some (0, ⟨0, 0⟩)⟩
  have hopen : Collection.ofFile (.cached 1 1) ⟨4, 5, 0⟩ storage = .ok ((c, 9), start) := rfl
  have hheader : (⟨4, 5, 0⟩ : Header).ReadFrom storage.file.contents 0 false :=
    ⟨0, .inr ⟨true, 4, rfl⟩⟩
  have hitem : ((c.get ⟨0, .string⟩).run start).1 = .ok (some item) := by cbv
  obtain ⟨hwindow, hchecked⟩ := get_contained hheader (by decide) (.ofFile rfl hopen) (by decide)
    .start ⟨0, .string⟩
  exact ⟨c, 9, start, item, hopen, hitem, hwindow item hitem, hchecked (by decide)⟩

end RecordStore
