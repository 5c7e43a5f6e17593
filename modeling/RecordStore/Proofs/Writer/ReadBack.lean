import Mathlib
import RecordStore.Proofs.Collection.Agreement
import RecordStore.Proofs.Writer.Drafts

/-!
# What is written is read back

A writer refuses what cannot be stored and gives everything else an offset.
The finished data, somewhere in a file, is a collection, and in whatever way it
is held, the record at an offset is the one that was given that offset
(`records_read_back`).
-/

namespace RecordStore

/-! ## Records in a collection -/

/-- A record that starts at the address of a key, and is sized by its sizing,
is the record of the key. -/
theorem Layout.record_of_sizes {layout : Layout} {front record back : Bytes} {key : Key}
    (hfixed : layout.isFixed = false) (hsize : layout.size = (front ++ record ++ back).length)
    (haddress : key.address.toNat = front.length) (hsizes : key.sizing.Sizes record)
    (hpos : 0 < record.length) (hlt : record.length < 4294967296) :
    layout.record (front ++ record ++ back) key = .ok record := by
  have hinitial := hsizes.initial
  rw [List.length_append, List.length_append] at hsize
  have hheader : layout.headerOf key = .ok (front.length, key.sizing.initialBytes.toNat) :=
    Layout.headerOf_eq_ok_iff.mpr ⟨by omega, haddress.symm, rfl, by omega⟩
  have hdrop : (front ++ record ++ back).drop front.length = record ++ back := by
    rw [List.append_assoc, List.drop_left]
  have hfront : ((front ++ record ++ back).drop front.length).take
      key.sizing.initialBytes.toNat = record.take key.sizing.initialBytes.toNat := by
    rw [hdrop, List.take_append_of_le_length hinitial]
  have hlength : layout.lengthOf key (record.take key.sizing.initialBytes.toNat) =
      .ok record.length := by
    refine Layout.lengthOf_eq_ok_iff.mpr ⟨_, hsizes.full, ?_, by omega⟩
    exact (UInt32.toNat_ofNat_of_lt' hlt).symm
  unfold Layout.record Layout.locate
  rw [if_neg (ne_true_of_eq_false hfixed), hheader]
  simp only [bind, Except.bind, hfront, hlength, pure, Except.pure]
  rw [hdrop, List.take_left]

/-- The record of a draft, somewhere in data, is found at its offset, sized as any
type that the draft is read as, and decoded to what that type reads. -/
theorem Draft.record_of_reading {draft : Draft} {data front record back : Bytes}
    {offset : UInt32} {type : ValueType} {value : StoredValue}
    (hdata : data = front ++ record ++ back) (hlength : data.length < 4294967296)
    (hoffset : offset.toNat = front.length) (hrecord : draft.record = .ok record)
    (hreading : (type, value) ∈ draft.readings) : ∃ sizing, type.sizing = .ok sizing ∧
      Layout.record ⟨0, data.length, 0⟩ data ⟨offset, sizing⟩ = .ok record ∧
        StoredValue.decode record type = .ok value := by
  obtain ⟨sizing, hsizing, hsizes, hdecode⟩ := Draft.decodes hrecord hreading
  refine ⟨sizing, hsizing, ?_, hdecode⟩
  have htotal := congrArg List.length hdata
  simp only [List.length_append] at htotal
  rw [hdata]
  exact Layout.record_of_sizes rfl rfl hoffset hsizes (Draft.length_record_pos hrecord) (by omega)

/-- A value is got as the record at its address. -/
theorem run_value {c : Collection} {address : UInt32} {type : ValueType} {sizing : Sizing}
    (h : type.sizing = .ok sizing) (storage : Storage) :
    (c.value address type).run storage = (c.get ⟨address, sizing⟩).run storage := by
  unfold Collection.value
  rw [h]
  rfl

/-! ## Finished data -/

section

variable {drafts before rest : List Draft} {draft : Draft} {offset : UInt32}

/-- The offsets of a writer: what can be stored gets the byte length before it
as its offset, and what cannot leaves everything as it is. -/
structure Ledger (drafts : List Draft) : Prop where
  accepts : ∀ {before rest : List Draft} {draft : Draft}, drafts = before ++ draft :: rest →
    ((∃ offset, (draft.write (written before)).result = .ok offset) ↔ draft.Storable)
  offset : ∀ {before rest : List Draft} {draft : Draft} {offset : UInt32},
    drafts = before ++ draft :: rest → (draft.write (written before)).result = .ok offset →
      offset.toNat = (written before).length ∧
        written (before ++ [draft]) = (draft.write (written before)).writer ∧
        (written (before ++ [draft])).count = (written before).count + 1
  increasing : ∀ {before between rest : List Draft} {draft later : Draft} {offset next : UInt32},
    drafts = before ++ draft :: (between ++ later :: rest) →
      (draft.write (written before)).result = .ok offset →
        (later.write (written (before ++ draft :: between))).result = .ok next → offset < next
  refused : ∀ {before rest : List Draft} {draft : Draft} {e : WriteError},
    drafts = before ++ draft :: rest → (draft.write (written before)).result = .error e →
      (draft.write (written before)).writer = written before ∧
        written (before ++ [draft]) = written before

theorem length_written_le (before rest : List Draft) :
    (written before).length ≤ (written (before ++ rest)).length :=
  (prefix_data_written before rest).length_le

/-- An offset is the byte length before. -/
theorem toNat_offset (h : (draft.write (written before)).result = .ok offset) :
    offset.toNat = (written before).length := by
  obtain ⟨-, -, hlength, rfl, -⟩ := Draft.write_eq_ok h
  exact UInt32.toNat_ofNat_of_lt' hlength

theorem ledger (hfits : (written drafts).length < 4294967296) : Ledger drafts where
  accepts := by
    intro before rest draft hsplit
    have hlength := length_written_le before (draft :: rest)
    rw [← hsplit] at hlength
    rw [← draft.record_isOk_iff]
    constructor
    · rintro ⟨offset, hwrite⟩
      obtain ⟨record, hrecord, -⟩ := Draft.write_eq_ok hwrite
      exact ⟨record, hrecord⟩
    · rintro ⟨record, hrecord⟩
      rw [Draft.write_of_record hrecord (by omega)]
      exact ⟨_, rfl⟩
  offset := by
    intro before rest draft offset hsplit hwrite
    obtain ⟨record, -, -, -, hafter⟩ := Draft.write_eq_ok hwrite
    refine ⟨toNat_offset hwrite, written_snoc before draft, ?_⟩
    rw [written_snoc, RecordWriter.keep, hafter]
  increasing := by
    intro before between rest draft later offset next hsplit hwrite hlater
    obtain ⟨record, tail, hrecord, hdata⟩ := written_split hwrite between
    have hpos := Draft.length_record_pos hrecord
    have hlength := congrArg List.length hdata
    rw [List.length_append, List.length_append] at hlength
    rw [UInt32.lt_iff_toNat_lt, toNat_offset hwrite, toNat_offset hlater]
    unfold RecordWriter.length
    omega
  refused := by
    intro before rest draft e hsplit hwrite
    exact ⟨keep_of_refused hwrite, written_of_refused hwrite⟩

end

/-! ## Collections of records -/

section

variable {file : DataFile} {front data back : Bytes}

/-- The header of finished data at a position. -/
def finishedHeader (position length : Nat) : Header :=
  ⟨UInt64.ofNat (position + 4), UInt32.ofNat length, 0⟩

theorem ofFile_finished
    (hcontents : file.contents = front ++ (Bytes.littleEndian 4 data.length ++ data) ++ back)
    (hlength : data.length < 4294967296) : Header.ofFile file front.length 0 false =
      .ok (finishedHeader front.length data.length, front.length + 4) := by
  have hleading : Bytes.leading? 4 (file.contents.drop front.length) = some data.length := by
    rw [hcontents, List.append_assoc, List.drop_left, List.append_assoc]
    exact leading?_littleEndian_of_lt hlength _
  unfold Header.ofFile
  rw [hleading]
  rfl

theorem layout_finished (position : Nat) (hlength : data.length < 4294967296) :
    Layout.ofHeader (finishedHeader position data.length) = ⟨0, data.length, 0⟩ := by
  have hsize : (UInt32.ofNat data.length).toNat = data.length := UInt32.toNat_ofNat_of_lt' hlength
  simp [Layout.ofHeader, finishedHeader, hsize]

theorem start_finished {position : Nat} (h : position + 4 < Handle.positionLimit) (length : Nat) :
    (finishedHeader position length).start.toNat = position + 4 := by
  unfold Handle.positionLimit at h
  show (UInt64.ofNat (position + 4)).toNat = _
  rw [UInt64.toNat_ofNat']
  omega

/-- Streaming reads the records of finished data. -/
theorem reading_finished
    (hcontents : file.contents = front ++ (Bytes.littleEndian 4 data.length ++ data) ++ back)
    (hlimit : file.contents.length < Handle.positionLimit) (hlength : data.length < 4294967296)
    (key : Key) : Source.reading ⟨(finishedHeader front.length data.length).start, none⟩
        (Layout.ofHeader (finishedHeader front.length data.length)) file key =
      Layout.record ⟨0, data.length, 0⟩ data key := by
  have htotal := congrArg List.length hcontents
  simp only [List.length_append, Bytes.length_littleEndian] at htotal
  have hstart := start_finished (show front.length + 4 < Handle.positionLimit by omega) data.length
  have hdata : (file.contents.drop (front.length + 4)).take data.length = data := by
    rw [hcontents, List.append_assoc, ← List.drop_drop, List.drop_left, List.append_assoc,
      List.drop_left' (Bytes.length_littleEndian 4 _), List.take_left]
  rw [layout_finished _ hlength, Source.reading_eq_record _ hlimit]
  · simp only [hstart, hdata]
  · simp only [hstart]
    omega

end

/-- **Every value that was stored can be read back** from a collection that was
opened with the storage `start`: while nothing is held, the record at the offset
of the value is there, and is decoded as each type that the value is written as
to that value. -/
def Collection.ReadsBack (c : Collection) (start : Storage) (drafts : List Draft) : Prop :=
  ∀ {keys : List Key} {now : Storage}, Visited c start keys now [] →
    ∀ {before rest : List Draft} {draft : Draft} {offset : UInt32},
      drafts = before ++ draft :: rest → (draft.write (written before)).result = .ok offset →
        ∀ {type : ValueType} {value : StoredValue}, (type, value) ∈ draft.readings →
          ∃ sizing, type.sizing = .ok sizing ∧ (c.Undisturbed keys ⟨offset, sizing⟩ →
            ∃ item after, (c.value offset type).run now = (.ok (some item), after) ∧
              StoredValue.decode item.bytes type = .ok value)

/-- A collection reads back what was written if it gives the records of the
finished data. -/
theorem readsBack_of_record {drafts : List Draft} {c : Collection} {start : Storage}
    (hfits : (written drafts).length < 4294967296)
    (hgets : ∀ {keys now key}, Visited c start keys now [] → c.Undisturbed keys key →
      bytesGiven ((c.get key).run now).1 =
        (Layout.record ⟨0, (written drafts).length, 0⟩ (written drafts).data key).map some) :
    c.ReadsBack start drafts := by
  intro keys now hvisited before rest draft offset hsplit hwrite type value hreading
  obtain ⟨record, tail, hrecord, hdata⟩ := written_split hwrite rest
  rw [← hsplit] at hdata
  obtain ⟨sizing, hsizing, hread, hdecode⟩ :=
    Draft.record_of_reading hdata hfits (toNat_offset hwrite) hrecord hreading
  refine ⟨sizing, hsizing, ?_⟩
  intro hundisturbed
  have hbytes := (hgets hvisited hundisturbed).trans (congrArg _ hread)
  obtain ⟨item, hitem, rfl⟩ := eq_ok_of_bytesGiven hbytes
  refine ⟨item, ((c.get ⟨offset, sizing⟩).run now).2, ?_, hdecode⟩
  rw [run_value hsizing]
  exact Prod.ext hitem rfl

/-- The records after a header can be had from memory, and from the file in
whatever way they are held. -/
structure Recovers (storage : Storage) (header : Header) (reader : ByteReader)
    (drafts : List Draft) : Prop where
  memory : ∃ c rest, Collection.ofReader reader header = .ok (c, rest) ∧
    ∀ start, c.ReadsBack start drafts
  opens : ∀ config : CollectionConfig, (config.hasCache →
      ∃ cache, Cache.create config.capacity config.concurrency Collection.spread = .ok cache) →
    ∃ c position start, Collection.ofFile config header storage = .ok ((c, position), start)
  file : ∀ {config c position start},
    Collection.ofFile config header storage = .ok ((c, position), start) → c.ReadsBack start drafts

/-- A header whose collection is all in the file, and streams the finished data,
leads to what was written. -/
theorem recovers {storage : Storage} {header : Header} {position : Nat} {drafts : List Draft}
    (hfits : (written drafts).length < 4294967296) (hready : storage.Ready)
    (hlimit : storage.file.contents.length < Handle.positionLimit) (hheader : header.Fits)
    (hposition : header.start.toNat = position)
    (hthere : header.start.toNat + (Layout.ofHeader header).size ≤ storage.file.contents.length)
    (hreading : ∀ key,
      Source.reading ⟨header.start, none⟩ (Layout.ofHeader header) storage.file key =
        Layout.record ⟨0, (written drafts).length, 0⟩ (written drafts).data key) :
    Recovers storage header ⟨storage.file.contents, position⟩ drafts where
  memory := by
    obtain ⟨rest, hmemory⟩ := ofReader_of_le hposition (hposition ▸ hthere)
    refine ⟨_, rest, hmemory, ?_⟩
    intro start
    apply readsBack_of_record hfits
    intro keys now key _ _
    have hopened : Opened storage.file header ⟨header.start, none⟩ ⟨Layout.ofHeader header,
        .memory (Resident.ofFile storage.file header (Layout.ofHeader header).size)⟩ :=
      .memory hthere
    rw [hopened.get_of_holds hheader rfl hlimit rfl now, ← hreading]
    exact bytesGiven_at_hand _
  opens := by
    intro config hcreate
    obtain ⟨source, after, hsource⟩ := exists_openSource hcreate header.start storage
    obtain ⟨c, position, left, hopen, -⟩ := exists_ofFile_of_source hsource hthere hlimit
    exact ⟨c, position, left, hopen⟩
  file := by
    intro config c position start hopen
    apply readsBack_of_record hfits
    intro keys now key hvisited hundisturbed
    rw [hvisited.get_at_rest hready hlimit hheader hopen hundisturbed, hreading]

/-- **What is written is read back.**  Some values are handed to a writer, and
some of them may be refused.  The finished data, anywhere in a file, has a header
that can be read, and the values in it can be read back at their offsets. -/
theorem records_read_back {drafts : List Draft}
    (hfits : (written drafts).length < 4294967296) :
    Ledger drafts ∧ ∃ data, (written drafts).finishWithLength = .ok data ∧
      ∀ storage front back, storage.Ready →
        storage.file.contents = front ++ data ++ back →
        storage.file.contents.length < Handle.positionLimit →
        ∃ header reader,
          Header.ofFile storage.file front.length 0 false = .ok (header, front.length + 4) ∧
          Header.ofReader ⟨storage.file.contents, front.length⟩ 0 false = .ok (header, reader) ∧
          Recovers storage header reader drafts := by
  refine ⟨ledger hfits, _, if_pos hfits, ?_⟩
  intro storage front back hready hcontents hlimit
  have hheader := ofFile_finished hcontents hfits
  have hreader := ofReader_of_ofFile hheader
  obtain ⟨-, -, -, hheaderFits⟩ := ofReader_eq_ok hreader
  have htotal := congrArg List.length hcontents
  simp only [List.length_append, Bytes.length_littleEndian] at htotal
  have hstart := start_finished (show front.length + 4 < Handle.positionLimit by omega)
    (written drafts).data.length
  refine ⟨_, _, hheader, hreader, recovers hfits hready hlimit hheaderFits hstart ?_ ?_⟩
  · rw [hstart, layout_finished _ hfits]
    show front.length + 4 + (written drafts).data.length ≤ _
    omega
  · exact reading_finished hcontents hlimit hfits

/-- A text and a byte are written, and between them a text that is refused. -/
theorem records_read_back_text : ∃ data,
    written [.text "ab", .text "\x00", .byte 7] = ⟨[3, 0, 97, 98, 0, 7], 2⟩ ∧
    (written [.text "ab", .text "\x00", .byte 7]).finishWithLength = .ok data ∧
      ∃ header reader, Recovers (.over ⟨data, true⟩ ⟨1, [], 0, 0⟩) header reader
        [.text "ab", .text "\x00", .byte 7] := by
  have hwritten : written [.text "ab", .text "\x00", .byte 7] = ⟨[3, 0, 97, 98, 0, 7], 2⟩ := by cbv
  have hfits : (written [.text "ab", .text "\x00", .byte 7]).length < 4294967296 := by
    rw [hwritten]
    decide
  obtain ⟨-, data, hdata, hrecovers⟩ := records_read_back hfits
  have hbytes : data = [6, 0, 0, 0, 3, 0, 97, 98, 0, 7] := by
    rw [hwritten] at hdata
    exact (Except.ok.inj hdata).symm
  subst hbytes
  obtain ⟨header, reader, -, -, hrecovers⟩ := hrecovers
    (.over ⟨[6, 0, 0, 0, 3, 0, 97, 98, 0, 7], true⟩ ⟨1, [], 0, 0⟩) [] [] (.inr ⟨by decide, rfl⟩)
    rfl (by decide)
  exact ⟨_, hwritten, hdata, header, reader, hrecovers⟩

end RecordStore
