import Mathlib
import RecordStore.Proofs.Collection.Refusing

/-!
# The size of a record

A header is read with the size that its records are said to have, but only the
byte length and the number of records are kept.  Their quotient is the size
that was said and a share of the bytes that are left over
(`elementSize_of_ofValue`), so it is the same size exactly if fewer bytes are
left over than there are records.

Records lie one after another at the distance of that quotient, in a collection
that was just created from bytes that are all there (`get_of_index`).
-/

namespace RecordStore

/-! ## The quotient -/

/-- A length over the number of whole elements in it is the size of an element
and what each of them gets of the rest. -/
theorem div_div_eq_add {length element : Nat} (h : 0 < length / element) :
    length / (length / element) = element + length % element / (length / element) := by
  calc length / (length / element)
      = (length / element * element + length % element) / (length / element) := by
        rw [Nat.mul_comm, Nat.div_add_mod]
    _ = element + length % element / (length / element) := Nat.mul_add_div h element _

section

variable {start : UInt64} {value elementSize : UInt32} {isCount : Bool} {header : Header}

/-- Either meaning of its four bytes gives a header the number of whole records
in its length. -/
theorem Header.count_eq_div (h : Header.ofValue start value elementSize isCount = .ok header)
    (hpos : 0 < elementSize.toNat) :
    header.count.toNat = header.length.toNat / elementSize.toNat := by
  unfold Header.ofValue at h
  split at h
  · split at h
    · next hbound =>
        obtain rfl := Except.ok.inj h
        simp only [UInt32.toNat_mul, Nat.mod_eq_of_lt hbound]
        exact (Nat.mul_div_cancel _ hpos).symm
    · cases h
  · split at h
    · next hzero =>
        rw [hzero] at hpos
        exact absurd hpos (Nat.lt_irrefl 0)
    · obtain rfl := Except.ok.inj h
      exact UInt32.toNat_div value elementSize

/-- What was read as a header came from some four bytes. -/
theorem Header.ofValue_of_ofReader {reader after : ByteReader}
    (h : Header.ofReader reader elementSize isCount = .ok (header, after)) :
    ∃ start value, Header.ofValue start value elementSize isCount = .ok header := by
  obtain ⟨⟨value, ahead⟩, -, hrest⟩ := bind_eq_ok_iff.mp h
  obtain ⟨read, hread, hsame⟩ := bind_eq_ok_iff.mp hrest
  obtain ⟨rfl, -⟩ := Prod.mk.inj (Except.ok.inj hsame)
  exact ⟨_, value, hread⟩

/-- **The size of a record** is the size that was said and a share of what is
left over. -/
theorem Header.elementSize_of_ofValue
    (h : Header.ofValue start value elementSize isCount = .ok header)
    (hpos : 0 < elementSize.toNat) (hcount : 0 < header.count.toNat) :
    (Layout.ofHeader header).elementSize =
      elementSize.toNat + header.length.toNat % elementSize.toNat / header.count.toNat := by
  have hdiv := Header.count_eq_div h hpos
  show header.length.toNat / header.count.toNat = _
  rw [hdiv] at hcount ⊢
  exact div_div_eq_add hcount

end

/-! ## Records one after another -/

/-- A numbered record is inside. -/
theorem Layout.window_inside {header : Header} {index : Nat}
    (h : index < (Layout.ofHeader header).count) :
    index * (Layout.ofHeader header).elementSize + (Layout.ofHeader header).elementSize ≤
      (Layout.ofHeader header).size := by
  calc index * (Layout.ofHeader header).elementSize + (Layout.ofHeader header).elementSize
      = (index + 1) * (Layout.ofHeader header).elementSize := (Nat.succ_mul ..).symm
    _ ≤ (Layout.ofHeader header).count * (Layout.ofHeader header).elementSize :=
        Nat.mul_le_mul_right _ h
    _ ≤ (Layout.ofHeader header).size := Nat.mul_div_le ..

/-- A numbered record that is sized within the size of a record. -/
theorem Layout.record_of_index {header : Header} {bytes : Bytes} {key : Key}
    (hindex : key.address.toNat < (Layout.ofHeader header).count)
    (hsizing : key.sizing.initialBytes.toNat ≤ (Layout.ofHeader header).elementSize)
    (hfixed : (Layout.ofHeader header).isFixed) :
    (Layout.ofHeader header).record bytes key =
      .ok ((bytes.drop (key.address.toNat * (Layout.ofHeader header).elementSize)).take
        (Layout.ofHeader header).elementSize) := by
  have hrecord : (Layout.ofHeader header).fixedRecord key =
      .ok (key.address.toNat * (Layout.ofHeader header).elementSize,
        (Layout.ofHeader header).elementSize) :=
    Layout.fixedRecord_eq_ok_iff.mpr
      ⟨hindex, rfl, (max_eq_left hsizing).symm, Layout.window_inside hindex⟩
  unfold Layout.record Layout.locate
  rw [if_pos hfixed, hrecord]
  rfl

/-- **A collection that was just created** from bytes that are all there gives
each record as it lies in them. -/
theorem Created.get_record {data : Bytes} {header : Header} {c : Collection} {start : Storage}
    (h : Created data header c start) (hfits : header.Fits)
    (hthere : header.start.toNat + (Layout.ofHeader header).size ≤ data.length)
    (hlimit : data.length < Handle.positionLimit) (hready : c.source? = none ∨ start.Ready)
    (key : Key) : bytesGiven ((c.get key).run start).1 =
      ((Layout.ofHeader header).record
        ((data.drop header.start.toNat).take (Layout.ofHeader header).size) key).map some := by
  obtain ⟨file, source, rfl, hstart, hopened, hbacked⟩ := h.opened
  have hreading : source.reading (Layout.ofHeader header) file key =
      (Layout.ofHeader header).record
        ((file.contents.drop header.start.toNat).take (Layout.ofHeader header).size) key := by
    rw [← hstart] at hthere ⊢
    exact Source.reading_eq_record hthere hlimit
  rw [← hreading]
  have hserved := hbacked.served hopened key
  generalize hgiven : bytesGiven ((c.get key).run start).1 = answer at hserved
  cases hserved with
  | memory _ _ hresident hheld =>
      rw [← hgiven, hopened.get_of_holds hfits hstart hlimit (holds_of_resident hresident hheld)]
      exact bytesGiven_at_hand _
  | cached hasked _ _ => cases hasked
  | full hsome hid hfull =>
      exact absurd ⟨source, _, hsome, hid, hfull⟩
        (hbacked.not_blocked hopened.source_eq key.address)
  | streamed hfile _ =>
      rcases hready with hnone | hready
      · have hholds : c.holds key := holds_of_source?_eq_none hnone
        rw [← hgiven, hopened.get_of_holds hfits hstart hlimit hholds]
        exact bytesGiven_at_hand _
      · obtain ⟨after, hrun, -⟩ := source.stream_run (Layout.ofHeader header) key hready
        rw [hrun, hfile]

/-- **Records by index.**  A collection is created with a header that was read
with a size for its records, from bytes that are all there.  It counts the
records that the header counts.  The size of a record is the size that was said
and a share of the bytes that are left over, so it is the size that was said
exactly if fewer are left over than there are records.  Every record is the
window of that size at its index, however the collection is held. -/
theorem get_of_index {data : Bytes} {elementSize : UInt32} {isCount : Bool} {header : Header}
    {c : Collection} {start : Storage} (hheader : header.ReadFrom data elementSize isCount)
    (hpos : 0 < elementSize.toNat) (hcount : 0 < header.count.toNat)
    (hthere : header.start.toNat + header.length.toNat ≤ data.length)
    (hlimit : data.length < Handle.positionLimit) (hcreated : Created data header c start)
    (hready : c.source? = none ∨ start.Ready) :
    c.count = header.count.toNat ∧
      c.elementSize =
        elementSize.toNat + header.length.toNat % elementSize.toNat / header.count.toNat ∧
      (c.elementSize = elementSize.toNat ↔
        header.length.toNat % elementSize.toNat < header.count.toNat) ∧
      ∀ key : Key, key.address.toNat < c.count →
        key.sizing.initialBytes.toNat ≤ c.elementSize →
          ∃ bytes, bytesGiven ((c.get key).run start).1 = .ok (some bytes) ∧
            bytes = (data.drop (header.start.toNat + key.address.toNat * c.elementSize)).take
              c.elementSize ∧
            bytes.length = c.elementSize := by
  obtain ⟨position, reader, hreader⟩ := hheader.ofReader
  obtain ⟨first, value, hvalue⟩ := Header.ofValue_of_ofReader hreader
  have hsize := Header.elementSize_of_ofValue hvalue hpos hcount
  obtain ⟨file, source, -, -, hopened, -⟩ := hcreated.opened
  have hlayout := hopened.layout
  unfold Collection.count Collection.elementSize
  rw [hlayout]
  have hfixed : (Layout.ofHeader header).isFixed := by
    rw [Layout.isFixed, hsize]
    exact decide_eq_true (Nat.add_pos_left hpos _)
  refine ⟨rfl, hsize, ?_, ?_⟩
  · rw [hsize, Nat.add_eq_left, Nat.div_eq_zero_iff_lt hcount]
  · intro key hindex hsizing
    have hget := hcreated.get_record hheader.fits hthere hlimit hready key
    rw [Layout.record_of_index hindex hsizing hfixed] at hget
    have hinside := Layout.window_inside hindex
    refine ⟨_, hget, ?_, ?_⟩
    · rw [window_window hinside]
    · rw [window_window hinside, List.length_take, List.length_drop]
      have hend : header.start.toNat + (Layout.ofHeader header).size ≤ data.length := hthere
      omega

/-- The second of two integers, read through a cache. -/
theorem get_of_index_second : ∃ c position start,
    Collection.ofFile (.cached 1 1) ⟨4, 8, 2⟩
        (.over ⟨[8, 0, 0, 0, 1, 2, 3, 4, 5, 6, 7, 8], true⟩ ⟨1, [], 0, 0⟩) =
      .ok ((c, position), start) ∧
    c.elementSize = 4 ∧ ∃ bytes,
      bytesGiven ((c.get ⟨1, .integer⟩).run start).1 = .ok (some bytes) ∧ bytes = [5, 6, 7, 8] := by
  let storage := Storage.over ⟨[8, 0, 0, 0, 1, 2, 3, 4, 5, 6, 7, 8], true⟩ ⟨1, [], 0, 0⟩
  let c : Collection := ⟨⟨2, 8, 4⟩, .file ⟨4, some 0⟩⟩
  have hopen : ∃ start, Collection.ofFile (.cached 1 1) ⟨4, 8, 2⟩ storage = .ok ((c, 12), start) ∧
      start.Ready := ⟨_, rfl, .inr ⟨by decide, rfl⟩⟩
  obtain ⟨start, hopen, hready⟩ := hopen
  have hheader : Header.ofFile ⟨storage.file.contents, true⟩ 0 4 false = .ok (⟨4, 8, 2⟩, 4) := rfl
  obtain ⟨-, -, hsize, hget⟩ := get_of_index ⟨0, .inr ⟨true, 4, hheader⟩⟩ (by decide) (by decide)
    (by decide) (by decide) (.ofFile rfl hopen) (.inr hready)
  obtain ⟨bytes, hbytes, hwindow, -⟩ := hget ⟨1, .integer⟩ (by decide) (by decide)
  exact ⟨c, 12, start, hopen, hsize.mpr (by decide), bytes, hbytes, hwindow⟩

/-- **The size that was said is not always kept**: seven bytes that are said to
be integers are one record of seven bytes. -/
theorem get_of_index_left_over : ∃ reader c rest storage,
    Header.ofReader ⟨[7, 0, 0, 0, 1, 2, 3, 4, 5, 6, 7], 0⟩ 4 false = .ok (⟨4, 7, 1⟩, reader) ∧
      Collection.ofReader reader ⟨4, 7, 1⟩ = .ok (c, rest) ∧
      c.count = 1 ∧ c.elementSize ≠ 4 ∧
      bytesGiven ((c.get ⟨0, .integer⟩).run storage).1 ≠ .ok (some [1, 2, 3, 4]) := by
  let c : Collection := ⟨⟨1, 7, 7⟩, .memory ⟨[1, 2, 3, 4, 5, 6, 7], ⟨1, 7, 7⟩⟩⟩
  let storage := Storage.over ⟨[], true⟩ ⟨1, [], 0, 0⟩
  have hget : bytesGiven ((c.get ⟨0, .integer⟩).run storage).1 =
      .ok (some [1, 2, 3, 4, 5, 6, 7]) := by cbv
  refine ⟨_, c, _, storage, rfl, rfl, rfl, by decide, ?_⟩
  rw [hget]
  intro hsame
  cases hsame

end RecordStore
