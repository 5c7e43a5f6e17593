import Mathlib
import RecordStore.Proofs.Collection.Sharing
import RecordStore.Proofs.Writer.Drafts

/-!
# Records are as long as they say

A record that is found by its offset is measured twice: by its sizing, from its
first bytes, when it is fetched, and by whoever decodes it.  If a sizing makes no
record shorter than the bytes it looks at (`Sizing.Covers`), those bytes are in
the record, and measured again they come to its length (`Sizing.Sizes`).  That
is so for what memory gives (`Resident.measures_of_record`) and for what is read
from the file, whatever is in it by then (`Source.measures_of_reading`).
-/

namespace RecordStore

/-- No record is shorter than the bytes that its length is found in. -/
def Sizing.Covers (sizing : Sizing) : Prop :=
  ∀ header word, sizing.fullLength header = .ok word →
    sizing.initialBytes.toNat ≤ word.toNat

/-- A record of the length that its first bytes come to. -/
structure Sizing.Measures (sizing : Sizing) (record : Bytes) : Prop extends
    sizing.Sizes record where
  length_lt : record.length < 4294967296

theorem Sizing.Measures.of_length {sizing : Sizing} {record : Bytes} {word : UInt32}
    (hinitial : sizing.initialBytes.toNat ≤ record.length)
    (hfull : sizing.fullLength (record.take sizing.initialBytes.toNat) = .ok word)
    (hlength : record.length = word.toNat) : sizing.Measures record where
  initial := hinitial
  full := by rw [hfull, hlength, UInt32.ofNat_toNat]
  length_lt := by
    rw [hlength]
    exact word.toNat_lt

theorem Sizing.Measures.toNat_length {sizing : Sizing} {record : Bytes}
    (h : sizing.Measures record) : (UInt32.ofNat record.length).toNat = record.length :=
  UInt32.toNat_ofNat_of_lt' h.length_lt

section

variable {layout : Layout} {resident : Resident} {source : Source} {file : DataFile} {key : Key}
  {record : Bytes}

/-- **What memory gives** is measured. -/
theorem Resident.measures_of_record (hfixed : resident.layout.isFixed = false)
    (hsize : resident.layout.size = resident.bytes.length) (hcovers : key.sizing.Covers)
    (h : resident.record key = .ok record) : key.sizing.Measures record := by
  unfold Resident.record Layout.record Layout.locate at h
  rw [if_neg (ne_true_of_eq_false hfixed)] at h
  obtain ⟨⟨offset, length⟩, hlocate, hsame⟩ := bind_eq_ok_iff.mp h
  obtain ⟨⟨start, initial⟩, hheader, hlocate⟩ := bind_eq_ok_iff.mp hlocate
  obtain ⟨found, hlength, hplace⟩ := bind_eq_ok_iff.mp hlocate
  obtain ⟨rfl, rfl⟩ := Prod.mk.inj (Except.ok.inj hplace)
  obtain ⟨-, hstart, rfl, -⟩ := Layout.headerOf_eq_ok_iff.mp hheader
  obtain ⟨word, hword, rfl, hend⟩ := Layout.lengthOf_eq_ok_iff.mp hlength
  have hinitial := hcovers _ _ hword
  have hrecord : record = (resident.bytes.drop start).take word.toNat :=
    (Except.ok.inj hsame).symm
  have hcount : record.length = word.toNat := by
    rw [hrecord, List.length_take, List.length_drop]
    omega
  refine .of_length (hcount ▸ hinitial) ?_ hcount
  rw [hrecord, List.take_take, Nat.min_eq_left hinitial]
  exact hword

/-- **What is read from the file** is measured. -/
theorem Source.measures_of_reading (hfixed : layout.isFixed = false)
    (hcovers : key.sizing.Covers) (h : source.reading layout file key = .ok record) :
    key.sizing.Measures record := by
  unfold Source.reading at h
  rw [if_neg (ne_true_of_eq_false hfixed)] at h
  obtain ⟨⟨offset, initial⟩, hheader, h⟩ := bind_eq_ok_iff.mp h
  obtain ⟨first, hfirst, h⟩ := bind_eq_ok_iff.mp h
  obtain ⟨_, hlength, h⟩ := bind_eq_ok_iff.mp h
  obtain ⟨rest, hrest, hsame⟩ := bind_eq_ok_iff.mp h
  obtain ⟨-, -, rfl, -⟩ := Layout.headerOf_eq_ok_iff.mp hheader
  obtain ⟨word, hword, rfl, -⟩ := Layout.lengthOf_eq_ok_iff.mp hlength
  obtain ⟨-, hfirst⟩ := DataFile.part_eq_ok (DataFile.part_of_partAt hfirst)
  obtain ⟨-, hrest⟩ := DataFile.part_eq_ok hrest
  have hinitial := hcovers _ _ hword
  have hrecord : record = first ++ rest := by
    rw [← Except.ok.inj hsame, List.take_of_length_le (by omega)]
  have hcount : record.length = word.toNat := by
    rw [hrecord, List.length_append, hfirst, hrest]
    omega
  refine .of_length (hcount ▸ hinitial) ?_ hcount
  rw [hrecord, List.take_left' hfirst]
  exact hword

end

/-- **What is fetched is measured**: from a collection of records that differ in
length and that has no cache, whatever storage has become. -/
theorem Created.measures_of_get {data : Bytes} {header : Header} {c : Collection}
    {start now : Storage} {key : Key} {item : Item} (hcreated : Created data header c start)
    (hfixed : c.layout.isFixed = false) (hcache : c.cacheId? = none)
    (hcovers : key.sizing.Covers) (h : ((c.get key).run now).1 = .ok (some item)) :
    key.sizing.Measures item.bytes := by
  obtain ⟨file, source, -, -, hopened, -⟩ := hcreated.opened
  rw [hopened.layout] at hfixed
  have hmemory : ∀ {count : Nat}, ((Resident.ofFile file header count).record key).map
      (some ⟨·, none⟩ : Bytes → Option Item) = .ok (some item) →
        key.sizing.Measures item.bytes := by
    intro count hmap
    obtain ⟨bytes, hrecord, hsame⟩ := map_eq_ok_iff.mp hmap
    rw [← Option.some.inj hsame]
    exact Resident.measures_of_record
      (show (Resident.ofFile file header count).layout.isFixed = false from hfixed) rfl hcovers
      hrecord
  have hsource : c.source? = some source →
      ((source.get (Layout.ofHeader header) key).run now).1 = .ok (some item) →
        key.sizing.Measures item.bytes := by
    intro hsome hget
    rw [Source.get_run_uncached ((Collection.cacheId?_of_source? hsome).symm.trans hcache)] at hget
    obtain ⟨bytes, hstream, hsame⟩ := map_eq_ok_iff.mp hget
    rw [← Option.some.inj hsame]
    exact Source.measures_of_reading hfixed hcovers (Source.reading_of_stream hstream)
  cases hopened with
  | memory _ =>
      rw [get_resident rfl (.inl rfl)] at h
      exact hmemory h
  | @both count _ _ =>
      by_cases hheld : (Resident.ofFile file header count).holds key
      · rw [get_resident rfl (.inr hheld)] at h
        exact hmemory h
      · have hget : Collection.get ⟨Layout.ofHeader header,
            .both (Resident.ofFile file header count) source⟩ key =
              source.get (Layout.ofHeader header) key := if_neg hheld
        rw [hget] at h
        exact hsource rfl h
  | file => exact hsource rfl h

end RecordStore
