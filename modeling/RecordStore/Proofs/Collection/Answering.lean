import Mathlib
import RecordStore.Proofs.Collection.Agreement

/-!
# Where an answer comes from

A collection is made of the bytes of a reader or of a file (`Created`), with
any header that it can be made with.  After any gets and releases, whether or
not there is a handle to be had, a get is answered with a record of the part
that is in memory, with bytes that were read for a key of the same address,
with what streaming comes to, or with nothing because every node is held
(`Served`).
-/

namespace RecordStore

/-- The part of a collection that is in memory, if there is one. -/
def Collection.resident? (c : Collection) : Option Resident :=
  match c.tiers with
  | .memory resident => some resident
  | .both resident _ => some resident
  | .file _ => none

/-- A header was read somewhere in `data`, as bytes or as a file, with a size
and a meaning of its four bytes. -/
def Header.ReadFrom (header : Header) (data : Bytes) (elementSize : UInt32) (isCount : Bool) :
    Prop :=
  ∃ position,
    (∃ reader, Header.ofReader ⟨data, position⟩ elementSize isCount = .ok (header, reader)) ∨
      ∃ named next, Header.ofFile ⟨data, named⟩ position elementSize isCount = .ok (header, next)

/-- What a collection was made of: it was taken from a reader over `data`, or
opened in a file with that in it. -/
inductive Created (data : Bytes) (header : Header) : Collection → Storage → Prop
  | ofReader {reader rest : ByteReader} {c : Collection} (hbytes : reader.bytes = data)
      (hinside : reader.position ≤ reader.bytes.length)
      (hopen : Collection.ofReader reader header = .ok (c, rest)) (start : Storage) :
      Created data header c start
  | ofFile {config : CollectionConfig} {storage start : Storage} {c : Collection} {position : Nat}
      (hcontents : storage.file.contents = data)
      (hopen : Collection.ofFile config header storage = .ok ((c, position), start)) :
      Created data header c start

/-- How the second tier of a collection stands: there is none, it reads the
file, or it is in use through a cache. -/
inductive Backed (file : DataFile) (header : Header) (source : Source) (c : Collection)
    (storage : Storage) (keys : List Key) (items : List Item) : Prop
  | alone (hnone : c.source? = none)
  | direct (hnone : source.cache? = none) (hfile : storage.file = file)
  | cached {id count size : Nat} (hid : source.cache? = some id) (hpos : 0 < count)
      (hsize : 0 < size)
      (huse : InUse file header source id count size storage keys items)

/-- How a get is answered. -/
inductive Served (file : DataFile) (header : Header) (source : Source) (c : Collection)
    (storage : Storage) (keys : List Key) (key : Key) : Except StoreError (Option Bytes) → Prop
  /-- From the part of the collection that is in memory. -/
  | memory {part : Nat} (hpart : part ≤ (Layout.ofHeader header).size)
      (hthere : header.start.toNat + part ≤ file.contents.length)
      (hresident : c.resident? = some (.ofFile file header part))
      (hheld : c.source? = none ∨ (Resident.ofFile file header part).holds key) :
      Served file header source c storage keys key
        (((Resident.ofFile file header part).record key).map some)
  /-- From the cache, which has what was read for a key that was asked for. -/
  | cached {asked : Key} {bytes : Bytes} (hasked : asked ∈ keys)
      (haddress : asked.address = key.address)
      (hread : source.reading (Layout.ofHeader header) file asked = .ok bytes) :
      Served file header source c storage keys key (.ok (some bytes))
  /-- Not at all: every node that the record could be loaded into is held. -/
  | full {id : Nat} (hsome : c.source? = some source) (hid : source.cache? = some id)
      (hfull : storage.Full id key.address) :
      Served file header source c storage keys key (.ok none)
  /-- From the file, as far as there is a handle to be had. -/
  | streamed (hfile : storage.file = file)
      (hfree : ∀ id, source.cache? = some id → ¬ storage.Full id key.address) :
      Served file header source c storage keys key
        (((source.stream (Layout.ofHeader header) key).run storage).1.map some)

section

variable {data : Bytes} {file : DataFile} {header : Header} {source : Source} {c : Collection}
  {start storage : Storage} {keys : List Key} {items : List Item}

/-! ## Creation -/

theorem Header.ReadFrom.ofReader {elementSize : UInt32} {isCount : Bool}
    (h : header.ReadFrom data elementSize isCount) : ∃ position reader,
      Header.ofReader ⟨data, position⟩ elementSize isCount = .ok (header, reader) := by
  obtain ⟨position, hreader | ⟨named, next, hfile⟩⟩ := h
  · exact ⟨position, hreader⟩
  · exact ⟨position, _, ofReader_of_ofFile hfile⟩

theorem Header.ReadFrom.fits {elementSize : UInt32} {isCount : Bool}
    (h : header.ReadFrom data elementSize isCount) : header.Fits := by
  obtain ⟨position, reader, hreader⟩ := h.ofReader
  exact (ofReader_eq_ok hreader).2.2.2

/-- A header that was read is followed by its collection. -/
theorem Header.ReadFrom.start_le {elementSize : UInt32} {isCount : Bool}
    (h : header.ReadFrom data elementSize isCount) (hlimit : data.length < Handle.positionLimit) :
    header.start.toNat ≤ data.length := by
  obtain ⟨position, reader, hreader⟩ := h.ofReader
  obtain ⟨-, hbound, hstart, -⟩ := ofReader_eq_ok hreader
  unfold Handle.positionLimit at hlimit
  rw [hstart, UInt64.toNat_ofNat']
  omega

/-- What is taken from a reader are the bytes ahead of it. -/
theorem ofReader_created {reader rest : ByteReader}
    (hinside : reader.position ≤ reader.bytes.length)
    (h : Collection.ofReader reader header = .ok (c, rest)) (source : Source) (named : Bool) :
    Opened ⟨reader.bytes, named⟩ header source c ∧ c.source? = none := by
  unfold Collection.ofReader at h
  by_cases hposition : reader.position = header.start.toNat
  · rw [if_neg (not_not.mpr hposition)] at h
    obtain ⟨⟨bytes, after⟩, htake, hrest⟩ := bind_eq_ok_iff.mp h
    obtain ⟨rfl, rfl⟩ := Prod.mk.inj (Except.ok.inj hrest)
    obtain ⟨moved, hmoved, htaken⟩ := bind_eq_ok_iff.mp htake
    obtain ⟨rfl, rfl⟩ := Prod.mk.inj (Except.ok.inj htaken)
    unfold ByteReader.advance ByteReader.remaining at hmoved
    split at hmoved
    · next hroom =>
        refine ⟨?_, rfl⟩
        rw [hposition]
        rw [hposition] at hroom hinside
        exact .memory (show header.start.toNat + _ ≤ reader.bytes.length by omega)
    · cases hmoved
  · rw [if_pos hposition] at h
    cases h

/-- A collection that was just created: its tiers, and what is behind them. -/
theorem Created.opened (h : Created data header c start) :
    ∃ file source, file.contents = data ∧ source.start = header.start ∧
      Opened file header source c ∧ Backed file header source c start [] [] := by
  cases h with
  | ofReader hbytes hinside hopen _ =>
      obtain ⟨hopened, hnone⟩ := ofReader_created hinside hopen ⟨header.start, none⟩ true
      exact ⟨_, _, hbytes, rfl, hopened, .alone hnone⟩
  | ofFile hcontents hopen =>
      obtain ⟨source, hstart, hopened, -, ⟨hnone, -⟩ | ⟨-, hnew⟩⟩ := ofFile_eq_ok hopen
      · exact ⟨_, source, hcontents, hstart, hopened, .alone hnone⟩
      · refine ⟨_, source, hcontents, hstart, hopened, ?_⟩
        cases hid : source.cache? with
        | none =>
            rcases openSource_eq_ok hnew with ⟨-, -, rfl⟩ | ⟨-, _, -, rfl, -⟩
            · exact .direct hid rfl
            · cases hid
        | some id =>
            obtain ⟨count, size, hpos, hsize, hlent, hempty, -⟩ := lent_openSource hnew hid
            exact .cached hid hpos hsize (hlent.inUse hempty)

/-! ## Runs -/

/-- **What is behind the tiers stays so**, whatever is asked for and given
back. -/
theorem Backed.visited (h : Backed file header source c start [] [])
    (hopened : Opened file header source c) (hvisited : Visited c start keys storage items) :
    Backed file header source c storage keys items := by
  cases h with
  | alone hnone => exact .alone hnone
  | direct hnone hfile => exact .direct hnone (hvisited.steady.file.trans hfile)
  | cached hid hpos hsize huse =>
      exact .cached hid hpos hsize (hvisited.inUse hopened hid hpos huse)

/-- A get through a source is answered from its cache, by streaming, or not at
all. -/
theorem Backed.served_source (h : Backed file header source c storage keys items)
    (hsome : c.source? = some source) (key : Key) : Served file header source c storage keys key
      (bytesGiven ((source.get (Layout.ofHeader header) key).run storage).1) := by
  cases h with
  | alone hnone =>
      rw [hnone] at hsome
      cases hsome
  | direct hnone hfile =>
      rw [Source.get_run_uncached hnone]
      simp only
      rw [bytesGiven_at_hand]
      refine .streamed hfile ?_
      intro id hid
      rw [hnone] at hid
      cases hid
  | @cached id count size hid hpos _ huse =>
      have hfull := huse.lent.get_eq_none_iff hpos hid (Layout.ofHeader header) key
      rcases hrun : (source.get (Layout.ofHeader header) key).run storage with ⟨result, after⟩
      obtain ⟨-, -, hanswers⟩ := huse.lent.get hpos hid (Layout.ofHeader header) key hrun
      rw [hrun] at hfull
      have hstreamed : result ≠ .ok none → storage.resident? id key.address = none →
          Served file header source c storage keys key
            (((source.stream (Layout.ofHeader header) key).run storage).1.map some) := by
        intro hne hbefore
        refine .streamed huse.lent.file_eq ?_
        intro id' hid' hheld
        obtain rfl := Option.some.inj (hid.symm.trans hid')
        exact hne (hfull.mpr ⟨hbefore, hheld⟩)
      generalize hgiven : bytesGiven result = given at hanswers
      generalize after.resident? id key.address = now at hanswers
      cases hanswers with
      | @hit bytes hbefore =>
          obtain ⟨asked, hmem, haddress, hread⟩ := huse.read key.address bytes hbefore
          exact .cached hmem haddress hread
      | full hbefore =>
          obtain ⟨-, hheld⟩ := hfull.mp (bytesGiven_eq_ok_none_iff.mp hgiven)
          exact .full hsome hid hheld
      | loaded hbefore hfresh =>
          have hserved := hstreamed (by rintro rfl; cases hgiven) hbefore
          rwa [hfresh] at hserved
      | failed hbefore hfresh =>
          have hserved := hstreamed (by rintro rfl; cases hgiven) hbefore
          rwa [hfresh] at hserved

/-- What memory has it serves as it is. -/
theorem get_resident {resident : Resident} {key : Key} (hresident : c.resident? = some resident)
    (hheld : c.source? = none ∨ resident.holds key) (storage : Storage) :
    (c.get key).run storage = ((resident.record key).map (some ⟨·, none⟩), storage) := by
  obtain ⟨layout, tiers⟩ := c
  cases tiers with
  | memory own =>
      obtain rfl := Option.some.inj hresident
      exact run_at_hand _ storage
  | both own source =>
      obtain rfl := Option.some.inj hresident
      have hholds : own.holds key := hheld.resolve_left (Option.some_ne_none source)
      unfold Collection.get
      simp only
      rw [if_pos hholds]
      exact run_at_hand _ storage
  | file source => cases hresident

theorem holds_of_resident {resident : Resident} {key : Key}
    (hresident : c.resident? = some resident) (hheld : c.source? = none ∨ resident.holds key) :
    c.holds key := by
  obtain ⟨layout, tiers⟩ := c
  cases tiers with
  | memory own => rfl
  | both own source =>
      obtain rfl := Option.some.inj hresident
      exact hheld.resolve_left (Option.some_ne_none source)
  | file source => cases hresident

/-- **Every answer comes from somewhere.** -/
theorem Backed.served (h : Backed file header source c storage keys items)
    (hopened : Opened file header source c) (key : Key) :
    Served file header source c storage keys key (bytesGiven ((c.get key).run storage).1) := by
  cases hopened with
  | memory hthere =>
      rw [get_resident rfl (.inl rfl)]
      simp only
      rw [bytesGiven_at_hand]
      exact .memory le_rfl hthere rfl (.inl rfl)
  | @both part hpart hthere =>
      by_cases hheld : (Resident.ofFile file header part).holds key
      · rw [get_resident rfl (.inr hheld)]
        simp only
        rw [bytesGiven_at_hand]
        exact .memory hpart hthere rfl (.inr hheld)
      · have hget : Collection.get ⟨Layout.ofHeader header,
            .both (Resident.ofFile file header part) source⟩ key =
              source.get (Layout.ofHeader header) key := if_neg hheld
        rw [hget]
        exact h.served_source rfl key
  | file => exact h.served_source rfl key

end

end RecordStore
