import Mathlib
import RecordStore.Proofs.Collection.Serving

/-!
# All tiers serve the same records

A collection that is all in the file can be held in memory, streamed, loaded
in part, or read through a cache.  A get gives the same bytes or the same error
every way (`tiers_agree`): each way comes down to `Source.reading`, a cache
because what it has was read for a key that sizes the record alike.
-/

namespace RecordStore

/-- Sizings that give every record the same length, whatever their names. -/
def Sizing.Alike (sizing other : Sizing) : Prop :=
  sizing.initialBytes = other.initialBytes ∧
    ∀ header, sizing.fullLength header = other.fullLength header

/-- Keys of one address that size it alike are read alike. -/
theorem Source.reading_congr {source : Source} {layout : Layout} {file : DataFile}
    {key other : Key} (haddress : key.address = other.address)
    (halike : key.sizing.Alike other.sizing) :
    source.reading layout file key = source.reading layout file other := by
  have hfixed : layout.fixedRecord key = layout.fixedRecord other := by
    unfold Layout.fixedRecord
    rw [haddress, halike.1]
  have hheader : layout.headerOf key = layout.headerOf other := by
    unfold Layout.headerOf
    rw [haddress, halike.1]
  have hlength : layout.lengthOf key = layout.lengthOf other := by
    funext header
    unfold Layout.lengthOf
    rw [haddress, halike.2]
  unfold reading
  rw [hfixed, hheader, hlength]

theorem Source.reading_of_start {source other : Source} (h : source.start = other.start)
    (layout : Layout) (file : DataFile) (key : Key) :
    source.reading layout file key = other.reading layout file key := by
  unfold reading
  rw [h]

/-! ## Headers -/

section

variable {file : DataFile} {position : Nat} {elementSize : UInt32} {isCount : Bool}
  {header : Header}

/-- A header is read alike from a file and from its bytes. -/
theorem ofReader_of_ofFile {first : Nat}
    (h : Header.ofFile file position elementSize isCount = .ok (header, first)) :
    Header.ofReader ⟨file.contents, position⟩ elementSize isCount =
      .ok (header, ⟨file.contents, position + 4⟩) := by
  unfold Header.ofFile at h
  unfold Header.ofReader ByteReader.word
  cases hvalue : Bytes.leading? 4 (file.contents.drop position) with
  | none =>
      rw [hvalue] at h
      cases h
  | some value =>
      rw [hvalue] at h
      simp only at h ⊢
      obtain ⟨header', hheader, hrest⟩ := bind_eq_ok_iff.mp h
      obtain ⟨rfl, -⟩ := Prod.mk.inj (Except.ok.inj hrest)
      exact bind_eq_ok_iff.mpr ⟨_, rfl, bind_eq_ok_iff.mpr ⟨_, hheader, rfl⟩⟩

/-- A header that was read is followed by its collection, and its numbers fit
each other. -/
theorem ofReader_eq_ok {reader : ByteReader} {bytes : Bytes}
    (h : Header.ofReader ⟨bytes, position⟩ elementSize isCount = .ok (header, reader)) :
    reader = ⟨bytes, position + 4⟩ ∧ position + 4 ≤ bytes.length ∧
      header.start = UInt64.ofNat (position + 4) ∧ header.Fits := by
  unfold Header.ofReader ByteReader.word at h
  cases hvalue : Bytes.leading? 4 (bytes.drop position) with
  | none =>
      rw [hvalue] at h
      cases h
  | some value =>
      rw [hvalue] at h
      obtain ⟨read, hread, hrest⟩ := bind_eq_ok_iff.mp h
      obtain rfl := Except.ok.inj hread
      obtain ⟨header', hheader, hrest⟩ := bind_eq_ok_iff.mp hrest
      obtain ⟨rfl, rfl⟩ := Prod.mk.inj (Except.ok.inj hrest)
      refine ⟨rfl, ?_, Header.start_of_ofValue hheader, Header.count_of_ofValue hheader⟩
      unfold Bytes.leading? at hvalue
      obtain ⟨⟨front, back⟩, hsplit, -⟩ := Option.map_eq_some_iff.mp hvalue
      obtain ⟨hbytes, hlength⟩ := Bytes.split?_eq_some_iff.mp hsplit
      have hcount := congrArg List.length hbytes
      rw [List.length_drop, List.length_append] at hcount
      omega

/-- A collection that is all there is taken into memory as it lies in the
file. -/
theorem ofReader_of_le (hstart : header.start.toNat = position)
    (hthere : position + (Layout.ofHeader header).size ≤ file.contents.length) :
    ∃ rest, Collection.ofReader ⟨file.contents, position⟩ header = .ok (⟨Layout.ofHeader header,
      .memory (Resident.ofFile file header (Layout.ofHeader header).size)⟩, rest) := by
  have hremaining : (Layout.ofHeader header).size ≤
      ByteReader.remaining ⟨file.contents, position⟩ := by
    unfold ByteReader.remaining
    simp only
    omega
  refine ⟨⟨file.contents, position + (Layout.ofHeader header).size⟩, ?_⟩
  unfold Collection.ofReader ByteReader.take ByteReader.advance Resident.ofFile
  simp only [hstart, hremaining, if_true, ne_eq, not_true_eq_false, if_false, bind, Except.bind,
    pure, Except.pure]

end

/-! ## Gets -/

section

variable {file : DataFile} {header : Header} {source : Source} {c : Collection}
  {start storage : Storage} {keys : List Key} {items : List Item} {key : Key}

/-- **Without a cache**, whatever was asked before, a get gives what streaming
reads. -/
theorem Visited.get_uncached (h : Visited c start keys storage items)
    (hopened : Opened file header source c) (hnone : source.cache? = none)
    (hready : start.Ready) (hfile : start.file = file) (hfits : header.Fits)
    (hstart : source.start = header.start)
    (hlimit : file.contents.length < Handle.positionLimit) (key : Key) :
    bytesGiven ((c.get key).run storage).1 =
      (source.reading (Layout.ofHeader header) file key).map some := by
  by_cases hholds : c.holds key
  · rw [hopened.get_of_holds hfits hstart hlimit hholds storage]
    exact bytesGiven_at_hand _
  · have hready' := h.steady.ready hready
    have hfile' := h.steady.file.trans hfile
    obtain ⟨after, hrun, -⟩ :=
      source.get_run_of_none hnone (Layout.ofHeader header) key hready'
    rw [hopened.get_of_not_holds (eq_false_of_ne_true hholds), hrun, hfile']
    exact bytesGiven_at_hand _

/-- **With a cache**, a get gives what streaming reads unless every node is
held, if all keys of the address that were asked for size it alike. -/
theorem Visited.get_cached {id count size : Nat} (h : Visited c start keys storage items)
    (hfresh : Fresh file header source id count size c start) (hfits : header.Fits)
    (hstart : source.start = header.start)
    (hlimit : file.contents.length < Handle.positionLimit)
    (halike : ∀ other ∈ keys, other.address = key.address → other.sizing.Alike key.sizing) :
    ((c.get key).run storage).1 = .ok none ∨ bytesGiven ((c.get key).run storage).1 =
      (source.reading (Layout.ofHeader header) file key).map some := by
  by_cases hholds : c.holds key
  · right
    rw [hfresh.opened.get_of_holds hfits hstart hlimit hholds storage]
    exact bytesGiven_at_hand _
  · obtain ⟨hnow, hasked⟩ := h.serving hfresh
    rw [hfresh.opened.get_of_not_holds (eq_false_of_ne_true hholds)]
    rcases hrun : (source.get (Layout.ofHeader header) key).run storage with ⟨result, after⟩
    obtain ⟨-, -, hanswers⟩ :=
      hnow.get hfresh.count_pos hfresh.cache (Layout.ofHeader header) key hrun
    generalize hgiven : bytesGiven result = given at hanswers
    generalize after.resident? id key.address = now at hanswers
    cases hanswers with
    | @hit bytes hbefore =>
        right
        obtain ⟨asked, hmem, haddress, hread⟩ := hasked key.address bytes hbefore
        rw [← Source.reading_congr haddress (halike asked hmem haddress), hread]
        rfl
    | full hbefore =>
        left
        exact bytesGiven_eq_ok_none_iff.mp hgiven
    | loaded hbefore hread =>
        right
        rw [hread]
        rfl
    | failed hbefore hread =>
        right
        rw [hread]
        rfl

end

/-! ## Gets while nothing is held -/

theorem eq_ok_of_bytesGiven {result : Except StoreError (Option Item)} {bytes : Bytes}
    (h : bytesGiven result = .ok (some bytes)) :
    ∃ item, result = .ok (some item) ∧ item.bytes = bytes := by
  rcases result with _ | _ | item
  · cases h
  · cases h
  · exact ⟨item, rfl, Option.some.inj (Except.ok.inj h)⟩

/-- No get has brought into the cache of a collection bytes for the address of
a key that the key would not have asked for.  None has before the first get, and
without a cache none ever does. -/
def Collection.Undisturbed (c : Collection) (keys : List Key) (key : Key) : Prop :=
  c.source?.bind Source.cache? = none ∨
    ∀ other ∈ keys, other.address = key.address → other.sizing.Alike key.sizing

/-- Keys of the same sizing disturb nothing. -/
theorem Collection.Undisturbed.append {c : Collection} {keys asked : List Key} {key : Key}
    (h : c.Undisturbed keys key) (hasked : ∀ other ∈ asked, other.sizing = key.sizing) :
    c.Undisturbed (asked ++ keys) key := by
  refine h.imp_right ?_
  intro halike other hmem haddress
  rcases List.mem_append.mp hmem with hnew | hold
  · rw [hasked other hnew]
    exact ⟨rfl, fun _ => rfl⟩
  · exact halike other hold haddress

/-- **While nothing is held**, a collection in a file gives what streaming
reads. -/
theorem Visited.get_at_rest {config : CollectionConfig} {header : Header}
    {storage start now : Storage} {c : Collection} {position : Nat} {keys : List Key} {key : Key}
    (hready : storage.Ready) (hlimit : storage.file.contents.length < Handle.positionLimit)
    (hfits : header.Fits)
    (hopen : Collection.ofFile config header storage = .ok ((c, position), start))
    (h : Visited c start keys now []) (hundisturbed : c.Undisturbed keys key) :
    bytesGiven ((c.get key).run now).1 =
      (Source.reading ⟨header.start, none⟩ (Layout.ofHeader header) storage.file key).map some := by
  obtain ⟨source, hsource, hopened, -, hcases⟩ := ofFile_eq_ok hopen
  rw [← Source.reading_of_start hsource]
  by_cases hholds : c.holds key
  · rw [hopened.get_of_holds hfits hsource hlimit hholds now]
    exact bytesGiven_at_hand _
  rcases hcases with ⟨hnone, -⟩ | ⟨hsome, hnew⟩
  · exact absurd (holds_of_source?_eq_none hnone) hholds
  · cases hid : source.cache? with
    | none =>
        rcases openSource_eq_ok hnew with ⟨-, -, rfl⟩ | ⟨-, _, -, rfl, -⟩
        · exact h.get_uncached hopened hid hready rfl hfits hsource hlimit key
        · cases hid
    | some id =>
        obtain ⟨-, -, _, _, hfresh⟩ := fresh_ofFile hopen hsome hid hready
        have halike : ∀ other ∈ keys, other.address = key.address →
            other.sizing.Alike key.sizing := by
          refine hundisturbed.resolve_left ?_
          rw [hsome, Option.bind_some, hid]
          simp
        rcases h.get_cached hfresh hfits hsource hlimit halike with hfull | hread
        · obtain ⟨hserving, -⟩ := h.serving hfresh
          rw [hopened.get_of_not_holds (eq_false_of_ne_true hholds)] at hfull
          exact absurd hfull (hserving.get_ne_none hfresh.count_pos hfresh.size_pos hid rfl _ key)
        · exact hread

/-! ## All tiers -/

/-- However a collection in a file is held, it serves the records that `memory`
serves: without a cache it can be opened and always does; with one, it does
unless every node is held, as long as no address is asked for with sizings that
differ. -/
structure TiersAgree (storage : Storage) (header : Header) (memory : Collection) : Prop where
  uncached : ∀ config, config.hasCache = false → ∃ c finish,
    Collection.ofFile config header storage = .ok ((c, finish), storage) ∧
      ∀ keys after items, Visited c storage keys after items → ∀ key elsewhere,
        bytesGiven ((c.get key).run after).1 = bytesGiven ((memory.get key).run elsewhere).1
  cached : ∀ config c finish start,
    Collection.ofFile config header storage = .ok ((c, finish), start) →
      ∀ keys after items, Visited c start keys after items → ∀ key elsewhere,
        (∀ other ∈ keys, other.address = key.address → other.sizing.Alike key.sizing) →
          ((c.get key).run after).1 = .ok none ∨
            bytesGiven ((c.get key).run after).1 = bytesGiven ((memory.get key).run elsewhere).1
  memory_ne_none : ∀ key elsewhere, ((memory.get key).run elsewhere).1 ≠ .ok none

/-- **All tiers serve the same records.** -/
theorem tiers_agree {storage : Storage} {position : Nat} {elementSize : UInt32} {isCount : Bool}
    {header : Header} (hready : storage.Ready)
    (hlimit : storage.file.contents.length < Handle.positionLimit)
    (hheader : (∃ first,
        Header.ofFile storage.file position elementSize isCount = .ok (header, first)) ∨
      ∃ reader, Header.ofReader ⟨storage.file.contents, position⟩ elementSize isCount =
        .ok (header, reader))
    (hwhole : header.start.toNat + header.length.toNat ≤ storage.file.contents.length) :
    ∃ reader memory rest,
      Header.ofReader ⟨storage.file.contents, position⟩ elementSize isCount =
        .ok (header, reader) ∧
      Collection.ofReader reader header = .ok (memory, rest) ∧
      TiersAgree storage header memory := by
  obtain ⟨reader, hreader⟩ : ∃ reader, Header.ofReader ⟨storage.file.contents, position⟩
      elementSize isCount = .ok (header, reader) := by
    rcases hheader with ⟨first, hfirst⟩ | hreader
    · exact ⟨_, ofReader_of_ofFile hfirst⟩
    · exact hreader
  obtain ⟨rfl, hbound, hstart, hfits⟩ := ofReader_eq_ok hreader
  have hposition : header.start.toNat = position + 4 := by
    unfold Handle.positionLimit at hlimit
    rw [hstart, UInt64.toNat_ofNat']
    omega
  have hthere : position + 4 + (Layout.ofHeader header).size ≤
      storage.file.contents.length := by
    rw [← hposition]
    exact hwhole
  obtain ⟨rest, hmemory⟩ := ofReader_of_le hposition hthere
  rw [← hposition] at hthere
  have hserves : ∀ key elsewhere, bytesGiven ((Collection.get ⟨Layout.ofHeader header, .memory
      (Resident.ofFile storage.file header (Layout.ofHeader header).size)⟩ key).run elsewhere).1 =
        (Source.reading ⟨header.start, none⟩ (Layout.ofHeader header) storage.file key).map
          some := by
    intro key elsewhere
    have hopened : Opened storage.file header ⟨header.start, none⟩ _ := .memory hthere
    rw [hopened.get_of_holds hfits rfl hlimit rfl elsewhere]
    exact bytesGiven_at_hand _
  refine ⟨_, _, rest, hreader, hmemory, ?_, ?_, ?_⟩
  · intro config hcache
    obtain ⟨c, finish, hopen, hopened⟩ := exists_ofFile hcache hthere hlimit
    refine ⟨c, finish, hopen, ?_⟩
    intro keys after items hvisited key elsewhere
    rw [hserves, hvisited.get_uncached hopened rfl hready rfl hfits rfl hlimit]
  · intro config c finish start hopen keys after items hvisited key elsewhere halike
    obtain ⟨source, hsource, hopened, -, hcases⟩ := ofFile_eq_ok hopen
    rw [hserves, ← Source.reading_of_start hsource]
    rcases hcases with ⟨hnone, rfl⟩ | ⟨hsome, hnew⟩
    · right
      rw [hopened.get_of_holds hfits hsource hlimit (holds_of_source?_eq_none hnone) after]
      exact bytesGiven_at_hand _
    · cases hid : source.cache? with
      | none =>
          right
          rcases openSource_eq_ok hnew with ⟨-, -, rfl⟩ | ⟨-, _, -, rfl, -⟩
          · exact hvisited.get_uncached hopened hid hready rfl hfits hsource hlimit key
          · cases hid
      | some id =>
          obtain ⟨-, -, _, _, hfresh⟩ := fresh_ofFile hopen hsome hid hready
          exact hvisited.get_cached hfresh hfits hsource hlimit halike
  · intro key elsewhere hnone
    have hserved := hserves key elsewhere
    rw [hnone] at hserved
    cases hread : Source.reading ⟨header.start, none⟩ (Layout.ofHeader header) storage.file key with
    | error e =>
        rw [hread] at hserved
        cases hserved
    | ok bytes =>
        rw [hread] at hserved
        cases hserved

/-- A collection of five bytes, in which there is a text: these bytes are what
memory gives, what any collection without a cache gives, and what one with a
cache gives. -/
theorem tiers_agree_text :
    let storage := Storage.over ⟨[5, 0, 0, 0, 3, 0, 97, 98, 0], true⟩ ⟨1, [], 0, 0⟩
    ∃ reader memory rest,
      Header.ofReader ⟨storage.file.contents, 0⟩ 0 false = .ok (⟨4, 5, 0⟩, reader) ∧
      Collection.ofReader reader ⟨4, 5, 0⟩ = .ok (memory, rest) ∧
      TiersAgree storage ⟨4, 5, 0⟩ memory ∧
      (∀ elsewhere, bytesGiven ((memory.get ⟨0, .string⟩).run elsewhere).1 =
        .ok (some [3, 0, 97, 98, 0])) ∧
      (∀ config, config.hasCache = false → ∃ c finish,
        Collection.ofFile config ⟨4, 5, 0⟩ storage = .ok ((c, finish), storage) ∧
          bytesGiven ((c.get ⟨0, .string⟩).run storage).1 = .ok (some [3, 0, 97, 98, 0])) ∧
      ∃ c finish start,
        Collection.ofFile (.cached 1 1) ⟨4, 5, 0⟩ storage = .ok ((c, finish), start) ∧
          bytesGiven ((c.get ⟨0, .string⟩).run start).1 = .ok (some [3, 0, 97, 98, 0]) := by
  intro storage
  have hready : storage.Ready := .inr ⟨by decide, rfl⟩
  have hlimit : storage.file.contents.length < Handle.positionLimit := by decide
  have hheader : Header.ofFile storage.file 0 0 false = .ok (⟨4, 5, 0⟩, 4) := rfl
  obtain ⟨reader, memory, rest, hreader, hmemory, hagree⟩ :=
    tiers_agree hready hlimit (.inl ⟨4, hheader⟩) (by decide)
  have hbytes : ∀ elsewhere, bytesGiven ((memory.get ⟨0, .string⟩).run elsewhere).1 =
      .ok (some [3, 0, 97, 98, 0]) := by
    cases hreader
    cases hmemory
    intro elsewhere
    rfl
  refine ⟨reader, memory, rest, hreader, hmemory, hagree, hbytes, ?_, ?_⟩
  · intro config hcache
    obtain ⟨c, finish, hopen, hgets⟩ := hagree.uncached config hcache
    exact ⟨c, finish, hopen, (hgets _ _ _ .start ⟨0, .string⟩ storage).trans (hbytes storage)⟩
  · refine ⟨_, _, _, rfl, ?_⟩
    have hgiven := hagree.cached (.cached 1 1) _ _ _ rfl _ _ _ .start ⟨0, .string⟩ storage
      fun _ hmem => absurd hmem List.not_mem_nil
    refine (hgiven.resolve_left ?_).trans (hbytes storage)
    intro hnone
    cbv at hnone
    cases hnone

end RecordStore
