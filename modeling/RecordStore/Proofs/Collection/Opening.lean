import Mathlib
import RecordStore.Collection.Open
import RecordStore.Proofs.Collection.Streaming

/-!
# What opening yields

`Opened` lists the tiers that a collection in a file can come with: all of it
in memory, a part of it in memory and a source for the rest, or a source
alone.  What the first tier has in memory is what streaming reads
(`get_of_holds`), and anything else is left to the source (`get_of_not_holds`).

The numbers of a header that was read fit each other: memory, which counts its
records anew, comes to the number that the header says (`count_of_ofValue`).
-/

namespace RecordStore

/-! ## Headers -/

/-- The size of a record as a quotient gives back the number of records. -/
theorem div_div_of_div_pos {size element : Nat} (h : 0 < size / (size / element)) :
    size / (size / (size / element)) = size / element := by
  have helement : 0 < element := by
    apply Nat.pos_of_ne_zero
    intro hzero
    simp [hzero] at h
  have hcount : 0 < size / element := by
    apply Nat.pos_of_ne_zero
    intro hzero
    simp [hzero] at h
  have hle : element ≤ size / (size / element) :=
    (Nat.le_div_iff_mul_le hcount).mpr (Nat.mul_div_le size element)
  apply le_antisymm
  · exact Nat.div_le_div_left hle helement
  · exact (Nat.le_div_iff_mul_le h).mpr (Nat.mul_div_le size (size / element))

/-- **The number of records is that of whole records in the collection.** -/
theorem Header.count_of_ofValue {start : UInt64} {value elementSize : UInt32} {isCount : Bool}
    {header : Header} (h : Header.ofValue start value elementSize isCount = .ok header)
    (hfixed : (Layout.ofHeader header).isFixed) : (Layout.ofHeader header).count =
      (Layout.ofHeader header).size / (Layout.ofHeader header).elementSize := by
  have hpos : 0 < (Layout.ofHeader header).elementSize := of_decide_eq_true hfixed
  unfold Header.ofValue at h
  split at h
  · split at h
    · next hbound =>
        obtain rfl := Except.ok.inj h
        simp only [Layout.ofHeader, UInt32.toNat_mul, Nat.mod_eq_of_lt hbound] at hpos ⊢
        have hvalue : 0 < value.toNat := by
          apply Nat.pos_of_ne_zero
          intro hzero
          simp [hzero] at hpos
        rw [Nat.mul_div_cancel_left _ hvalue] at hpos ⊢
        rw [Nat.mul_div_cancel _ hpos]
    · cases h
  · split at h
    · obtain rfl := Except.ok.inj h
      simp [Layout.ofHeader] at hpos
    · obtain rfl := Except.ok.inj h
      simp only [Layout.ofHeader, UInt32.toNat_div] at hpos ⊢
      exact (div_div_of_div_pos hpos).symm

theorem Header.start_of_ofValue {start : UInt64} {value elementSize : UInt32} {isCount : Bool}
    {header : Header} (h : Header.ofValue start value elementSize isCount = .ok header) :
    header.start = start := by
  unfold Header.ofValue at h
  split at h
  · split at h
    · exact (congrArg Header.start (Except.ok.inj h)).symm
    · cases h
  · split at h
    · exact (congrArg Header.start (Except.ok.inj h)).symm
    · exact (congrArg Header.start (Except.ok.inj h)).symm

/-- A header whose numbers fit each other. -/
def Header.Fits (header : Header) : Prop :=
  (Layout.ofHeader header).isFixed → (Layout.ofHeader header).count =
    (Layout.ofHeader header).size / (Layout.ofHeader header).elementSize

/-! ## The tiers -/

/-- The records of a collection that are the first tier's to serve. -/
def Collection.holds (c : Collection) (key : Key) : Bool :=
  match c.tiers with
  | .memory _ => true
  | .both resident _ => resident.holds key
  | .file _ => false

theorem holds_of_source?_eq_none {c : Collection} {key : Key} (h : c.source? = none) :
    c.holds key := by
  obtain ⟨layout, tiers⟩ := c
  cases tiers with
  | memory resident => rfl
  | both resident source => cases h
  | file source => cases h

/-- The first `count` bytes of a collection, in memory. -/
def Resident.ofFile (file : DataFile) (header : Header) (count : Nat) : Resident :=
  .ofBytes ((file.contents.drop header.start.toNat).take count)
    (Layout.ofHeader header).elementSize

/-- The collections that a header in a file can be opened as, if what is not
in memory comes from `source`. -/
inductive Opened (file : DataFile) (header : Header) (source : Source) : Collection → Prop
  | memory
      (hthere : header.start.toNat + (Layout.ofHeader header).size ≤ file.contents.length) :
      Opened file header source ⟨Layout.ofHeader header,
        .memory (Resident.ofFile file header (Layout.ofHeader header).size)⟩
  | both {count : Nat} (hcount : count ≤ (Layout.ofHeader header).size)
      (hthere : header.start.toNat + count ≤ file.contents.length) :
      Opened file header source ⟨Layout.ofHeader header,
        .both (Resident.ofFile file header count) source⟩
  | file : Opened file header source ⟨Layout.ofHeader header, .file source⟩

theorem Opened.layout {file : DataFile} {header : Header} {source : Source} {c : Collection}
    (h : Opened file header source c) : c.layout = Layout.ofHeader header := by
  cases h <;> rfl

section

variable {file : DataFile} {header : Header} {source : Source} {count : Nat} {key : Key}

theorem Resident.length_ofFile (hthere : header.start.toNat + count ≤ file.contents.length) :
    ((file.contents.drop header.start.toNat).take count).length = count := by
  rw [List.length_take, List.length_drop]
  omega

/-- The part of a collection that is in memory is laid out like the whole. -/
theorem Resident.within_ofFile (hfits : header.Fits)
    (hcount : count ≤ (Layout.ofHeader header).size)
    (hthere : header.start.toNat + count ≤ file.contents.length) :
    (Resident.ofFile file header count).layout.Within (Layout.ofHeader header) := by
  have hlength := Resident.length_ofFile hthere
  refine ⟨rfl, ?_, ?_⟩
  · show ((file.contents.drop header.start.toNat).take count).length ≤ _
    rw [hlength]
    exact hcount
  · intro hfixed
    show ((file.contents.drop header.start.toNat).take count).length / _ ≤ _
    rw [hlength, hfits hfixed]
    exact Nat.div_le_div_right hcount

/-- What is in memory is what streaming reads of that part. -/
theorem Resident.record_ofFile (hstart : source.start = header.start)
    (hlimit : file.contents.length < Handle.positionLimit)
    (hthere : header.start.toNat + count ≤ file.contents.length) :
    (Resident.ofFile file header count).record key =
      source.reading (Resident.ofFile file header count).layout file key := by
  have hlength := Resident.length_ofFile hthere
  have hsize : (Resident.ofFile file header count).layout.size = count := hlength
  rw [Source.reading_eq_record (by rw [hstart, hsize]; exact hthere) hlimit, hstart, hsize]
  rfl

theorem Resident.record_of_holds {resident : Resident} (h : resident.holds key) :
    ∃ bytes, resident.record key = .ok bytes := by
  unfold Resident.holds at h
  unfold Resident.record Layout.record
  cases hlocate : resident.layout.locate resident.bytes key with
  | error e =>
      rw [hlocate] at h
      cases h
  | ok place => exact ⟨_, rfl⟩

/-- Layouts that differ in no number that matters locate the same. -/
theorem Layout.record_congr {layout other : Layout} {bytes : Bytes}
    (helement : layout.elementSize = other.elementSize) (hsize : layout.size = other.size)
    (hcount : other.isFixed → layout.count = other.count) :
    layout.record bytes key = other.record bytes key := by
  obtain ⟨count, size, element⟩ := layout
  obtain ⟨count', size', element'⟩ := other
  simp only at helement hsize hcount
  subst helement hsize
  by_cases hfixed : (⟨count', size, element⟩ : Layout).isFixed
  · rw [hcount hfixed]
  · unfold Layout.record Layout.locate
    rw [if_neg hfixed, if_neg (show ¬ (⟨count, size, element⟩ : Layout).isFixed from hfixed)]
    rfl

/-- **All of a collection in memory is what streaming reads.** -/
theorem Resident.record_whole (hfits : header.Fits) (hstart : source.start = header.start)
    (hlimit : file.contents.length < Handle.positionLimit)
    (hthere : header.start.toNat + (Layout.ofHeader header).size ≤ file.contents.length) :
    (Resident.ofFile file header (Layout.ofHeader header).size).record key =
      source.reading (Layout.ofHeader header) file key := by
  have hlength := Resident.length_ofFile hthere
  rw [Source.reading_eq_record (by rw [hstart]; exact hthere) hlimit, hstart]
  apply Layout.record_congr
  · rfl
  · exact hlength
  · intro hfixed
    show ((file.contents.drop header.start.toNat).take _).length / _ = _
    rw [hlength, hfits hfixed]

variable {c : Collection}

/-- A record that is at hand is served as it is. -/
theorem run_at_hand (result : Except StoreError Bytes) (storage : Storage) :
    ((fun bytes => some (⟨bytes, none⟩ : Item)) <$> (liftM result : Access Bytes)).run storage =
      (result.map (some ⟨·, none⟩), storage) := by
  cases result <;> rfl

/-- The first tier answers the same at all times, and touches nothing. -/
theorem get_at_hand (hholds : c.holds key) : ∃ result : Except StoreError Bytes,
    ∀ storage, (c.get key).run storage = (result.map (some ⟨·, none⟩), storage) := by
  obtain ⟨layout, tiers⟩ := c
  cases tiers with
  | memory resident => exact ⟨resident.record key, run_at_hand _⟩
  | both resident source =>
      refine ⟨resident.record key, ?_⟩
      intro storage
      have hheld : resident.holds key := hholds
      unfold Collection.get
      simp only
      rw [if_pos hheld]
      exact run_at_hand _ storage
  | file source => cases hholds

/-- **The first tier serves what streaming reads**, and touches nothing. -/
theorem Opened.get_of_holds (h : Opened file header source c) (hfits : header.Fits)
    (hstart : source.start = header.start)
    (hlimit : file.contents.length < Handle.positionLimit) (hholds : c.holds key)
    (storage : Storage) : (c.get key).run storage =
      ((source.reading (Layout.ofHeader header) file key).map (some ⟨·, none⟩), storage) := by
  cases h with
  | memory hthere =>
      rw [← Resident.record_whole hfits hstart hlimit hthere]
      exact run_at_hand _ storage
  | @both count hcount hthere =>
      have hheld : (Resident.ofFile file header count).holds key := hholds
      obtain ⟨bytes, hbytes⟩ := Resident.record_of_holds hheld
      have hreading := hbytes
      rw [Resident.record_ofFile hstart hlimit hthere] at hreading
      rw [Source.reading_of_within (Resident.within_ofFile hfits hcount hthere) hreading]
      unfold Collection.get
      simp only
      rw [if_pos hheld, hbytes]
      exact run_at_hand _ storage
  | file => cases hholds

/-- What the first tier does not hold comes from the source. -/
theorem Opened.get_of_not_holds (h : Opened file header source c) (hholds : c.holds key = false) :
    c.get key = source.get (Layout.ofHeader header) key := by
  cases h with
  | memory hthere => cases hholds
  | both hcount hthere =>
      exact if_neg (ne_true_of_eq_false hholds)
  | file => rfl

end

/-! ## Opening -/

section

variable {config : CollectionConfig} {header : Header} {storage after : Storage}

theorem budget_le (config : CollectionConfig) (layout : Layout) :
    config.budget layout ≤ layout.size := by
  unfold CollectionConfig.budget
  simp only
  split
  · exact (Nat.sub_le _ _).trans (Nat.min_le_right _ _)
  · exact Nat.min_le_right _ _

/-- What is loaded are the first bytes of the collection. -/
theorem load_eq_ok {file : DataFile} {start : UInt64} {count : Nat} {loaded : Option Bytes}
    (h : Collection.load file start count = .ok loaded) :
    (count = 0 ∧ loaded = none) ∨ (0 < count ∧ start.toNat + count ≤ file.contents.length ∧
      loaded = some ((file.contents.drop start.toNat).take count)) := by
  unfold Collection.load at h
  by_cases hzero : count = 0
  · rw [if_pos hzero] at h
    exact .inl ⟨hzero, (Except.ok.inj h).symm⟩
  · right
    rw [if_neg hzero, Handle.readAt_fst] at h
    have hstart : (start + UInt64.ofNat 0).toNat = start.toNat := by simp
    rw [hstart] at h
    obtain ⟨bytes, hread, hsame⟩ := map_eq_ok_iff.mp h
    obtain ⟨rfl, hlength⟩ := DataFile.part_eq_ok (DataFile.part_of_partAt hread)
    rw [List.length_take, List.length_drop] at hlength
    exact ⟨by omega, by omega, hsame.symm⟩

/-- Nothing may be loaded whatever the file holds. -/
theorem load_of_eq_zero {file : DataFile} {start : UInt64} {count : Nat} (h : count = 0) :
    Collection.load file start count = .ok none :=
  if_pos h

/-- The bytes at the start of a collection can be loaded if they are there. -/
theorem load_of_le {file : DataFile} {start : UInt64} {count : Nat} (hpos : 0 < count)
    (hthere : start.toNat + count ≤ file.contents.length)
    (hlimit : file.contents.length < Handle.positionLimit) :
    Collection.load file start count =
      .ok (some ((file.contents.drop start.toNat).take count)) := by
  have hstart : (start + UInt64.ofNat 0).toNat = start.toNat := by simp
  unfold Collection.load
  rw [if_neg (Nat.ne_of_gt hpos), Handle.readAt_fst, hstart, DataFile.partAt,
    if_pos (by omega), DataFile.part_of_le hthere]
  rfl

/-- The file is left at the end of the collection. -/
def finish (header : Header) : Except StoreError Nat :=
  Handle.position <$> Handle.seek ⟨0, 0⟩
    (header.start + UInt64.ofNat (Layout.ofHeader header).size).toNat

/-- The file can be left at the end of a collection that it holds. -/
theorem finish_of_le
    (hthere : header.start.toNat + (Layout.ofHeader header).size ≤ storage.file.contents.length)
    (hlimit : storage.file.contents.length < Handle.positionLimit) :
    finish header = .ok (header.start.toNat + (Layout.ofHeader header).size) := by
  unfold finish Handle.seek
  rw [toNat_position (by omega), if_pos (by omega)]
  rfl

theorem ofFile_of_whole {bytes : Bytes} (hload : Collection.load storage.file header.start
      (config.budget (Layout.ofHeader header)) = .ok (some bytes))
    (hwhole : bytes.length = (Layout.ofHeader header).size) :
    Collection.ofFile config header storage = (finish header).map fun position =>
      ((⟨Layout.ofHeader header, .memory (.ofBytes bytes (Layout.ofHeader header).elementSize)⟩,
        position), storage) := by
  unfold Collection.ofFile finish
  simp only [hload, bind, Except.bind, pure, Except.pure, Option.map_some, Option.filter,
    Resident.ofBytes, hwhole, decide_true, if_true]
  cases Handle.seek ⟨0, 0⟩ (header.start + UInt64.ofNat (Layout.ofHeader header).size).toNat <;> rfl

theorem ofFile_of_part {bytes : Bytes} (hload : Collection.load storage.file header.start
      (config.budget (Layout.ofHeader header)) = .ok (some bytes))
    (hpart : bytes.length ≠ (Layout.ofHeader header).size) :
    Collection.ofFile config header storage = (do
      let (source, storage) ← Collection.openSource config header.start storage
      let position ← finish header
      return ((⟨Layout.ofHeader header,
        .both (.ofBytes bytes (Layout.ofHeader header).elementSize) source⟩, position),
        storage)) := by
  unfold Collection.ofFile finish
  simp only [hload, bind, Except.bind, pure, Except.pure, Option.map_some, Option.filter,
    Resident.ofBytes, hpart, decide_false, Bool.false_eq_true, if_false]
  cases Collection.openSource config header.start storage with
  | error e => rfl
  | ok opened =>
      cases Handle.seek ⟨0, 0⟩
        (header.start + UInt64.ofNat (Layout.ofHeader header).size).toNat <;> rfl

theorem ofFile_of_none (hload : Collection.load storage.file header.start
      (config.budget (Layout.ofHeader header)) = .ok none) :
    Collection.ofFile config header storage = (do
      let (source, storage) ← Collection.openSource config header.start storage
      let position ← finish header
      return ((⟨Layout.ofHeader header, .file source⟩, position), storage)) := by
  unfold Collection.ofFile finish
  simp only [hload, bind, Except.bind, pure, Except.pure, Option.map_none, Option.filter]
  cases Collection.openSource config header.start storage with
  | error e => rfl
  | ok opened =>
      cases Handle.seek ⟨0, 0⟩
        (header.start + UInt64.ofNat (Layout.ofHeader header).size).toNat <;> rfl

/-- A source reads the file, or has a new cache. -/
theorem openSource_eq_ok {source : Source} {start : UInt64}
    (h : Collection.openSource config start storage = .ok (source, after)) :
    (config.hasCache = false ∧ source = ⟨start, none⟩ ∧ after = storage) ∨
      (config.hasCache ∧ ∃ cache,
        Cache.create config.capacity config.concurrency Collection.spread = .ok cache ∧
        source = ⟨start, some storage.caches.size⟩ ∧
        after = { storage with caches := storage.caches.push cache }) := by
  unfold Collection.openSource at h
  split at h
  · next hcache =>
      obtain ⟨cache, hcreate, hrest⟩ := bind_eq_ok_iff.mp h
      obtain ⟨rfl, rfl⟩ := Prod.mk.inj (Except.ok.inj hrest)
      exact .inr ⟨hcache, cache, hcreate, rfl, rfl⟩
  · next hcache =>
      obtain ⟨rfl, rfl⟩ := Prod.mk.inj (Except.ok.inj h)
      exact .inl ⟨eq_false_of_ne_true hcache, rfl, rfl⟩

/-- A source can be opened if its cache, should it have one, can be created. -/
theorem exists_openSource (hcreate : config.hasCache → ∃ cache,
      Cache.create config.capacity config.concurrency Collection.spread = .ok cache)
    (start : UInt64) (storage : Storage) :
    ∃ source after, Collection.openSource config start storage = .ok (source, after) := by
  unfold Collection.openSource
  split
  · next hcache =>
      obtain ⟨cache, hcache⟩ := hcreate hcache
      exact ⟨_, _, bind_eq_ok_iff.mpr ⟨cache, hcache, rfl⟩⟩
  · exact ⟨_, _, rfl⟩

theorem openSource_start {source : Source} {start : UInt64}
    (h : Collection.openSource config start storage = .ok (source, after)) :
    source.start = start := by
  rcases openSource_eq_ok h with ⟨-, rfl, -⟩ | ⟨-, _, -, rfl, -⟩ <;> rfl

/-- **The tiers of a collection that was opened**, by how much of it is kept in
memory. -/
theorem tiers_of_ofFile {c : Collection} {position : Nat}
    (h : Collection.ofFile config header storage = .ok ((c, position), after)) :
    let kept := config.budget (Layout.ofHeader header)
    finish header = .ok position ∧
      ((kept = 0 ∧ ∃ source, c = ⟨Layout.ofHeader header, .file source⟩ ∧
          Collection.openSource config header.start storage = .ok (source, after)) ∨
        (0 < kept ∧ header.start.toNat + kept ≤ storage.file.contents.length ∧
          ((kept = (Layout.ofHeader header).size ∧ after = storage ∧
              c = ⟨Layout.ofHeader header, .memory (.ofFile storage.file header kept)⟩) ∨
            (kept ≠ (Layout.ofHeader header).size ∧ ∃ source,
              c = ⟨Layout.ofHeader header, .both (.ofFile storage.file header kept) source⟩ ∧
              Collection.openSource config header.start storage = .ok (source, after))))) := by
  intro kept
  obtain ⟨loaded, hload, -⟩ := bind_eq_ok_iff.mp h
  rcases load_eq_ok hload with ⟨hzero, rfl⟩ | ⟨hpos, hthere, rfl⟩
  · rw [ofFile_of_none hload] at h
    obtain ⟨opened, hsource, hrest⟩ := bind_eq_ok_iff.mp h
    obtain ⟨_, hfinish, hrest⟩ := bind_eq_ok_iff.mp hrest
    obtain ⟨hleft, rfl⟩ := Prod.mk.inj (Except.ok.inj hrest)
    obtain ⟨rfl, rfl⟩ := Prod.mk.inj hleft
    exact ⟨hfinish, .inl ⟨hzero, opened.1, rfl, hsource⟩⟩
  · have hlength := Resident.length_ofFile hthere
    by_cases hwhole : kept = (Layout.ofHeader header).size
    · rw [ofFile_of_whole hload (hlength.trans hwhole)] at h
      obtain ⟨_, hfinish, hrest⟩ := map_eq_ok_iff.mp h
      obtain ⟨hleft, rfl⟩ := Prod.mk.inj hrest
      obtain ⟨rfl, rfl⟩ := Prod.mk.inj hleft
      exact ⟨hfinish, .inr ⟨hpos, hthere, .inl ⟨hwhole, rfl, rfl⟩⟩⟩
    · rw [ofFile_of_part hload (by rw [hlength]; exact hwhole)] at h
      obtain ⟨opened, hsource, hrest⟩ := bind_eq_ok_iff.mp h
      obtain ⟨_, hfinish, hrest⟩ := bind_eq_ok_iff.mp hrest
      obtain ⟨hleft, rfl⟩ := Prod.mk.inj (Except.ok.inj hrest)
      obtain ⟨rfl, rfl⟩ := Prod.mk.inj hleft
      exact ⟨hfinish, .inr ⟨hpos, hthere, .inr ⟨hwhole, opened.1, rfl, hsource⟩⟩⟩

/-- **What comes of opening**: a collection that memory serves alone, or one
with a source, which has a cache if the configuration says so. -/
theorem ofFile_eq_ok {c : Collection} {position : Nat}
    (h : Collection.ofFile config header storage = .ok ((c, position), after)) :
    ∃ source, source.start = header.start ∧ Opened storage.file header source c ∧
      finish header = .ok position ∧
      ((c.source? = none ∧ after = storage) ∨ (c.source? = some source ∧
        Collection.openSource config header.start storage = .ok (source, after))) := by
  obtain ⟨hfinish, ⟨-, source, rfl, hsource⟩ | ⟨-, hthere, htiers⟩⟩ := tiers_of_ofFile h
  · exact ⟨source, openSource_start hsource, .file, hfinish, .inr ⟨rfl, hsource⟩⟩
  · obtain ⟨hwhole, rfl, rfl⟩ | ⟨-, source, rfl, hsource⟩ := htiers
    · rw [hwhole] at hthere ⊢
      exact ⟨⟨header.start, none⟩, rfl, .memory hthere, hfinish, .inl ⟨rfl, rfl⟩⟩
    · exact ⟨source, openSource_start hsource, .both (budget_le ..) hthere, hfinish,
        .inr ⟨rfl, hsource⟩⟩

/-- Opening a collection takes no handle of the pool, and leaves the file alone. -/
theorem ofFile_keeps {c : Collection} {position : Nat}
    (h : Collection.ofFile config header storage = .ok ((c, position), after)) :
    after.file = storage.file ∧ after.pool = storage.pool := by
  obtain ⟨source, -, -, -, ⟨-, rfl⟩ | ⟨-, hsource⟩⟩ := ofFile_eq_ok h
  · exact ⟨rfl, rfl⟩
  · rcases openSource_eq_ok hsource with ⟨-, -, rfl⟩ | ⟨-, cache, -, -, rfl⟩
    · exact ⟨rfl, rfl⟩
    · exact ⟨rfl, rfl⟩

/-- A collection that is all in the file can be opened if its source can. -/
theorem exists_ofFile_of_source {source : Source}
    (hsource : Collection.openSource config header.start storage = .ok (source, after))
    (hthere : header.start.toNat + (Layout.ofHeader header).size ≤ storage.file.contents.length)
    (hlimit : storage.file.contents.length < Handle.positionLimit) :
    ∃ c position left, Collection.ofFile config header storage = .ok ((c, position), left) ∧
      Opened storage.file header source c ∧ (left = storage ∨ left = after) := by
  have hbudget := budget_le config (Layout.ofHeader header)
  have hfinish := finish_of_le hthere hlimit
  rcases Nat.eq_zero_or_pos (config.budget (Layout.ofHeader header)) with hzero | hpos
  · rw [ofFile_of_none (load_of_eq_zero hzero), hsource, hfinish]
    exact ⟨_, _, _, rfl, .file, .inr rfl⟩
  · have hpart : header.start.toNat + config.budget (Layout.ofHeader header) ≤
        storage.file.contents.length := by omega
    have hload := load_of_le hpos hpart hlimit
    have hlength := Resident.length_ofFile hpart
    by_cases hwhole : config.budget (Layout.ofHeader header) = (Layout.ofHeader header).size
    · rw [ofFile_of_whole hload (hlength.trans hwhole), hfinish, hwhole]
      exact ⟨_, _, _, rfl, .memory hthere, .inl rfl⟩
    · rw [ofFile_of_part hload (by rw [hlength]; exact hwhole), hsource, hfinish]
      exact ⟨_, _, _, rfl, .both hbudget hpart, .inr rfl⟩

/-- **Without a cache, a collection that is all in the file can be opened**;
storage stays as it is. -/
theorem exists_ofFile (hcache : config.hasCache = false)
    (hthere : header.start.toNat + (Layout.ofHeader header).size ≤ storage.file.contents.length)
    (hlimit : storage.file.contents.length < Handle.positionLimit) :
    ∃ c position, Collection.ofFile config header storage = .ok ((c, position), storage) ∧
      Opened storage.file header ⟨header.start, none⟩ c := by
  have hsource : Collection.openSource config header.start storage =
      .ok (⟨header.start, none⟩, storage) := by
    unfold Collection.openSource
    rw [if_neg (ne_true_of_eq_false hcache)]
    rfl
  obtain ⟨c, position, left, hopen, hopened, rfl | rfl⟩ :=
    exists_ofFile_of_source hsource hthere hlimit
  · exact ⟨c, position, hopen, hopened⟩
  · exact ⟨c, position, hopen, hopened⟩

end

end RecordStore
