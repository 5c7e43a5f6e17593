import Mathlib
import RecordStore.Proofs.Writer.ReadBack

/-!
# Collections one after another

Collections are written one behind the other, and opened in the same order,
from a file or from bytes in memory.  Where one ends, the header of the next
one is: `consecutive_collections` says that opening goes from one to the next,
finds the header that was written before each, and ends behind the last.  How
much of a collection is loaded from the file, and whether there is a cache for
the rest, makes no difference to where those behind it are found.
-/

namespace RecordStore

/-! ## Writing -/

/-- What those who open a collection know of it: the byte length of every record,
zero if they differ, and whether its header holds their number. -/
structure Form where
  elementSize : UInt32
  isCount : Bool
  deriving DecidableEq, Repr

/-- Records, and the form of the collection they are written as. -/
structure Volume extends Form where
  records : List Bytes
  deriving DecidableEq, Repr

namespace Volume

/-- The byte length of the records. -/
def size (v : Volume) : Nat :=
  v.records.flatten.length

/-- The number of records as the header says it: the number itself, or as many
as the byte length has room for. -/
def count (v : Volume) : Nat :=
  if v.isCount then v.records.length else v.size / v.elementSize.toNat

/-- Appends records to those of a writer. -/
def appendAll (w : RecordWriter) (records : List Bytes) : Except WriteError RecordWriter :=
  records.foldlM (fun w record => Prod.snd <$> (w.append record).appended) w

/-- The records as they are written, with the header before them. -/
def data (v : Volume) : Except WriteError Bytes := do
  let w ← appendAll .empty v.records
  if v.isCount then return w.finishWithCount else w.finishWithLength

/-- Records whose number is in the header all have the size of the form, and
there are no more of them than a header can say.  Finishing with a length sees
to that itself. -/
def Sound (v : Volume) : Prop :=
  v.isCount → (∀ record ∈ v.records, record.length = v.elementSize.toNat) ∧
    v.size < 4294967296 ∧ v.records.length < 4294967296

theorem appendAll_eq_ok {w after : RecordWriter} {records : List Bytes}
    (h : appendAll w records = .ok after) :
    after = ⟨w.data ++ records.flatten, w.count + UInt32.ofNat records.length⟩ := by
  induction records generalizing w with
  | nil =>
      obtain rfl := Except.ok.inj h
      simp
  | cons record records ih =>
      obtain ⟨next, hnext, hrest⟩ := bind_eq_ok_iff.mp h
      obtain ⟨⟨offset, appended⟩, happend, rfl⟩ := map_eq_ok_iff.mp hnext
      obtain ⟨hoffset, rfl⟩ := WriteOutcome.appended_eq_ok_iff.mp happend
      rw [RecordWriter.append_of_lt (RecordWriter.lt_of_append hoffset)] at hrest
      rw [ih hrest, List.flatten_cons, List.append_assoc, List.length_cons,
        UInt32.ofNat_add, UInt32.add_assoc, UInt32.add_comm 1]
      rfl

/-- Records of one size take their number times as much. -/
theorem size_of_uniform {v : Volume}
    (h : ∀ record ∈ v.records, record.length = v.elementSize.toNat) :
    v.size = v.records.length * v.elementSize.toNat := by
  rw [size, List.length_flatten, List.map_congr_left h, List.map_const', List.sum_replicate,
    smul_eq_mul]

/-- **A header says what was written.** -/
structure Describes (v : Volume) (start : Nat) (header : Header) : Prop where
  start_eq : header.start.toNat = start
  length_eq : header.length.toNat = v.size
  count_eq : header.count.toNat = v.count

theorem Describes.size_eq {v : Volume} {start : Nat} {header : Header}
    (h : v.Describes start header) : (Layout.ofHeader header).size = v.size :=
  h.length_eq

/-- What is written is a number, which is understood as a header that describes
the records behind it. -/
theorem data_eq_ok {v : Volume} {data : Bytes} (hsound : v.Sound) (h : v.data = .ok data) :
    ∃ value, value < 4294967296 ∧ data = Bytes.littleEndian 4 value ++ v.records.flatten ∧
      ∀ start : UInt64, ∃ header,
        Header.ofValue start (UInt32.ofNat value) v.elementSize v.isCount = .ok header ∧
          v.Describes start.toNat header := by
  obtain ⟨w, hwriter, hfinish⟩ := bind_eq_ok_iff.mp h
  obtain rfl := appendAll_eq_ok hwriter
  have hof : ∀ {n : Nat}, n < 4294967296 → (UInt32.ofNat n).toNat = n :=
    fun h => UInt32.toNat_ofNat_of_lt' h
  cases hcount : v.isCount with
  | true =>
      obtain ⟨huniform, hsize, hlength⟩ := hsound hcount
      rw [hcount, if_pos rfl] at hfinish
      obtain rfl := Except.ok.inj hfinish
      have hproduct := size_of_uniform huniform
      refine ⟨v.records.length, hlength, ?_, ?_⟩
      · show Bytes.littleEndian 4 (0 + UInt32.ofNat v.records.length).toNat ++ _ = _
        rw [UInt32.zero_add, hof hlength]
        rfl
      · intro start
        refine ⟨⟨start, UInt32.ofNat v.records.length * v.elementSize,
          UInt32.ofNat v.records.length⟩, ?_, rfl, ?_, ?_⟩
        · unfold Header.ofValue
          rw [if_pos rfl, if_pos (by rw [hof hlength, ← hproduct]; exact hsize)]
        · show (UInt32.ofNat v.records.length * v.elementSize).toNat = v.size
          rw [UInt32.toNat_mul, hof hlength, ← hproduct]
          exact Nat.mod_eq_of_lt hsize
        · show (UInt32.ofNat v.records.length).toNat = v.count
          rw [hof hlength, count, hcount, if_pos rfl]
  | false =>
      rw [hcount, if_neg Bool.false_ne_true] at hfinish
      unfold RecordWriter.finishWithLength at hfinish
      split at hfinish
      · next hsize =>
          have hsize : v.size < 4294967296 := hsize
          obtain rfl := Except.ok.inj hfinish
          refine ⟨v.size, hsize, rfl, ?_⟩
          intro start
          have hcountEq : v.count = v.size / v.elementSize.toNat := by
            rw [count, hcount, if_neg Bool.false_ne_true]
          unfold Header.ofValue
          rw [if_neg Bool.false_ne_true]
          by_cases hzero : v.elementSize = 0
          · refine ⟨_, if_pos hzero, rfl, hof hsize, ?_⟩
            rw [hcountEq, hzero]
            exact (Nat.div_zero _).symm
          · refine ⟨_, if_neg hzero, rfl, hof hsize, ?_⟩
            show (UInt32.ofNat v.size / v.elementSize).toNat = _
            rw [hcountEq, UInt32.toNat_div, hof hsize]
      · cases hfinish

end Volume

/-! ## Opening -/

/-- A collection that was opened, and where the file or the reader was left. -/
structure Found where
  header : Header
  collection : Collection
  left : Nat

/-- Opens collections from memory, one after another. -/
def openInMemory : List Form → ByteReader → Except StoreError (List Found × ByteReader)
  | [], reader => .ok ([], reader)
  | form :: forms, reader => do
    let (header, reader) ← Header.ofReader reader form.elementSize form.isCount
    let (c, reader) ← Collection.ofReader reader header
    let (rest, last) ← openInMemory forms reader
    return (⟨header, c, reader.position⟩ :: rest, last)

/-- Opens collections from the data file, each as configured, one after another
from a position on. -/
def openInFile : List (Form × CollectionConfig) → Nat → Storage →
    Except StoreError (List Found × Storage)
  | [], _, storage => .ok ([], storage)
  | (form, config) :: forms, position, storage => do
    let (header, _) ← Header.ofFile storage.file position form.elementSize form.isCount
    let ((c, left), storage) ← Collection.ofFile config header storage
    let (rest, storage) ← openInFile forms left storage
    return (⟨header, c, left⟩ :: rest, storage)

/-- Where a collection is: its header as numbers, and where it ends. -/
structure Place where
  start : Nat
  length : Nat
  count : Nat
  finish : Nat
  deriving DecidableEq, Repr

/-- Where collections are that are written from a position on. -/
def places (position : Nat) : List Volume → List Place
  | [] => []
  | v :: volumes =>
    ⟨position + 4, v.size, v.count, position + 4 + v.size⟩ :: places (position + 4 + v.size) volumes

/-- Where an opened collection was found. -/
def Found.place (found : Found) : Place :=
  ⟨found.header.start.toNat, found.header.length.toNat, found.header.count.toNat, found.left⟩

theorem Volume.Describes.place {v : Volume} {position : Nat} {header : Header}
    (h : v.Describes (position + 4) header) (c : Collection) :
    Found.place ⟨header, c, position + 4 + v.size⟩ =
      ⟨position + 4, v.size, v.count, position + 4 + v.size⟩ := by
  unfold Found.place
  rw [h.start_eq, h.length_eq, h.count_eq]

section

variable {file : DataFile} {front data back : Bytes} {v : Volume} {header : Header}

/-- **The header of what was written** is read where it was written, and all of
the collection is behind it. -/
theorem Volume.header_ofFile (hsound : v.Sound) (hdata : v.data = .ok data)
    (hcontents : file.contents = front ++ data ++ back)
    (hlimit : file.contents.length < Handle.positionLimit) :
    ∃ header, Header.ofFile file front.length v.elementSize v.isCount =
        .ok (header, front.length + 4) ∧ v.Describes (front.length + 4) header ∧
      data.length = 4 + v.size ∧
      header.start.toNat + (Layout.ofHeader header).size ≤ file.contents.length := by
  obtain ⟨value, hvalue, rfl, hheader⟩ := data_eq_ok hsound hdata
  have hlength : (Bytes.littleEndian 4 value ++ v.records.flatten).length = 4 + v.size := by
    rw [List.length_append, Bytes.length_littleEndian]
    rfl
  have hleading : Bytes.leading? 4 (file.contents.drop front.length) = some value := by
    rw [hcontents, List.append_assoc, List.drop_left, List.append_assoc]
    exact leading?_littleEndian_of_lt hvalue _
  have htotal := congrArg List.length hcontents
  rw [List.length_append, List.length_append, hlength] at htotal
  have hstart : (UInt64.ofNat (front.length + 4)).toNat = front.length + 4 := by
    unfold Handle.positionLimit at hlimit
    exact UInt64.toNat_ofNat_of_lt' (by rw [UInt64.size]; omega)
  obtain ⟨header, hof, hdescribes⟩ := hheader (UInt64.ofNat (front.length + 4))
  rw [hstart] at hdescribes
  refine ⟨header, ?_, hdescribes, hlength, ?_⟩
  · unfold Header.ofFile
    rw [hleading]
    simp only [hof, bind, Except.bind, pure, Except.pure]
  · rw [hdescribes.start_eq, hdescribes.size_eq]
    omega

/-- A reader is left behind what was taken. -/
theorem ofReader_left {bytes : Bytes} {position : Nat} {c : Collection} {rest : ByteReader}
    (h : Collection.ofReader ⟨bytes, position⟩ header = .ok (c, rest)) :
    rest = ⟨bytes, position + (Layout.ofHeader header).size⟩ := by
  unfold Collection.ofReader at h
  split at h
  · cases h
  · obtain ⟨⟨taken, after⟩, htake, hsame⟩ := bind_eq_ok_iff.mp h
    obtain ⟨-, rfl⟩ := Prod.mk.inj (Except.ok.inj hsame)
    obtain ⟨moved, hadvance, hsame⟩ := bind_eq_ok_iff.mp htake
    obtain ⟨-, rfl⟩ := Prod.mk.inj (Except.ok.inj hsame)
    unfold ByteReader.advance at hadvance
    split at hadvance
    · exact (Except.ok.inj hadvance).symm
    · cases hadvance

variable {config : CollectionConfig} {storage : Storage}

theorem openSource_eq_error {start : UInt64} {e : StoreError}
    (h : Collection.openSource config start storage = .error e) : config.hasCache ∧
      Cache.create config.capacity config.concurrency Collection.spread = .error e := by
  unfold Collection.openSource at h
  split at h
  · next hcache =>
      cases hcreate : Cache.create config.capacity config.concurrency Collection.spread with
      | error e' =>
          rw [hcreate] at h
          obtain rfl := Except.error.inj h
          exact ⟨hcache, rfl⟩
      | ok cache =>
          rw [hcreate] at h
          cases h
  · cases h

/-- If the file holds a collection that cannot be opened, it is the source that
fails. -/
theorem eq_of_openSource_eq_error {e e' : StoreError}
    (hsource : Collection.openSource config header.start storage = .error e)
    (hthere : header.start.toNat + (Layout.ofHeader header).size ≤ storage.file.contents.length)
    (hlimit : storage.file.contents.length < Handle.positionLimit)
    (h : Collection.ofFile config header storage = .error e') : e' = e := by
  have hbudget := budget_le config (Layout.ofHeader header)
  rcases Nat.eq_zero_or_pos (config.budget (Layout.ofHeader header)) with hzero | hpos
  · rw [ofFile_of_none (load_of_eq_zero hzero), hsource] at h
    exact (Except.error.inj h).symm
  · have hpart : header.start.toNat + config.budget (Layout.ofHeader header) ≤
        storage.file.contents.length := by omega
    have hload := load_of_le hpos hpart hlimit
    have hlength := Resident.length_ofFile hpart
    by_cases hwhole : config.budget (Layout.ofHeader header) = (Layout.ofHeader header).size
    · rw [ofFile_of_whole hload (hlength.trans hwhole), finish_of_le hthere hlimit] at h
      cases h
    · rw [ofFile_of_part hload (by rw [hlength]; exact hwhole), hsource] at h
      exact (Except.error.inj h).symm

/-- **All that can go wrong** with a collection that the file holds is that its
cache cannot be created. -/
theorem ofFile_of_there (config : CollectionConfig)
    (hthere : header.start.toNat + (Layout.ofHeader header).size ≤ storage.file.contents.length)
    (hlimit : storage.file.contents.length < Handle.positionLimit) :
    (∃ c after, after.file = storage.file ∧ Collection.ofFile config header storage =
        .ok ((c, header.start.toNat + (Layout.ofHeader header).size), after)) ∨
      ∃ e, Collection.ofFile config header storage = .error e ∧ config.hasCache ∧
        Cache.create config.capacity config.concurrency Collection.spread = .error e := by
  cases hopen : Collection.ofFile config header storage with
  | ok opened =>
      obtain ⟨⟨c, position⟩, after⟩ := opened
      obtain ⟨source, -, -, hposition, -⟩ := ofFile_eq_ok hopen
      obtain rfl := Except.ok.inj ((finish_of_le hthere hlimit).symm.trans hposition)
      exact .inl ⟨c, after, (ofFile_keeps hopen).1, rfl⟩
  | error e =>
      right
      cases hsource : Collection.openSource config header.start storage with
      | ok opened =>
          obtain ⟨c, position, left, hopened, -⟩ :=
            exists_ofFile_of_source hsource hthere hlimit
          rw [hopen] at hopened
          cases hopened
      | error e' =>
          obtain rfl := eq_of_openSource_eq_error hsource hthere hlimit hopen
          exact ⟨e, rfl, openSource_eq_error hsource⟩

end

/-! ## One after another -/

/-- Each volume is written as one of some pieces. -/
def Written (volumes : List Volume) (pieces : List Bytes) : Prop :=
  List.Forall₂ (fun v piece => v.Sound ∧ v.data = .ok piece) volumes pieces

/-- What is before the pieces that are left grows by the first of them. -/
theorem flatten_behind (front piece back : Bytes) (pieces : List Bytes) :
    front ++ (piece :: pieces).flatten ++ back = front ++ piece ++ pieces.flatten ++ back := by
  rw [List.flatten_cons, ← List.append_assoc front]

theorem openInMemory_written {volumes : List Volume} {pieces : List Bytes} {file : DataFile}
    {front back : Bytes} (hwritten : Written volumes pieces)
    (hcontents : file.contents = front ++ pieces.flatten ++ back)
    (hlimit : file.contents.length < Handle.positionLimit) :
    ∃ found, openInMemory (volumes.map Volume.toForm) ⟨file.contents, front.length⟩ =
        .ok (found, ⟨file.contents, front.length + pieces.flatten.length⟩) ∧
      found.map Found.place = places front.length volumes := by
  induction hwritten generalizing front with
  | nil => exact ⟨[], rfl, rfl⟩
  | @cons v piece volumes pieces hpiece hwritten ih =>
      obtain ⟨hsound, hdata⟩ := hpiece
      rw [flatten_behind] at hcontents
      obtain ⟨header, hheader, hdescribes, hlength, hthere⟩ :=
        Volume.header_ofFile hsound hdata (hcontents.trans (List.append_assoc _ _ _)) hlimit
      have hreader := ofReader_of_ofFile hheader
      rw [hdescribes.start_eq] at hthere
      obtain ⟨c, rest, hopen⟩ : ∃ c rest, Collection.ofReader
          ⟨file.contents, front.length + 4⟩ header = .ok (c, rest) :=
        ⟨_, ofReader_of_le hdescribes.start_eq hthere⟩
      obtain rfl := ofReader_left hopen
      obtain ⟨found, hfound, hplaces⟩ := ih hcontents
      rw [List.length_append, hlength, ← Nat.add_assoc] at hfound hplaces
      refine ⟨⟨header, c, front.length + 4 + v.size⟩ :: found, ?_, ?_⟩
      · rw [List.map_cons, openInMemory, hreader]
        simp only [bind, Except.bind, hopen, hdescribes.size_eq, hfound, pure, Except.pure]
        rw [List.flatten_cons, List.length_append, hlength, ← Nat.add_assoc, ← Nat.add_assoc]
      · rw [List.map_cons, hplaces, hdescribes.place]
        rfl

theorem openInFile_written {volumes : List Volume} {pieces : List Bytes}
    {configs : List CollectionConfig} {front back : Bytes} {storage : Storage}
    (hwritten : Written volumes pieces) (hconfigs : configs.length = volumes.length)
    (hcontents : storage.file.contents = front ++ pieces.flatten ++ back)
    (hlimit : storage.file.contents.length < Handle.positionLimit) :
    (∃ found after,
        openInFile ((volumes.map Volume.toForm).zip configs) front.length storage =
          .ok (found, after) ∧
        found.map Found.place = places front.length volumes) ∨
      ∃ e, openInFile ((volumes.map Volume.toForm).zip configs) front.length storage = .error e ∧
        ∃ config ∈ configs, config.hasCache ∧
          Cache.create config.capacity config.concurrency Collection.spread = .error e := by
  induction hwritten generalizing front configs storage with
  | nil => exact .inl ⟨[], storage, rfl, rfl⟩
  | @cons v piece volumes pieces hpiece hwritten ih =>
      cases configs with
      | nil => cases hconfigs
      | cons config configs =>
        obtain ⟨hsound, hdata⟩ := hpiece
        rw [flatten_behind] at hcontents
        obtain ⟨header, hheader, hdescribes, hlength, hthere⟩ :=
          Volume.header_ofFile hsound hdata (hcontents.trans (List.append_assoc _ _ _)) hlimit
        rw [List.map_cons, List.zip_cons_cons, openInFile, hheader]
        simp only [bind, Except.bind]
        rcases ofFile_of_there config hthere hlimit with
          ⟨c, after, hfile, hopen⟩ | ⟨e, hopen, hcache, hcreate⟩
        · rw [hopen, hdescribes.size_eq, hdescribes.start_eq]
          simp only
          rw [← hfile] at hcontents hlimit
          have hnext := ih (Nat.succ.inj hconfigs) hcontents hlimit
          rw [List.length_append, hlength, ← Nat.add_assoc] at hnext
          rcases hnext with ⟨found, last, hfound, hplaces⟩ | ⟨e, herror, config', hmem, hcreate⟩
          · left
            refine ⟨⟨header, c, front.length + 4 + v.size⟩ :: found, last, ?_, ?_⟩
            · rw [hfound]
              rfl
            · rw [List.map_cons, hplaces, hdescribes.place]
              rfl
          · right
            refine ⟨e, ?_, config', List.mem_cons_of_mem _ hmem, hcreate⟩
            rw [herror]
        · right
          refine ⟨e, ?_, config, List.mem_cons_self, hcache, hcreate⟩
          rw [hopen]

/-- **Collections are found where they were written.**  Whatever is before and
behind them, opening them one after another finds the header of each as it was
written, and ends where the next one starts.  From memory that always succeeds.
From the file each may be held in any way; all that can go wrong is that a cache
that was asked for cannot be created. -/
theorem consecutive_collections {volumes : List Volume} {pieces : List Bytes}
    {front back contents : Bytes} (hwritten : Written volumes pieces)
    (hcontents : contents = front ++ pieces.flatten ++ back)
    (hlimit : contents.length < Handle.positionLimit) :
    (∃ found, openInMemory (volumes.map Volume.toForm) ⟨contents, front.length⟩ =
        .ok (found, ⟨contents, front.length + pieces.flatten.length⟩) ∧
      found.map Found.place = places front.length volumes) ∧
    ∀ (storage : Storage) (configs : List CollectionConfig),
      storage.file.contents = contents → configs.length = volumes.length →
        (∀ found after,
          openInFile ((volumes.map Volume.toForm).zip configs) front.length storage =
            .ok (found, after) → found.map Found.place = places front.length volumes) ∧
        ∀ e, openInFile ((volumes.map Volume.toForm).zip configs) front.length storage =
          .error e → ∃ config ∈ configs, config.hasCache ∧
            Cache.create config.capacity config.concurrency Collection.spread = .error e := by
  refine ⟨?_, ?_⟩
  · have hfile : (⟨contents, true⟩ : DataFile).contents = front ++ pieces.flatten ++ back :=
      hcontents
    exact openInMemory_written hwritten hfile hlimit
  rintro storage configs rfl hconfigs
  rcases openInFile_written hwritten hconfigs hcontents hlimit with
    ⟨found, after, hfound, hplaces⟩ | ⟨e, herror, hcreate⟩
  · rw [hfound]
    constructor
    · intro found' after' h
      obtain ⟨rfl, -⟩ := Prod.mk.inj (Except.ok.inj h)
      exact hplaces
    · intro e h
      cases h
  · rw [herror]
    constructor
    · intro found after h
      cases h
    · intro e' h
      obtain rfl := Except.error.inj h
      exact hcreate

/-- A record with a length before it and two numbers, the first collection
streamed and half of the second in memory. -/
theorem consecutive_collections_two : ∃ found after,
    openInFile [(⟨0, false⟩, .streamed 1), (⟨4, true⟩, ⟨4, 0, 1⟩)] 1
        (.over ⟨[9, 3, 0, 0, 0, 1, 0, 65, 2, 0, 0, 0, 1, 0, 0, 0, 2, 0, 0, 0], true⟩
          ⟨1, [], 0, 0⟩) = .ok (found, after) ∧
      found.map Found.place = [⟨5, 3, 0, 8⟩, ⟨12, 8, 2, 20⟩] := by
  have hwritten : Written
      [⟨⟨0, false⟩, [[1, 0, 65]]⟩, ⟨⟨4, true⟩, [[1, 0, 0, 0], [2, 0, 0, 0]]⟩]
      [[3, 0, 0, 0, 1, 0, 65], [2, 0, 0, 0, 1, 0, 0, 0, 2, 0, 0, 0]] := by
    refine .cons ⟨?_, rfl⟩ (.cons ⟨?_, rfl⟩ .nil)
    · intro hcount
      cases hcount
    · intro hcount
      exact ⟨by decide, by decide, by decide⟩
  have hcontents : ([9, 3, 0, 0, 0, 1, 0, 65, 2, 0, 0, 0, 1, 0, 0, 0, 2, 0, 0, 0] : Bytes) =
      [9] ++ [[3, 0, 0, 0, 1, 0, 65], [2, 0, 0, 0, 1, 0, 0, 0, 2, 0, 0, 0]].flatten ++ [] := rfl
  obtain ⟨-, hfile⟩ := consecutive_collections hwritten hcontents (by decide)
  obtain ⟨hok, herror⟩ := hfile (.over ⟨_, true⟩ ⟨1, [], 0, 0⟩) [.streamed 1, ⟨4, 0, 1⟩] rfl rfl
  cases hopen : openInFile [(⟨0, false⟩, .streamed 1), (⟨4, true⟩, ⟨4, 0, 1⟩)] 1
      (.over ⟨[9, 3, 0, 0, 0, 1, 0, 65, 2, 0, 0, 0, 1, 0, 0, 0, 2, 0, 0, 0], true⟩
        ⟨1, [], 0, 0⟩) with
  | ok opened => exact ⟨_, _, rfl, hok _ _ hopen⟩
  | error e =>
      obtain ⟨config, hmem, hcache, -⟩ := herror e hopen
      have hnone : ∀ config ∈ [CollectionConfig.streamed 1, ⟨4, 0, 1⟩],
          config.hasCache = false := by decide
      rw [hnone config hmem] at hcache
      cases hcache

end RecordStore
