import Mathlib
import RecordStore.Proofs.Collection.Answering

/-!
# Records that are not there

A key beyond the records of a collection is refused, and the error names its
address (`get_out_of_range`).  A cache finds this out only when it streams, so
while every node that the record could be loaded into is held, it answers with
nothing instead.  Memory counts its records anew, and may count more than there
are (`get_out_of_range_exceptions`).  The numbers of a header that was read fit
each other, and then it does not (`counted_eq_count`).
-/

namespace RecordStore

namespace Layout

/-- The address that no record has any more. -/
def limit (layout : Layout) : Nat :=
  if layout.isFixed then layout.count else layout.size

/-- The error for an address from there on. -/
def refusal (layout : Layout) (address : UInt32) : StoreError :=
  if layout.isFixed then .indexOutOfRange address else .offsetOutOfRange address

variable {layout : Layout} {key : Key}

theorem fixedRecord_of_count_le (h : layout.count ≤ key.address.toNat) :
    layout.fixedRecord key = .error (.indexOutOfRange key.address) := by
  unfold fixedRecord
  rw [if_pos h]
  rfl

theorem headerOf_of_size_le (h : layout.size ≤ key.address.toNat) :
    layout.headerOf key = .error (.offsetOutOfRange key.address) := by
  unfold headerOf
  rw [if_pos h]
  rfl

/-- **Nothing is located** from the limit on. -/
theorem locate_of_limit_le (h : layout.limit ≤ key.address.toNat) (bytes : Bytes) :
    layout.locate bytes key = .error (layout.refusal key.address) := by
  unfold limit at h
  unfold locate refusal
  by_cases hfixed : layout.isFixed
  · rw [if_pos hfixed] at h
    rw [if_pos hfixed, if_pos hfixed, fixedRecord_of_count_le h]
  · rw [if_neg hfixed] at h
    rw [if_neg hfixed, if_neg hfixed, headerOf_of_size_le h]
    rfl

end Layout

namespace Source

variable {layout : Layout} {key : Key}

/-- Nothing is read from the limit on. -/
theorem reading_of_limit_le (h : layout.limit ≤ key.address.toNat) (source : Source)
    (file : DataFile) :
    source.reading layout file key = .error (layout.refusal key.address) := by
  unfold Layout.limit at h
  unfold reading Layout.refusal
  by_cases hfixed : layout.isFixed
  · rw [if_pos hfixed] at h
    rw [if_pos hfixed, if_pos hfixed, Layout.fixedRecord_of_count_le h]
    rfl
  · rw [if_neg hfixed] at h
    rw [if_neg hfixed, if_neg hfixed, Layout.headerOf_of_size_le h]
    rfl

/-- Nothing is streamed from the limit on, with or without a handle. -/
theorem stream_of_limit_le (h : layout.limit ≤ key.address.toNat) (source : Source)
    (storage : Storage) : ((source.stream layout key).run storage).1 =
      .error (layout.refusal key.address) := by
  unfold Layout.limit at h
  unfold stream Layout.refusal
  by_cases hfixed : layout.isFixed
  · rw [if_pos hfixed] at h
    rw [if_pos hfixed, if_pos hfixed, Layout.fixedRecord_of_count_le h]
    rfl
  · rw [if_neg hfixed] at h
    rw [if_neg hfixed, if_neg hfixed, Layout.headerOf_of_size_le h]
    rfl

end Source

namespace Collection

/-- The number of records that some tier counts. -/
def counted (c : Collection) : Nat :=
  match c.resident? with
  | some resident => max c.count resident.layout.count
  | none => c.count

/-- A record at an address would have to come through the cache, and every
node that it could be loaded into is held. -/
def Blocked (c : Collection) (storage : Storage) (address : UInt32) : Prop :=
  ∃ source id, c.source? = some source ∧ source.cache? = some id ∧ storage.Full id address

/-- A key is refused with an error, or with nothing if its record could not be
loaded anyway. -/
structure Refuses (c : Collection) (storage : Storage) (key : Key) (e : StoreError) : Prop where
  error : ¬ c.Blocked storage key.address → ((c.get key).run storage).1 = .error e
  none : c.Blocked storage key.address → ((c.get key).run storage).1 = .ok none

end Collection

section

variable {data : Bytes} {file : DataFile} {header : Header} {source : Source} {c : Collection}
  {start storage : Storage} {keys : List Key} {items : List Item} {key : Key}

/-- Memory does not serve what is from the limit on. -/
theorem Resident.limit_le {part : Nat} (hpart : part ≤ (Layout.ofHeader header).size)
    (hresident : c.resident? = some (.ofFile file header part))
    (hlimit : (Layout.ofHeader header).limit ≤ key.address.toNat)
    (hcounted : (Layout.ofHeader header).isFixed → c.counted ≤ key.address.toNat) :
    (Resident.ofFile file header part).layout.limit ≤ key.address.toNat := by
  have hsame : (Resident.ofFile file header part).layout.isFixed =
      (Layout.ofHeader header).isFixed := rfl
  unfold Layout.limit at hlimit ⊢
  rw [hsame]
  by_cases hfixed : (Layout.ofHeader header).isFixed
  · rw [if_pos hfixed]
    have hmost := hcounted hfixed
    unfold Collection.counted at hmost
    rw [hresident] at hmost
    exact (le_max_right _ _).trans hmost
  · rw [if_neg hfixed] at hlimit ⊢
    have hsize : (Resident.ofFile file header part).layout.size ≤ part := by
      show ((file.contents.drop header.start.toNat).take part).length ≤ part
      exact List.length_take_le ..
    exact hsize.trans (hpart.trans hlimit)

theorem eq_error_of_bytesGiven {result : Except StoreError (Option Item)} {e : StoreError}
    (h : bytesGiven result = .error e) : result = .error e := by
  rcases result with e' | _ | _
  · rw [show e' = e from Except.error.inj h]
  · cases h
  · cases h

/-- **However a get is answered, it does not find what is not there.** -/
theorem Served.refuses (h : Served file header source c storage keys key
      (bytesGiven ((c.get key).run storage).1))
    (hsource : ∀ other, c.source? = some other → other = source)
    (hlimit : (Layout.ofHeader header).limit ≤ key.address.toNat)
    (hcounted : (Layout.ofHeader header).isFixed → c.counted ≤ key.address.toNat) :
    c.Refuses storage key ((Layout.ofHeader header).refusal key.address) := by
  generalize hgiven : bytesGiven ((c.get key).run storage).1 = answer at h
  cases h with
  | @memory part hpart hthere hresident hheld =>
      have hbeyond := Resident.limit_le hpart hresident hlimit hcounted
      have hlocate := Layout.locate_of_limit_le hbeyond (Resident.ofFile file header part).bytes
      have hrecord : (Resident.ofFile file header part).record key =
          .error ((Layout.ofHeader header).refusal key.address) := by
        unfold Resident.record Layout.record
        rw [hlocate]
        rfl
      rw [hrecord] at hgiven
      refine ⟨fun _ => eq_error_of_bytesGiven hgiven, ?_⟩
      rintro ⟨other, id, hsome, -, -⟩
      rcases hheld with hnone | hholds
      · rw [hnone] at hsome
        cases hsome
      · unfold Resident.holds at hholds
        rw [hlocate] at hholds
        cases hholds
  | @cached asked bytes hasked haddress hread =>
      rw [← haddress] at hlimit
      rw [Source.reading_of_limit_le hlimit] at hread
      cases hread
  | full hsome hid hfull =>
      have hblocked : c.Blocked storage key.address := ⟨source, _, hsome, hid, hfull⟩
      exact ⟨fun hfree => absurd hblocked hfree, fun _ => bytesGiven_eq_ok_none_iff.mp hgiven⟩
  | streamed _ hfree =>
      rw [Source.stream_of_limit_le hlimit] at hgiven
      refine ⟨fun _ => eq_error_of_bytesGiven hgiven, ?_⟩
      rintro ⟨other, id, hsome, hid, hfull⟩
      rw [hsource other hsome] at hid
      exact absurd hfull (hfree id hid)

/-- While nothing is held, there is a node for every record. -/
theorem Backed.not_blocked (h : Backed file header source c storage keys [])
    (hsource : ∀ other, c.source? = some other → other = source) (address : UInt32) :
    ¬ c.Blocked storage address := by
  rintro ⟨other, id, hsome, hid, hfull⟩
  rw [hsource other hsome] at hid
  cases h with
  | alone hnone =>
      rw [hnone] at hsome
      cases hsome
  | direct hnone _ =>
      rw [hnone] at hid
      cases hid
  | cached hown hpos hsize huse =>
      obtain rfl := Option.some.inj (hown.symm.trans hid)
      exact huse.lent.not_full hpos hsize rfl address hfull

theorem Opened.source_eq (h : Opened file header source c) (other : Source)
    (hsome : c.source? = some other) : other = source := by
  cases h with
  | memory _ => cases hsome
  | both _ _ => exact (Option.some.inj hsome).symm
  | file => exact (Option.some.inj hsome).symm

/-- Memory counts no more records than there are, if the numbers of the header
fit each other. -/
theorem Opened.counted_eq_count (h : Opened file header source c) (hfits : header.Fits)
    (hfixed : (Layout.ofHeader header).isFixed) : c.counted = c.count := by
  cases h with
  | memory hthere =>
      exact max_eq_left ((Resident.within_ofFile hfits le_rfl hthere).count hfixed)
  | both hpart hthere =>
      exact max_eq_left ((Resident.within_ofFile hfits hpart hthere).count hfixed)
  | file => rfl

/-- **Records that are not there** are refused, whatever numbers a header has,
however the collection is held, and whatever was asked for and is held: an index
that no tier counts as out of range, and so an offset from the end on.  The only
other answer, nothing, comes of a cache that could not load the record anyway,
and it never comes while nothing is held.  If the numbers of the header fit each
other, as those of a header that was read do, no tier counts more records than
the collection does. -/
theorem get_out_of_range (hcreated : Created data header c start)
    (hvisited : Visited c start keys storage items) (key : Key) :
    (0 < c.elementSize → c.counted ≤ key.address.toNat →
        c.Refuses storage key (.indexOutOfRange key.address)) ∧
      (c.elementSize = 0 → c.size ≤ key.address.toNat →
        c.Refuses storage key (.offsetOutOfRange key.address)) ∧
      (items = [] → ¬ c.Blocked storage key.address) ∧
      (header.Fits → 0 < c.elementSize → c.counted = c.count) := by
  obtain ⟨file, source, -, -, hopened, hbacked⟩ := hcreated.opened
  have hnow := hbacked.visited hopened hvisited
  have hserved := hnow.served hopened key
  have hlayout := hopened.layout
  have hsource := hopened.source_eq
  have hcount : c.count ≤ c.counted := by
    unfold Collection.counted
    split
    · exact le_max_left _ _
    · exact le_rfl
  unfold Collection.elementSize Collection.size
  unfold Collection.count at hcount ⊢
  rw [hlayout] at hcount ⊢
  refine ⟨?_, ?_, ?_, ?_⟩
  · intro hfixed hcounted
    have hfixed' : (Layout.ofHeader header).isFixed := decide_eq_true hfixed
    have hlimit : (Layout.ofHeader header).limit ≤ key.address.toNat := by
      unfold Layout.limit
      rw [if_pos hfixed']
      exact hcount.trans hcounted
    have hrefuses := hserved.refuses hsource hlimit fun _ => hcounted
    rwa [Layout.refusal, if_pos hfixed'] at hrefuses
  · intro hzero hsize
    have hfixed' : ¬ (Layout.ofHeader header).isFixed := by
      simp [Layout.isFixed, hzero]
    have hlimit : (Layout.ofHeader header).limit ≤ key.address.toNat := by
      unfold Layout.limit
      rw [if_neg hfixed']
      exact hsize
    have hrefuses := hserved.refuses hsource hlimit fun hfixed => absurd hfixed hfixed'
    rwa [Layout.refusal, if_neg hfixed'] at hrefuses
  · rintro rfl
    exact hnow.not_blocked hsource key.address
  · intro hfits hfixed
    rw [← hlayout]
    exact hopened.counted_eq_count hfits (decide_eq_true hfixed)

end

/-- Two records of four bytes, opened with a cache: there is no third. -/
theorem get_out_of_range_third : ∃ c position start,
    Collection.ofFile (.cached 1 1) ⟨4, 8, 2⟩
        (.over ⟨[2, 0, 0, 0, 1, 2, 3, 4, 5, 6, 7, 8], true⟩ ⟨1, [], 0, 0⟩) =
      .ok ((c, position), start) ∧
    ((c.get ⟨2, .byte⟩).run start).1 = .error (.indexOutOfRange 2) := by
  let storage := Storage.over ⟨[2, 0, 0, 0, 1, 2, 3, 4, 5, 6, 7, 8], true⟩ ⟨1, [], 0, 0⟩
  let c : Collection := ⟨⟨2, 8, 4⟩, .file ⟨4, some 0⟩⟩
  have hopen : ∃ start, Collection.ofFile (.cached 1 1) ⟨4, 8, 2⟩ storage = .ok ((c, 12), start) :=
    ⟨_, rfl⟩
  obtain ⟨start, hopen⟩ := hopen
  obtain ⟨hindex, -, hfree, -⟩ := get_out_of_range (.ofFile rfl hopen) .start ⟨2, .byte⟩
  exact ⟨c, 12, start, hopen, (hindex (by decide) (by decide)).error (hfree rfl)⟩

/-- **Two ways past the check.**  While the record at 0 is held in the only
node of a cache, a get at 9 of a collection of four bytes is not an error, and
neither is one at 8 of six records in ten bytes, of which memory counts ten. -/
theorem get_out_of_range_exceptions :
    (∃ c position start now items,
      Collection.ofFile (.cached 1 1) ⟨4, 4, 0⟩
          (.over ⟨[4, 0, 0, 0, 1, 2, 3, 4], true⟩ ⟨1, [], 0, 0⟩) = .ok ((c, position), start) ∧
        Visited c start [⟨0, .byte⟩] now items ∧ c.elementSize = 0 ∧
        c.size ≤ (9 : UInt32).toNat ∧ ((c.get ⟨9, .byte⟩).run now).1 = .ok none ∧
        ((c.get ⟨9, .byte⟩).run now).1 ≠ .error (.offsetOutOfRange 9)) ∧
      ∃ c rest, Collection.ofReader ⟨[0, 1, 2, 3, 4, 5, 6, 7, 8, 9], 0⟩ ⟨0, 10, 6⟩ = .ok (c, rest) ∧
        0 < c.elementSize ∧ c.count ≤ (8 : UInt32).toNat ∧ ∀ storage,
          ((c.get ⟨8, .byte⟩).run storage).1 = .ok (some ⟨[8], none⟩) ∧
          ((c.get ⟨8, .byte⟩).run storage).1 ≠ .error (.indexOutOfRange 8) := by
  constructor
  · let c : Collection := ⟨⟨0, 4, 0⟩, .file ⟨4, some 0⟩⟩
    let start : Storage := ⟨⟨[4, 0, 0, 0, 1, 2, 3, 4], true⟩, ⟨1, [], 0, 0⟩,
      #[⟨#[Cache.Shard.ofSize 1], Collection.spread, 1, 1, 0, 0⟩]⟩
    have hnone : ((c.get ⟨9, .byte⟩).run ((c.get ⟨0, .byte⟩).run start).2).1 = .ok none := by cbv
    refine ⟨c, 8, start, _, _, rfl, .get .start ⟨0, .byte⟩, rfl, by decide, hnone, ?_⟩
    rw [hnone]
    intro herror
    cases herror
  · let resident : Resident := ⟨[0, 1, 2, 3, 4, 5, 6, 7, 8, 9], ⟨10, 10, 1⟩⟩
    have hrecord : resident.record ⟨8, .byte⟩ = .ok [8] := by cbv
    have hget (storage : Storage) :
        ((Collection.get ⟨⟨6, 10, 1⟩, .memory resident⟩ ⟨8, .byte⟩).run storage).1 =
          .ok (some ⟨[8], none⟩) := by
      rw [get_resident rfl (.inl rfl), hrecord]
      rfl
    refine ⟨⟨⟨6, 10, 1⟩, .memory resident⟩, _, rfl, by decide, by decide, ?_⟩
    intro storage
    refine ⟨hget storage, ?_⟩
    rw [hget]
    intro herror
    cases herror

end RecordStore
