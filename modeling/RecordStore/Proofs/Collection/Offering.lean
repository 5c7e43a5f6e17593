import Mathlib
import RecordStore.Proofs.Collection.Sharing

/-!
# What a collection offers

A collection offers bytes for a key if they are what streaming reads for it, and
if its cache has nothing else for the address (`Opening.Offers`).  Then a get of
the key gives them, or nothing because every node is held, while there is a
handle to be had (`Session.get_of_offers`).  An offer stands while other keys are
asked for, of the same collection or of others, and whatever is released.
-/

namespace RecordStore

/-- A collection has bytes for a key, and nothing else in its cache for the
address of the key. -/
structure Opening.Offers (o : Opening) (storage : Storage) (key : Key) (bytes : Bytes) : Prop where
  reading : Source.reading ⟨o.header.start, none⟩ (Layout.ofHeader o.header) ⟨o.data, true⟩ key =
    .ok bytes
  resident : ∀ id found, o.collection.cacheId? = some id →
    storage.resident? id key.address = some found → found = bytes

section

variable {file : DataFile} {opened : List Opening} {storage after : Storage} {items : List Item}
  {o other : Opening} {key asked : Key} {bytes : Bytes} {source : Source}

theorem Opening.Offers.reading_eq (h : o.Offers storage key bytes) {own : DataFile}
    (hdata : own.contents = o.data) (hstart : source.start = o.header.start) :
    source.reading (Layout.ofHeader o.header) own key = .ok bytes := by
  have hread := h.reading
  rw [← Source.reading_of_start hstart] at hread
  rw [← hread, ← hdata]
  rfl

/-- An offer stands while the cache has no more for the address than it had. -/
theorem Opening.Offers.congr (h : o.Offers storage key bytes)
    (hsame : ∀ id, o.collection.cacheId? = some id →
      after.resident? id key.address = storage.resident? id key.address) :
    o.Offers after key bytes := by
  refine ⟨h.reading, ?_⟩
  intro id found hid hfound
  rw [hsame id hid] at hfound
  exact h.resident id found hid hfound

/-- **A release** withdraws no offer. -/
theorem Opening.Offers.release (h : o.Offers storage key bytes) (item : Item) :
    o.Offers (storage.release item) key bytes := by
  refine h.congr fun id _ => ?_
  unfold Storage.release
  split
  · rename_i id' pin _
    split
    · rename_i cache hcache
      by_cases hsame : id = id'
      · subst hsame
        rw [Storage.resident?_of_cache? (cache?_setCache hcache _),
          Storage.resident?_of_cache? hcache]
        exact Cache.resident?_release cache pin key.address
      · rw [Storage.resident?, cache?_setCache_of_ne hsame]
        rfl
    · rfl
  · rfl

/-- A get of a collection with another cache withdraws no offer. -/
theorem Opening.Offers.get_other (h : o.Offers storage key bytes) (hapart : other.Apart o)
    (asked : Key) : o.Offers ((other.collection.get asked).run storage).2 key bytes := by
  obtain ⟨haside, -⟩ := other.collection.get_aside asked storage
  refine h.congr fun id hid => ?_
  rw [Storage.resident?, haside.cache id fun howns => hapart id howns hid]
  rfl

/-- A collection that was just opened in a file offers all that streaming reads. -/
theorem offers_ofFile {config : CollectionConfig} {header : Header} {c : Collection}
    {position : Nat}
    (hopen : Collection.ofFile config header storage = .ok ((c, position), after))
    (hread : Source.reading ⟨header.start, none⟩ (Layout.ofHeader header)
      ⟨storage.file.contents, true⟩ key = .ok bytes) :
    Opening.Offers ⟨storage.file.contents, header, c⟩ after key bytes := by
  refine ⟨hread, ?_⟩
  intro id found hid hfound
  obtain ⟨source, -, -, -, ⟨hnone, -⟩ | ⟨hsome, hnew⟩⟩ := ofFile_eq_ok hopen
  · rw [Collection.cacheId?, hnone] at hid
    cases hid
  · have hcache := (Collection.cacheId?_of_source? hsome).symm.trans hid
    obtain ⟨-, -, -, -, -, hempty, -⟩ := lent_openSource hnew hcache
    rw [hempty] at hfound
    cases hfound

/-- Opening another collection withdraws no offer. -/
theorem Session.offers_ofFile (h : Session file opened storage items) (ho : o ∈ opened)
    (hoffers : o.Offers storage key bytes) {config : CollectionConfig} {header : Header}
    {c : Collection} {position : Nat}
    (hopen : Collection.ofFile config header storage = .ok ((c, position), after)) :
    o.Offers after key bytes := by
  refine hoffers.congr fun id hid => ?_
  have hbelow := h.shared.below o ho id hid
  obtain ⟨source, -, -, -, ⟨-, rfl⟩ | ⟨-, hnew⟩⟩ := ofFile_eq_ok hopen
  · rfl
  · rcases openSource_eq_ok hnew with ⟨-, -, rfl⟩ | ⟨-, cache, -, -, rfl⟩
    · rfl
    · have hsame : Storage.cache? { storage with caches := storage.caches.push cache } id =
          storage.cache? id := by
        unfold Storage.cache?
        rw [Array.getElem?_push, if_neg (Nat.ne_of_lt hbelow)]
      rw [Storage.resident?, hsame]
      rfl

/-- **While there is a handle, what is offered is given**, unless every node that
it could be loaded into is held. -/
theorem Session.get_of_offers (h : Session file opened storage items) (hready : storage.Ready)
    (ho : o ∈ opened) (hfits : o.header.Fits) (hlimit : o.data.length < Handle.positionLimit)
    (hoffers : o.Offers storage key bytes) :
    ((o.collection.get key).run storage).1 = .ok none ∨
      ∃ item, ((o.collection.get key).run storage).1 = .ok (some item) ∧ item.bytes = bytes := by
  obtain ⟨own, source, hstands⟩ := h.shared.stands o ho
  obtain ⟨keys, hbacked⟩ := hstands.backed
  have hreading := hoffers.reading_eq hstands.data hstands.start
  by_cases hholds : o.collection.holds key
  · right
    rw [hstands.opened.get_of_holds hfits hstands.start (hstands.data ▸ hlimit) hholds, hreading]
    exact ⟨_, rfl, rfl⟩
  rw [hstands.opened.get_of_not_holds (eq_false_of_ne_true hholds)]
  cases hbacked with
  | alone hnone => exact absurd (holds_of_source?_eq_none hnone) hholds
  | direct hnone hfile =>
      right
      obtain ⟨after, hrun, -⟩ :=
        source.get_run_of_none hnone (Layout.ofHeader o.header) key hready
      rw [hrun, hfile, hreading]
      exact ⟨_, rfl, rfl⟩
  | @cached id count size hid hpos hsize huse =>
      rcases hget : (source.get (Layout.ofHeader o.header) key).run storage with ⟨result, after⟩
      obtain ⟨-, -, hanswers⟩ := huse.lent.get hpos hid (Layout.ofHeader o.header) key hget
      obtain ⟨_, hstream, -⟩ := source.stream_run (Layout.ofHeader o.header) key hready
      rw [hstream, huse.lent.file_eq, hreading] at hanswers
      have hown : o.collection.source? = some source :=
        hstands.own.resolve_left fun hnone => hholds (holds_of_source?_eq_none hnone)
      show result = .ok none ∨ ∃ item, result = .ok (some item) ∧ item.bytes = bytes
      generalize hgiven : bytesGiven result = answer at hanswers
      generalize after.resident? id key.address = now at hanswers
      cases hanswers with
      | @hit found hbefore =>
          right
          rw [hoffers.resident id found ((Collection.cacheId?_of_source? hown).trans hid) hbefore]
            at hgiven
          exact eq_ok_of_bytesGiven hgiven
      | full _ => exact .inl (bytesGiven_eq_ok_none_iff.mp hgiven)
      | loaded _ hfresh =>
          right
          rw [← Except.ok.inj hfresh] at hgiven
          exact eq_ok_of_bytesGiven hgiven
      | failed _ hfresh => cases hfresh

/-- **A get of what is offered** withdraws no offer of the collection, if keys of
one address are the same. -/
theorem Session.offers_get (h : Session file opened storage items) (ho : o ∈ opened)
    (hoffers : o.Offers storage key bytes)
    (hsame : asked.address = key.address → asked = key) :
    o.Offers ((o.collection.get asked).run storage).2 key bytes := by
  obtain ⟨own, source, hstands⟩ := h.shared.stands o ho
  obtain ⟨keys, hbacked⟩ := hstands.backed
  by_cases hholds : o.collection.holds asked
  · obtain ⟨result, hrun⟩ := get_at_hand hholds
    rw [hrun storage]
    exact hoffers
  have hown : o.collection.source? = some source :=
    hstands.own.resolve_left fun hnone => hholds (holds_of_source?_eq_none hnone)
  rw [hstands.opened.get_of_not_holds (eq_false_of_ne_true hholds)]
  refine ⟨hoffers.reading, ?_⟩
  intro id found howns hfound
  have hid := (Collection.cacheId?_of_source? hown).symm.trans howns
  cases hbacked with
  | alone hnone => exact absurd (holds_of_source?_eq_none hnone) hholds
  | direct hnone _ =>
      rw [hnone] at hid
      cases hid
  | @cached id' count size hid' hpos _ huse =>
      obtain rfl : id' = id := Option.some.inj (hid'.symm.trans hid)
      obtain ⟨-, hcases, -⟩ := huse.lent.get hpos hid' (Layout.ofHeader o.header) asked rfl
      rcases hcases key.address found hfound with hold | ⟨haddress, hread⟩
      · exact hoffers.resident id' found howns hold
      · obtain rfl := hsame haddress
        rw [hoffers.reading_eq hstands.data hstands.start] at hread
        exact (Except.ok.inj hread).symm

end

end RecordStore
