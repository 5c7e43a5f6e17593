import Mathlib
import RecordStore.Proofs.Collection.Containment

/-!
# Collections that share storage

Several collections are opened over the same storage, from its file or from
bytes in memory, and used in any order (`Session`).  They do not get in each
other's way: each has its own cache, and what is done with one leaves the cache
of another as it is.  So each answers as if it were alone (`Session.served`),
and whatever a get gives was there in its own collection (`Session.extract`).
-/

namespace RecordStore

/-- The number of the cache of a collection, if it has one. -/
def Collection.cacheId? (c : Collection) : Option Nat :=
  c.source?.bind Source.cache?

theorem Collection.cacheId?_of_source? {c : Collection} {source : Source}
    (h : c.source? = some source) : c.cacheId? = source.cache? := by
  rw [cacheId?, h]
  rfl

/-- A collection that was opened, the bytes it lies in, and the header it was
opened with. -/
structure Opening where
  data : Bytes
  header : Header
  collection : Collection

/-- Collections that do not have the same cache. -/
def Opening.Apart (o other : Opening) : Prop :=
  ∀ id, o.collection.cacheId? = some id → other.collection.cacheId? ≠ some id

/-- Is an item held in the cache of a collection? -/
def Opening.isHome (o : Opening) (item : Item) : Bool :=
  item.pin?.any fun place => o.collection.cacheId? == some place.1

theorem Opening.isHome_iff {o : Opening} {item : Item} : o.isHome item ↔
    ∃ place, item.pin? = some place ∧ o.collection.cacheId? = some place.1 := by
  unfold isHome
  cases item.pin? <;> simp

/-- What opening collections, gets of them and releases lead to, over storage
with a file: the collections that were opened, the storage, and the items that
are held. -/
inductive Session (file : DataFile) : List Opening → Storage → List Item → Prop
  | start {storage : Storage} (hfile : storage.file = file) : Session file [] storage []
  | ofReader {opened : List Opening} {storage : Storage} {items : List Item}
      (h : Session file opened storage items) {header : Header} {c : Collection}
      {reader rest : ByteReader} (hinside : reader.position ≤ reader.bytes.length)
      (hopen : Collection.ofReader reader header = .ok (c, rest)) :
      Session file (⟨reader.bytes, header, c⟩ :: opened) storage items
  | ofFile {opened : List Opening} {storage after : Storage} {items : List Item}
      (h : Session file opened storage items) {config : CollectionConfig} {header : Header}
      {c : Collection} {position : Nat}
      (hopen : Collection.ofFile config header storage = .ok ((c, position), after)) :
      Session file (⟨file.contents, header, c⟩ :: opened) after items
  | get {opened : List Opening} {storage : Storage} {items : List Item}
      (h : Session file opened storage items) {o : Opening} (ho : o ∈ opened) (key : Key) :
      Session file opened ((o.collection.get key).run storage).2
        (given ((o.collection.get key).run storage).1 ++ items)
  | release {opened : List Opening} {storage : Storage} {items : List Item}
      (h : Session file opened storage items) {item : Item} (hitem : item ∈ items) :
      Session file opened (storage.release item) (items.erase item)

/-- How a collection stands among others: its own items are held, and that is
all that matters to it. -/
structure Opening.Stands (o : Opening) (storage : Storage) (items : List Item) (file : DataFile)
    (source : Source) : Prop where
  data : file.contents = o.data
  start : source.start = o.header.start
  opened : Opened file o.header source o.collection
  own : o.collection.source? = none ∨ o.collection.source? = some source
  backed : ∃ keys,
    Backed file o.header source o.collection storage keys (items.filter o.isHome)

/-- Storage that collections share.

* `stands`: each of them stands.
* `apart`: no two of them have the same cache.
* `below`, `held`: the caches that they have, and that items are held in, are
  there.
-/
structure Shared (file : DataFile) (opened : List Opening) (storage : Storage)
    (items : List Item) : Prop where
  file_eq : storage.file = file
  stands : ∀ o ∈ opened, ∃ own source, o.Stands storage items own source
  apart : opened.Pairwise Opening.Apart
  below : ∀ o ∈ opened, ∀ id, o.collection.cacheId? = some id → id < storage.caches.size
  held : ∀ item ∈ items, ∀ place, item.pin? = some place → place.1 < storage.caches.size

/-! ## What stays as it is -/

section

variable {storage after : Storage} {id : Nat} {c : Collection} {key : Key}

theorem cache?_setCache_of_ne {id other : Nat} (hne : other ≠ id) (storage : Storage)
    (cache : Cache UInt32) : (storage.setCache id cache).cache? other = storage.cache? other := by
  simp [Storage.cache?, Storage.setCache, Ne.symm hne]

theorem size_setCache (storage : Storage) (id : Nat) (cache : Cache UInt32) :
    (storage.setCache id cache).caches.size = storage.caches.size :=
  Array.size_setIfInBounds

/-- Every cache but one, if there is one, stays as it is. -/
structure Storage.Aside (storage after : Storage) (id? : Option Nat) : Prop where
  cache : ∀ id, id? ≠ some id → after.cache? id = storage.cache? id
  size : after.caches.size = storage.caches.size

theorem Storage.aside_of_caches (h : after.caches = storage.caches) (id? : Option Nat) :
    storage.Aside after id? :=
  ⟨fun id _ => by rw [Storage.cache?, Storage.cache?, h], by rw [h]⟩

theorem Storage.aside_setCache (storage : Storage) (id : Nat) (cache : Cache UInt32) :
    storage.Aside (storage.setCache id cache) (some id) := by
  refine ⟨?_, size_setCache storage id cache⟩
  intro other hne
  exact cache?_setCache_of_ne (fun hsame => hne (congrArg some hsame.symm)) storage cache

theorem Storage.Aside.trans {between : Storage} {id? : Option Nat} (h : storage.Aside between id?)
    (h' : between.Aside after id?) : storage.Aside after id? :=
  ⟨fun id hne => (h'.cache id hne).trans (h.cache id hne), h'.size.trans h.size⟩

/-- **A release** is of no concern to the cache of another item. -/
theorem release_aside (storage : Storage) (item : Item) :
    storage.Aside (storage.release item) (item.pin?.map Prod.fst) := by
  unfold Storage.release
  split
  · next id pin hpin =>
      rw [hpin]
      split
      · exact storage.aside_setCache id _
      · exact storage.aside_of_caches rfl _
  · exact storage.aside_of_caches rfl _

/-- A get through a source changes no cache but its own, and what it gives is
held there. -/
theorem Source.get_aside (source : Source) (layout : Layout) (key : Key) (storage : Storage) :
    storage.Aside ((source.get layout key).run storage).2 source.cache? ∧
      ∀ item ∈ given ((source.get layout key).run storage).1, ∀ place, item.pin? = some place →
        source.cache? = some place.1 := by
  obtain ⟨-, hcaches⟩ := source.stream_steady layout key storage
  cases hfound : source.cache?.bind fun id => (storage.cache? id).map (id, ·) with
  | none =>
      rw [Source.get_run_of_no_cache hfound]
      refine ⟨storage.aside_of_caches hcaches _, ?_⟩
      intro item hitem place hplace
      cases hread : ((source.stream layout key).run storage).1 with
      | error e =>
          rw [hread] at hitem
          cases hitem
      | ok bytes =>
          rw [hread] at hitem
          obtain rfl := List.mem_singleton.mp hitem
          cases hplace
  | some found =>
      obtain ⟨id, hid, hthere⟩ := Option.bind_eq_some_iff.mp hfound
      obtain ⟨cache, hcache, -⟩ := Option.map_eq_some_iff.mp hthere
      rw [Source.get_run hid hcache, hid]
      refine ⟨?_, ?_⟩
      · refine Storage.Aside.trans (storage.aside_of_caches ?_ _)
          (Storage.aside_setCache _ id _)
        rcases Cache.get_world cache key.address (source.stream layout key).run storage with
          hsame | hread
        · rw [hsame]
        · rw [hread]
          exact hcaches
      · intro item hitem place hplace
        generalize (cache.get key.address (source.stream layout key).run storage).1.1 = answer
          at hitem
        rcases answer with _ | _ | ref
        · cases hitem
        · cases hitem
        · obtain rfl := List.mem_singleton.mp hitem
          rw [← Option.some.inj hplace]

/-- **A get** of a collection changes no cache but its own, and what it gives is
held there. -/
theorem Collection.get_aside (c : Collection) (key : Key) (storage : Storage) :
    storage.Aside ((c.get key).run storage).2 c.cacheId? ∧
      ∀ item ∈ given ((c.get key).run storage).1, ∀ place, item.pin? = some place →
        c.cacheId? = some place.1 := by
  rcases c.get_course key with ⟨result, hrun⟩ | ⟨source, hsource, hget⟩
  · rw [hrun storage]
    refine ⟨storage.aside_of_caches rfl _, ?_⟩
    intro item hitem place hplace
    cases result with
    | error e => cases hitem
    | ok bytes =>
        obtain rfl := List.mem_singleton.mp hitem
        cases hplace
  · rw [hget, Collection.cacheId?_of_source? hsource]
    exact source.get_aside c.layout key storage

end

/-! ## How collections stand -/

section

variable {file own : DataFile} {header : Header} {source : Source} {o other : Opening}
  {opened : List Opening} {storage after : Storage} {items held : List Item} {keys : List Key}
  {id count size : Nat}

/-- An item that is held for nothing, or elsewhere, does not matter. -/
theorem InUse.filter (h : InUse file header source id count size storage keys items)
    (hid : o.collection.cacheId? = some id) :
    InUse file header source id count size storage keys (items.filter o.isHome) := by
  have hpins : pinsOf (items.filter o.isHome) = pinsOf items := by
    unfold pinsOf
    rw [List.filterMap_filter]
    apply List.filterMap_congr
    intro item hitem
    cases hplace : item.pin? with
    | none => simp
    | some place => simp [Opening.isHome, hplace, hid, h.lent.own item hitem place hplace]
  obtain ⟨⟨hfile, hlent, hown⟩, hread⟩ := h
  refine ⟨⟨hfile, ?_, ?_⟩, hread⟩
  · rw [hpins]
    exact hlent
  · intro item hitem
    exact hown item (List.mem_of_mem_filter hitem)

theorem InUse.congr (h : InUse file header source id count size storage keys items)
    (hfile : after.file = storage.file) (hcache : after.cache? id = storage.cache? id) :
    InUse file header source id count size after keys items := by
  obtain ⟨⟨hsame, hlent, hown⟩, hread⟩ := h
  refine ⟨⟨hfile.trans hsame, hcache ▸ hlent, hown⟩, ?_⟩
  intro address bytes hfound
  rw [Storage.resident?, hcache] at hfound
  exact hread address bytes hfound

/-- The collection stands as it stood, whatever became of the others. -/
theorem Opening.Stands.congr (h : o.Stands storage items own source)
    (hfile : after.file = storage.file)
    (hcache : ∀ id, o.collection.cacheId? = some id → after.cache? id = storage.cache? id)
    (hitems : held.filter o.isHome = items.filter o.isHome) :
    o.Stands after held own source := by
  obtain ⟨keys, hbacked⟩ := h.backed
  refine ⟨h.data, h.start, h.opened, h.own, keys, ?_⟩
  rw [hitems]
  rcases h.own with hnone | hsome
  · exact .alone hnone
  · cases hbacked with
    | alone hnone => exact .alone hnone
    | direct hnone hsame => exact .direct hnone (hfile.trans hsame)
    | cached hid hpos hsize huse =>
        exact .cached hid hpos hsize
          (huse.congr hfile (hcache _ ((Collection.cacheId?_of_source? hsome).trans hid)))

/-- A get of the collection. -/
theorem Opening.Stands.get (h : o.Stands storage items own source) (key : Key) :
    o.Stands ((o.collection.get key).run storage).2
      (given ((o.collection.get key).run storage).1 ++ items) own source := by
  obtain ⟨keys, hbacked⟩ := h.backed
  refine ⟨h.data, h.start, h.opened, h.own, key :: keys, ?_⟩
  rcases h.own with hnone | hsome
  · exact .alone hnone
  · cases hbacked with
    | alone hnone => exact .alone hnone
    | direct hnone hsame =>
        exact .direct hnone ((o.collection.get_steady key storage).file.trans hsame)
    | cached hid hpos hsize huse =>
        have hafter := (huse.get h.opened hid hpos key).filter
          ((Collection.cacheId?_of_source? hsome).trans hid)
        simp only [List.filter_append, List.filter_filter, Bool.and_self] at hafter
        rw [List.filter_append]
        exact .cached hid hpos hsize hafter

/-- A release, also of an item of another collection. -/
theorem Opening.Stands.release (h : o.Stands storage items own source) {item : Item}
    (hitem : item ∈ items) : o.Stands (storage.release item) (items.erase item) own source := by
  by_cases hhome : o.isHome item
  · obtain ⟨keys, hbacked⟩ := h.backed
    refine ⟨h.data, h.start, h.opened, h.own, keys, ?_⟩
    rw [← List.erase_filter]
    rcases h.own with hnone | hsome
    · exact .alone hnone
    · cases hbacked with
      | alone hnone => exact .alone hnone
      | direct hnone hsame =>
          exact .direct hnone ((release_steady storage item).file.trans hsame)
      | cached hid hpos hsize huse =>
          exact .cached hid hpos hsize (huse.release (List.mem_filter.mpr ⟨hitem, hhome⟩))
  · refine h.congr (release_steady storage item).file ?_ ?_
    · intro id hid
      apply (release_aside storage item).cache
      intro hplace
      obtain ⟨place, hpin, rfl⟩ := Option.map_eq_some_iff.mp hplace
      exact hhome (Opening.isHome_iff.mpr ⟨place, hpin, hid⟩)
    · rw [← List.erase_filter, List.erase_of_not_mem]
      intro hmem
      exact hhome (List.mem_filter.mp hmem).2

/-! ## Sessions -/

theorem Shared.ne_cache (h : Shared file opened storage items) (ho : o ∈ opened)
    (hother : other ∈ opened) (hne : o ≠ other) : o.Apart other := by
  have : Std.Symm Opening.Apart := ⟨fun _ _ hapart id hid hsame => hapart id hsame hid⟩
  exact h.apart.forall ho hother hne

/-- **A get of one collection** leaves the others as they stand. -/
theorem Shared.get (h : Shared file opened storage items) (ho : o ∈ opened) (key : Key) :
    Shared file opened ((o.collection.get key).run storage).2
      (given ((o.collection.get key).run storage).1 ++ items) := by
  have hsteady := o.collection.get_steady key storage
  obtain ⟨haside, hgiven⟩ := o.collection.get_aside key storage
  refine ⟨hsteady.file.trans h.file_eq, ?_, h.apart, ?_, ?_⟩
  · intro other hother
    by_cases hsame : o = other
    · subst hsame
      obtain ⟨own, source, hstands⟩ := h.stands o ho
      exact ⟨own, source, hstands.get key⟩
    · have hapart := h.ne_cache ho hother hsame
      obtain ⟨own, source, hstands⟩ := h.stands other hother
      refine ⟨own, source, hstands.congr hsteady.file ?_ ?_⟩
      · intro id hid
        exact haside.cache id fun howns => hapart id howns hid
      · have hnone : (given ((o.collection.get key).run storage).1).filter other.isHome = [] := by
          rw [List.filter_eq_nil_iff]
          intro item hitem hhome
          obtain ⟨place, hpin, hid⟩ := Opening.isHome_iff.mp hhome
          exact hapart place.1 (hgiven item hitem place hpin) hid
        rw [List.filter_append, hnone, List.nil_append]
  · rw [haside.size]
    exact h.below
  · rw [haside.size]
    intro item hitem place hplace
    rcases List.mem_append.mp hitem with hnew | hold
    · exact h.below o ho place.1 (hgiven item hnew place hplace)
    · exact h.held item hold place hplace

theorem Shared.release (h : Shared file opened storage items) {item : Item}
    (hitem : item ∈ items) : Shared file opened (storage.release item) (items.erase item) := by
  have haside := release_aside storage item
  refine ⟨(release_steady storage item).file.trans h.file_eq, ?_, h.apart, ?_, ?_⟩
  · intro o ho
    obtain ⟨own, source, hstands⟩ := h.stands o ho
    exact ⟨own, source, hstands.release hitem⟩
  · rw [haside.size]
    exact h.below
  · rw [haside.size]
    intro other hother
    exact h.held other (List.mem_of_mem_erase hother)

/-- A collection without a cache is in nobody's way. -/
theorem Shared.cons (h : Shared file opened storage items)
    (hstands : o.Stands storage items own source) (hnone : o.collection.cacheId? = none) :
    Shared file (o :: opened) storage items := by
  have hno : ∀ id, o.collection.cacheId? ≠ some id := by
    intro id hid
    rw [hnone] at hid
    cases hid
  refine ⟨h.file_eq, ?_, ?_, ?_, h.held⟩
  · rw [List.forall_mem_cons]
    exact ⟨⟨own, source, hstands⟩, h.stands⟩
  · refine List.pairwise_cons.mpr ⟨?_, h.apart⟩
    intro other _ id hid
    exact absurd hid (hno id)
  · rw [List.forall_mem_cons]
    exact ⟨fun id hid => absurd hid (hno id), h.below⟩

/-- Neither is one whose cache is new. -/
theorem Shared.cons_new (h : Shared file opened storage items) {cache : Cache UInt32}
    (hstands : o.Stands { storage with caches := storage.caches.push cache } items own source)
    (hid : o.collection.cacheId? = some storage.caches.size) :
    Shared file (o :: opened) { storage with caches := storage.caches.push cache } items := by
  have hsize : (storage.caches.push cache).size = storage.caches.size + 1 :=
    Array.size_push cache
  refine ⟨h.file_eq, ?_, ?_, ?_, ?_⟩
  · rw [List.forall_mem_cons]
    refine ⟨⟨own, source, hstands⟩, ?_⟩
    intro other hother
    obtain ⟨own, source, hstands⟩ := h.stands other hother
    refine ⟨own, source, hstands.congr rfl ?_ rfl⟩
    intro id hown
    show (storage.caches.push cache)[id]? = storage.caches[id]?
    rw [Array.getElem?_push, if_neg (Nat.ne_of_lt (h.below other hother id hown))]
  · refine List.pairwise_cons.mpr ⟨?_, h.apart⟩
    intro other hother id hown hsame
    obtain rfl := Option.some.inj (hid.symm.trans hown)
    exact Nat.lt_irrefl _ (h.below other hother _ hsame)
  · rw [List.forall_mem_cons]
    refine ⟨?_, ?_⟩
    · intro id hown
      obtain rfl := Option.some.inj (hid.symm.trans hown)
      exact hsize ▸ Nat.lt_succ_self _
    · intro other hother id hown
      exact hsize ▸ Nat.lt_succ_of_lt (h.below other hother id hown)
  · intro item hitem place hplace
    exact hsize ▸ Nat.lt_succ_of_lt (h.held item hitem place hplace)

/-- A collection that is opened in the file gets a cache of its own, if any. -/
theorem Shared.ofFile (h : Shared file opened storage items) {config : CollectionConfig}
    {header : Header} {c : Collection} {position : Nat}
    (hopen : Collection.ofFile config header storage = .ok ((c, position), after)) :
    Shared file (⟨file.contents, header, c⟩ :: opened) after items := by
  obtain ⟨source, hstart, hopened, -, hcases⟩ := ofFile_eq_ok hopen
  rw [h.file_eq] at hopened
  rcases hcases with ⟨hnone, rfl⟩ | ⟨hsome, hnew⟩
  · exact h.cons ⟨rfl, hstart, hopened, .inl hnone, [], .alone hnone⟩
      (by rw [Collection.cacheId?, hnone]; rfl)
  have hid := Collection.cacheId?_of_source? hsome
  rcases openSource_eq_ok hnew with ⟨-, rfl, rfl⟩ | ⟨-, cache, -, rfl, rfl⟩
  · exact h.cons ⟨rfl, rfl, hopened, .inr hsome, [], .direct rfl h.file_eq⟩ hid
  · obtain ⟨count, size, hpos, hsize, ⟨hfile, hlent, hown⟩, hempty, -⟩ := lent_openSource hnew rfl
    refine h.cons_new ⟨rfl, rfl, hopened, .inr hsome, [], ?_⟩ hid
    -- nothing is held in a cache that is new
    have hnone : items.filter (Opening.isHome ⟨file.contents, header, c⟩) = [] := by
      rw [List.filter_eq_nil_iff]
      intro item hitem hhome
      obtain ⟨place, hpin, hplace⟩ := Opening.isHome_iff.mp hhome
      have hsame := Option.some.inj (hid.symm.trans hplace)
      exact Nat.ne_of_lt (h.held item hitem place hpin) hsame.symm
    rw [hnone]
    have hlent : Lent storage.caches.size count size file _ [] :=
      ⟨hfile.trans h.file_eq, hlent, hown⟩
    exact .cached rfl hpos hsize (hlent.inUse hempty)

/-- **Collections that share storage** all stand, whatever was opened, asked for
and given back. -/
theorem Session.shared (h : Session file opened storage items) :
    Shared file opened storage items := by
  induction h with
  | start hfile => exact ⟨hfile, by simp, .nil, by simp, by simp⟩
  | ofReader _ hinside hopen ih =>
      obtain ⟨hopened, hnone⟩ := ofReader_created hinside hopen ⟨_, none⟩ true
      exact ih.cons ⟨rfl, rfl, hopened, .inl hnone, [], .alone hnone⟩
        (by rw [Collection.cacheId?, hnone]; rfl)
  | ofFile _ hopen ih => exact ih.ofFile hopen
  | get _ ho key ih => exact ih.get ho key
  | release _ hitem ih => exact ih.release hitem

/-- **A collection among others** answers as one that is alone does. -/
theorem Session.served (h : Session file opened storage items) (ho : o ∈ opened) (key : Key) :
    ∃ own source keys, own.contents = o.data ∧ source.start = o.header.start ∧
      Opened own o.header source o.collection ∧
      Served own o.header source o.collection storage keys key
        (bytesGiven ((o.collection.get key).run storage).1) := by
  obtain ⟨own, source, hstands⟩ := h.shared.stands o ho
  obtain ⟨keys, hbacked⟩ := hstands.backed
  exact ⟨own, source, keys, hstands.data, hstands.start, hstands.opened,
    hbacked.served hstands.opened key⟩

/-- **What a get gives is in the collection**, however many others there are. -/
theorem Session.extract (h : Session file opened storage items) (ho : o ∈ opened)
    (hlimit : o.data.length < Handle.positionLimit) {key : Key} {item : Item}
    (hitem : ((o.collection.get key).run storage).1 = .ok (some item)) :
    (Layout.ofHeader o.header).Extract o.data o.header.start key.address item.bytes := by
  obtain ⟨own, source, keys, hdata, hstart, -, hserved⟩ := h.served ho key
  rw [hitem] at hserved
  rw [← hdata] at hlimit ⊢
  exact Served.extract hserved hstart hlimit

theorem Session.layout (h : Session file opened storage items) (ho : o ∈ opened) :
    o.collection.layout = Layout.ofHeader o.header := by
  obtain ⟨own, source, hstands⟩ := h.shared.stands o ho
  exact hstands.opened.layout

/-- A collection that gives something at its start does not start too far out
for a file. -/
theorem Session.start_lt (h : Session file opened storage items) (ho : o ∈ opened)
    (hlimit : o.data.length < Handle.positionLimit) {key : Key} {item : Item}
    (hitem : ((o.collection.get key).run storage).1 = .ok (some item))
    (hfirst : (Layout.ofHeader o.header).offsetOf key.address = 0) :
    o.header.start.toNat < Handle.positionLimit := by
  obtain ⟨own, source, keys, hdata, hstart, -, hserved⟩ := h.served ho key
  rw [hitem] at hserved
  rw [← hdata] at hlimit
  exact Served.start_lt hserved hstart hlimit hfirst

theorem run_fetch_eq_ok {c : Collection} {key : Key} {item : Item}
    (h : (c.fetch key).run storage = (.ok item, after)) :
    (c.get key).run storage = (.ok (some item), after) := by
  obtain ⟨got, between, hget, hrest⟩ := run_bind_eq_ok_iff.mp h
  cases got with
  | none =>
      obtain ⟨_, _, hget, hthrow⟩ := run_bind_eq_ok_iff.mp hrest
      cases congrArg Prod.fst hthrow
  | some item =>
      obtain ⟨rfl, rfl⟩ := run_pure_eq_ok_iff.mp hrest
      exact hget

/-- **Fetching bytes** holds nothing for longer than that. -/
theorem Session.bytesOf {key : Key} {bytes : Bytes} (h : Session file opened storage items)
    (ho : o ∈ opened) (hrun : (o.collection.bytesOf key).run storage = (.ok bytes, after)) :
    (∃ item, ((o.collection.get key).run storage).1 = .ok (some item) ∧ item.bytes = bytes) ∧
      Session file opened after items := by
  obtain ⟨item, between, hfetch, hrest⟩ := run_bind_eq_ok_iff.mp hrun
  obtain ⟨_, released, hrelease, hpure⟩ := run_bind_eq_ok_iff.mp hrest
  obtain ⟨hbytes, rfl⟩ := run_pure_eq_ok_iff.mp hpure
  have hget := run_fetch_eq_ok hfetch
  have hafter : between.release item = released := congrArg Prod.snd hrelease
  have hgot := h.get ho key
  rw [hget] at hgot
  have hreleased := hgot.release List.mem_cons_self
  rw [given, List.singleton_append, List.erase_cons_head] at hreleased
  exact ⟨⟨item, by rw [hget], hbytes⟩, hafter ▸ hreleased⟩

end

end RecordStore
