import Mathlib
import RecordStore.Proofs.Collection.Sharing

/-!
# References that are out

`Reached` are the states that collections over new storage come to, with the
items that are held.  In each of them the references to a node are those of
items that are held, and no others (`Accounted.holders_eq`), and each cache has
as many shards and nodes as it was opened with.

A collection has room if each shard of its cache has a node that nobody holds.
That is enough for a get, whatever was done in between, as long as nothing else
of the collection is held (`Accounted.get_ne_none`).
-/

namespace RecordStore

/-- How many references to a node of a cache are out. -/
def Storage.holders (storage : Storage) (id : Nat) (pin : Cache.Pin) : Nat :=
  match storage.cache? id with
  | some cache => ((cache.shard pin.shard).node pin.node).holders
  | none => 0

/-- Is a node of the cache with a number held for an item? -/
def Item.heldIn (id : Nat) (item : Item) : Bool :=
  item.pin?.any fun place => place.1 == id

theorem Item.heldIn_iff {id : Nat} {item : Item} :
    item.heldIn id ↔ ∃ place, item.pin? = some place ∧ place.1 = id := by
  unfold heldIn
  cases item.pin? <;> simp

/-- The nodes that are held for items, each with the number of its cache. -/
def nodesOf (items : List Item) : List (Nat × Cache.Pin) :=
  items.filterMap Item.pin?

/-- A pool that has a handle, or may open one. -/
def HandlePool.Unblocked (pool : HandlePool) : Prop :=
  pool.idle ≠ [] ∨ pool.opened < pool.concurrency

namespace Collection

/-- Collections that do not have the same cache. -/
def Apart (c other : Collection) : Prop :=
  ∀ id, c.cacheId? = some id → other.cacheId? ≠ some id

/-- No node of the cache of a collection is held for any of the items. -/
def Clear (c : Collection) (items : List Item) : Prop :=
  ∀ item ∈ items, ∀ place, item.pin? = some place → c.cacheId? ≠ some place.1

/-- Each shard of the cache of a collection, if it has one, has a node that
nobody holds. -/
def HasRoom (c : Collection) (storage : Storage) : Prop :=
  ∀ id cache, c.cacheId? = some id → storage.cache? id = some cache →
    ∀ place < cache.shards.size, ∃ node < (cache.shard place).nodes.size,
      storage.holders id ⟨place, node⟩ = 0

end Collection

/-- What using collections leads to, from storage over a file of which nothing
is open yet: the collections that were opened, the storage, and the items that
are held.  The file may be changed at any time. -/
inductive Reached : List Collection → Storage → List Item → Prop
  | start (file : DataFile) {concurrency : Nat} {pool : HandlePool}
      (hpool : HandlePool.create concurrency = .ok pool) : Reached [] (.over file pool) []
  | ofReader {opened : List Collection} {storage : Storage} {items : List Item}
      (h : Reached opened storage items) {header : Header} {c : Collection}
      {reader rest : ByteReader} (hopen : Collection.ofReader reader header = .ok (c, rest)) :
      Reached (c :: opened) storage items
  | ofFile {opened : List Collection} {storage after : Storage} {items : List Item}
      (h : Reached opened storage items) {config : CollectionConfig} {header : Header}
      {c : Collection} {position : Nat}
      (hopen : Collection.ofFile config header storage = .ok ((c, position), after)) :
      Reached (c :: opened) after items
  | changed {opened : List Collection} {storage : Storage} {items : List Item}
      (h : Reached opened storage items) (file : DataFile) :
      Reached opened { storage with file } items
  | get {opened : List Collection} {storage : Storage} {items : List Item}
      (h : Reached opened storage items) {c : Collection} (hc : c ∈ opened) (key : Key) :
      Reached opened ((c.get key).run storage).2 (given ((c.get key).run storage).1 ++ items)
  | release {opened : List Collection} {storage : Storage} {items : List Item}
      (h : Reached opened storage items) {item : Item} (hitem : item ∈ items) :
      Reached opened (storage.release item) (items.erase item)

/-- Storage all of whose references are accounted for: the cache `id` has
`(dims id).1` shards of `(dims id).2` nodes each, and the references to them are
those of the items that are held there. -/
structure Accounted (dims : Nat → Nat × Nat) (opened : List Collection) (storage : Storage)
    (items : List Item) : Prop where
  lent : ∀ id < storage.caches.size, 0 < (dims id).1 ∧
    Lent id (dims id).1 (dims id).2 storage.file storage (items.filter (Item.heldIn id))
  apart : opened.Pairwise Collection.Apart
  below : ∀ c ∈ opened, ∀ id, c.cacheId? = some id → id < storage.caches.size
  held : ∀ item ∈ items, ∀ place, item.pin? = some place → place.1 < storage.caches.size
  pool : storage.pool.Unblocked

/-! ## Handles -/

section

variable {storage : Storage}

/-- A handle that is used comes back. -/
theorem withHandle_unblocked {α : Type} (h : storage.pool.Unblocked)
    (use : DataFile → Handle → Except StoreError α × Handle) :
    ((Storage.withHandle use).run storage).2.pool.Unblocked := by
  show (Storage.withHandle use storage).2.pool.Unblocked
  unfold Storage.withHandle
  rcases hout : storage.pool.checkOut storage.file with ⟨e | _ | handle, pool⟩
  · obtain ⟨-, rfl⟩ := HandlePool.checkOut_error hout
    exact h
  · unfold HandlePool.checkOut at hout
    split at hout
    · cases hout
    · split at hout
      · split at hout <;> cases hout
      · cases hout
        exact h
  · exact .inl (List.cons_ne_nil _ _)

theorem Source.stream_unblocked (h : storage.pool.Unblocked) (source : Source) (layout : Layout)
    (key : Key) : ((source.stream layout key).run storage).2.pool.Unblocked := by
  rcases source.stream_course layout key storage with ⟨e, hrun, -⟩ | ⟨use, hrun, -⟩
  · rw [hrun]
    exact h
  · rw [hrun]
    exact withHandle_unblocked h use

theorem Source.get_unblocked (h : storage.pool.Unblocked) (source : Source) (layout : Layout)
    (key : Key) : ((source.get layout key).run storage).2.pool.Unblocked := by
  have hstream := source.stream_unblocked h layout key
  cases hfound : source.cache?.bind fun id => (storage.cache? id).map (id, ·) with
  | none =>
      rw [Source.get_run_of_no_cache hfound]
      exact hstream
  | some found =>
      obtain ⟨id, hid, hthere⟩ := Option.bind_eq_some_iff.mp hfound
      obtain ⟨cache, hcache, -⟩ := Option.map_eq_some_iff.mp hthere
      rw [Source.get_run hid hcache]
      rcases Cache.get_world cache key.address (source.stream layout key).run storage with
        hsame | hread
      · rw [hsame]
        exact h
      · rw [hread]
        exact hstream

/-- **After a get**, a handle can be had if one could be had before. -/
theorem Collection.get_unblocked (h : storage.pool.Unblocked) (c : Collection) (key : Key) :
    ((c.get key).run storage).2.pool.Unblocked := by
  rcases c.get_course key with ⟨result, hrun⟩ | ⟨source, -, hget⟩
  · rw [hrun storage]
    exact h
  · rw [hget]
    exact source.get_unblocked h c.layout key

theorem pool_release (storage : Storage) (item : Item) :
    (storage.release item).pool = storage.pool := by
  unfold Storage.release
  split
  · split <;> rfl
  · rfl

end

/-! ## One cache -/

section

variable {id count size : Nat} {file file' : DataFile} {storage after : Storage}
  {items held : List Item}

/-- Items that are held elsewhere do not matter. -/
theorem Lent.filter (h : Lent id count size file storage items) :
    Lent id count size file storage (items.filter (Item.heldIn id)) := by
  have hpins : pinsOf (items.filter (Item.heldIn id)) = pinsOf items := by
    unfold pinsOf
    rw [List.filterMap_filter]
    apply List.filterMap_congr
    intro item hitem
    cases hplace : item.pin? with
    | none => simp
    | some place => simp [Item.heldIn, hplace, h.own item hitem place hplace]
  refine ⟨h.file_eq, ?_, ?_⟩
  · rw [hpins]
    exact h.lent
  · intro item hitem
    exact h.own item (List.mem_of_mem_filter hitem)

theorem Lent.congr (h : Lent id count size file storage items) (hfile : after.file = file')
    (hcache : after.cache? id = storage.cache? id) (hitems : held = items) :
    Lent id count size file' after held := by
  subst hitems
  exact ⟨hfile, hcache ▸ h.lent, h.own⟩

theorem count_pinsOf (items : List Item) (id : Nat) (pin : Cache.Pin) :
    (pinsOf (items.filter (Item.heldIn id))).count pin = (nodesOf items).count (id, pin) := by
  induction items with
  | nil => rfl
  | cons item items ih =>
      unfold nodesOf pinsOf at ih ⊢
      rw [List.filter_cons, List.filterMap_cons]
      cases hplace : item.pin? with
      | none => simpa [Item.heldIn, hplace] using ih
      | some place =>
          obtain ⟨other, own⟩ := place
          by_cases hid : other = id
          · subst hid
            simp [Item.heldIn, hplace, List.count_cons, ih]
          · simp [Item.heldIn, hplace, ih, hid]

/-- **The references to a node** are those of the items that are held. -/
theorem Lent.holders_eq (h : Lent id count size file storage (items.filter (Item.heldIn id)))
    (pin : Cache.Pin) : storage.holders id pin = (nodesOf items).count (id, pin) := by
  obtain ⟨cache, hcache, hsound⟩ := h.lent
  unfold Storage.holders
  rw [hcache, ← count_pinsOf]
  by_cases hshard : pin.shard < count
  · exact (hsound.shard pin.shard hshard).holders pin.node
  · have hnone : pin ∉ pinsOf (items.filter (Item.heldIn id)) := fun hmem =>
      hshard (hsound.inside pin hmem)
    have hout : ¬ pin.shard < cache.shards.size := by
      rw [hsound.shards]
      exact hshard
    rw [List.count_eq_zero_of_not_mem hnone]
    simp [Cache.shard, Array.getD_eq_getD_getElem?, hout, Cache.Shard.node_ofSize]

end

/-! ## All caches -/

section

variable {dims : Nat → Nat × Nat} {opened : List Collection} {storage start after : Storage}
  {items own : List Item} {c other : Collection}

theorem Collection.filter_heldIn_of_clear {id : Nat} (h : c.Clear items)
    (hid : c.cacheId? = some id) : items.filter (Item.heldIn id) = [] := by
  rw [List.filter_eq_nil_iff]
  intro item hitem hheld
  obtain ⟨place, hpin, rfl⟩ := Item.heldIn_iff.mp hheld
  exact h item hitem place hpin hid

namespace Accounted

theorem holders_eq (h : Accounted dims opened storage items) (id : Nat) (pin : Cache.Pin) :
    storage.holders id pin = (nodesOf items).count (id, pin) := by
  by_cases hid : id < storage.caches.size
  · exact (h.lent id hid).2.holders_eq pin
  · have hnone : storage.cache? id = none :=
      Array.getElem?_eq_none (Nat.le_of_not_lt hid)
    have hout : (id, pin) ∉ nodesOf items := by
      intro hmem
      obtain ⟨item, hitem, hpin⟩ := List.mem_filterMap.mp hmem
      exact hid (h.held item hitem _ hpin)
    rw [Storage.holders, hnone, List.count_eq_zero_of_not_mem hout]

/-- **A get** of a collection adds a reference for the item that it gives. -/
theorem get (h : Accounted dims opened storage items) (hc : c ∈ opened) (key : Key) :
    Accounted dims opened ((c.get key).run storage).2
      (given ((c.get key).run storage).1 ++ items) := by
  have hsteady := c.get_steady key storage
  obtain ⟨haside, hgiven⟩ := c.get_aside key storage
  refine ⟨?_, h.apart, ?_, ?_, c.get_unblocked h.pool key⟩
  · rw [haside.size]
    intro id hid
    obtain ⟨hpos, hlent⟩ := h.lent id hid
    refine ⟨hpos, ?_⟩
    rw [List.filter_append]
    by_cases hown : c.cacheId? = some id
    · rcases c.get_course key with ⟨result, hrun⟩ | ⟨source, hsource, hget⟩
      · rw [hrun storage]
        refine hlent.congr rfl rfl ?_
        cases result <;> rfl
      · have hcache := (Collection.cacheId?_of_source? hsource).symm.trans hown
        obtain ⟨hafter, -, -⟩ := hlent.get hpos hcache c.layout key rfl
        have hfilter := hafter.filter
        simp only [List.filter_append, List.filter_filter, Bool.and_self] at hfilter
        rw [hget]
        exact hfilter.congr rfl rfl rfl
    · have hnone : (given ((c.get key).run storage).1).filter (Item.heldIn id) = [] := by
        rw [List.filter_eq_nil_iff]
        intro item hitem hheld
        obtain ⟨place, hpin, rfl⟩ := Item.heldIn_iff.mp hheld
        exact hown (hgiven item hitem place hpin)
      rw [hnone, List.nil_append]
      exact hlent.congr rfl (haside.cache id hown) rfl
  · rw [haside.size]
    exact h.below
  · rw [haside.size]
    intro item hitem place hplace
    rcases List.mem_append.mp hitem with hnew | hold
    · exact h.below c hc place.1 (hgiven item hnew place hplace)
    · exact h.held item hold place hplace

/-- **A release** takes away the reference of its item. -/
theorem release (h : Accounted dims opened storage items) {item : Item} (hitem : item ∈ items) :
    Accounted dims opened (storage.release item) (items.erase item) := by
  have haside := release_aside storage item
  have hfile := (release_steady storage item).file
  refine ⟨?_, h.apart, ?_, ?_, ?_⟩
  · rw [haside.size]
    intro id hid
    obtain ⟨hpos, hlent⟩ := h.lent id hid
    refine ⟨hpos, ?_⟩
    rw [← List.erase_filter]
    by_cases hheld : item.heldIn id
    · obtain ⟨hafter, -⟩ := hlent.release (List.mem_filter.mpr ⟨hitem, hheld⟩)
      exact hafter.congr rfl rfl rfl
    · refine hlent.congr rfl ?_ ?_
      · apply haside.cache
        intro hplace
        obtain ⟨place, hpin, hsame⟩ := Option.map_eq_some_iff.mp hplace
        exact hheld (Item.heldIn_iff.mpr ⟨place, hpin, hsame⟩)
      · apply List.erase_of_not_mem
        intro hmem
        exact hheld (List.mem_filter.mp hmem).2
  · rw [haside.size]
    exact h.below
  · rw [haside.size]
    intro other hother
    exact h.held other (List.mem_of_mem_erase hother)
  · rw [pool_release]
    exact h.pool

/-- A file that changes is of no concern to references. -/
theorem changed (h : Accounted dims opened storage items) (file : DataFile) :
    Accounted dims opened { storage with file } items := by
  refine ⟨?_, h.apart, h.below, h.held, h.pool⟩
  intro id hid
  obtain ⟨hpos, hlent⟩ := h.lent id hid
  exact ⟨hpos, hlent.congr rfl rfl rfl⟩

/-- A collection without a cache is in nobody's way. -/
theorem cons (h : Accounted dims opened storage items) (hnone : c.cacheId? = none) :
    Accounted dims (c :: opened) storage items := by
  have hno : ∀ id, c.cacheId? ≠ some id := by
    intro id hid
    rw [hnone] at hid
    cases hid
  refine ⟨h.lent, ?_, ?_, h.held, h.pool⟩
  · refine List.pairwise_cons.mpr ⟨?_, h.apart⟩
    intro other _ id hid
    exact absurd hid (hno id)
  · rw [List.forall_mem_cons]
    exact ⟨fun id hid => absurd hid (hno id), h.below⟩

/-- Neither is one whose cache is new. -/
theorem cons_new (h : Accounted dims opened storage items) {cache : Cache UInt32}
    (hid : c.cacheId? = some storage.caches.size) {count size : Nat} (hpos : 0 < count)
    (hnew : Lent storage.caches.size count size storage.file
      { storage with caches := storage.caches.push cache } []) :
    Accounted (Function.update dims storage.caches.size (count, size)) (c :: opened)
      { storage with caches := storage.caches.push cache } items := by
  have hsize : (storage.caches.push cache).size = storage.caches.size + 1 :=
    Array.size_push cache
  refine ⟨?_, ?_, ?_, ?_, h.pool⟩
  · intro id hlt
    rcases Nat.lt_succ_iff_lt_or_eq.mp (hsize ▸ hlt) with hold | rfl
    · obtain ⟨hpos, hlent⟩ := h.lent id hold
      rw [Function.update_of_ne (Nat.ne_of_lt hold)]
      refine ⟨hpos, hlent.congr rfl ?_ rfl⟩
      show (storage.caches.push cache)[id]? = storage.caches[id]?
      rw [Array.getElem?_push, if_neg (Nat.ne_of_lt hold)]
    · rw [Function.update_self]
      refine ⟨hpos, hnew.congr rfl rfl ?_⟩
      -- nothing is held in a cache that is new
      rw [List.filter_eq_nil_iff]
      intro item hitem hheld
      obtain ⟨place, hpin, hplace⟩ := Item.heldIn_iff.mp hheld
      exact Nat.ne_of_lt (h.held item hitem place hpin) hplace
  · refine List.pairwise_cons.mpr ⟨?_, h.apart⟩
    intro other hother id hown hsame
    obtain rfl := Option.some.inj (hid.symm.trans hown)
    exact Nat.lt_irrefl _ (h.below other hother _ hsame)
  · rw [List.forall_mem_cons]
    refine ⟨?_, ?_⟩
    · intro id hown
      obtain rfl := Option.some.inj (hid.symm.trans hown)
      exact hsize ▸ Nat.lt_succ_self _
    · intro other hother id hown
      exact hsize ▸ Nat.lt_succ_of_lt (h.below other hother id hown)
  · intro item hitem place hplace
    exact hsize ▸ Nat.lt_succ_of_lt (h.held item hitem place hplace)

/-- A collection that is opened in the file gets a cache of its own, if any. -/
theorem ofFile (h : Accounted dims opened storage items) {config : CollectionConfig}
    {header : Header} {position : Nat}
    (hopen : Collection.ofFile config header storage = .ok ((c, position), after)) :
    ∃ dims', Accounted dims' (c :: opened) after items := by
  obtain ⟨source, -, -, -, ⟨hnone, rfl⟩ | ⟨hsome, hnew⟩⟩ := ofFile_eq_ok hopen
  · exact ⟨dims, h.cons (by rw [Collection.cacheId?, hnone]; rfl)⟩
  · have hid := Collection.cacheId?_of_source? hsome
    rcases openSource_eq_ok hnew with ⟨-, rfl, rfl⟩ | ⟨-, cache, -, rfl, rfl⟩
    · exact ⟨dims, h.cons hid⟩
    · obtain ⟨count, size, hpos, -, hlent, -, -⟩ := lent_openSource hnew rfl
      exact ⟨_, h.cons_new hid hpos hlent⟩

/-- **Where there was room**, and nothing of a collection has been kept since, a
get does not come away empty-handed. -/
theorem get_ne_none (hstart : Accounted dims opened start items)
    (h : Accounted dims opened storage (own ++ items)) (hc : c ∈ opened) (hclear : c.Clear own)
    (hroom : c.HasRoom start) (key : Key) : ((c.get key).run storage).1 ≠ .ok none := by
  intro hnone
  rcases c.get_course key with ⟨result, hrun⟩ | ⟨source, hsource, hget⟩
  · rw [hrun storage] at hnone
    cases result <;> cases hnone
  cases hid : source.cache? with
  | none =>
      rw [hget, Source.get_run_uncached hid] at hnone
      simp only at hnone
      cases hread : ((source.stream c.layout key).run storage).1 <;> rw [hread] at hnone <;>
        cases hnone
  | some id =>
      have hown := (Collection.cacheId?_of_source? hsource).trans hid
      obtain ⟨hpos, hlent⟩ := h.lent id (h.below c hc id hown)
      rw [hget, hlent.get_eq_none_iff hpos hid] at hnone
      obtain ⟨-, cache, hcache, hfull⟩ := hnone
      obtain ⟨cache', hcache', hsound⟩ := hlent.lent
      obtain rfl := Option.some.inj (hcache.symm.trans hcache')
      obtain ⟨-, before⟩ := hstart.lent id (hstart.below c hc id hown)
      obtain ⟨first, hfirst, hsound'⟩ := before.lent
      -- the shard of the key had a node to be reused, and it still has
      have hplace := hsound.shardOf_lt hpos key.address
      obtain ⟨node, hnode, hfree⟩ := hroom id first hown hfirst (cache.shardOf key.address)
        (by rw [hsound'.shards, ← hsound.shards]; exact hplace)
      rw [(hsound'.shard _ (hsound.shards ▸ hplace)).size_nodes] at hnode
      have hmem := (hsound.full_iff hpos key.address).mp hfull node hnode
      have hcount := List.count_pos_iff.mpr hmem
      rw [count_pinsOf, ← count_pinsOf (own ++ items), List.filter_append,
        Collection.filter_heldIn_of_clear hclear hown, List.nil_append, count_pinsOf,
        ← hstart.holders_eq, hfree] at hcount
      exact Nat.lt_irrefl 0 hcount

end Accounted

theorem cacheId?_of_ofReader {reader rest : ByteReader} {header : Header}
    (h : Collection.ofReader reader header = .ok (c, rest)) : c.cacheId? = none := by
  unfold Collection.ofReader at h
  by_cases hposition : reader.position = header.start.toNat
  · rw [if_neg (not_not.mpr hposition)] at h
    obtain ⟨_, -, hrest⟩ := bind_eq_ok_iff.mp h
    obtain ⟨rfl, -⟩ := Prod.mk.inj (Except.ok.inj hrest)
    rfl
  · rw [if_pos hposition] at h
    cases h

/-- **In every state that is reached**, all references are accounted for. -/
theorem Reached.accounted (h : Reached opened storage items) :
    ∃ dims, Accounted dims opened storage items := by
  induction h with
  | start file hpool =>
      refine ⟨fun _ => (0, 0), ?_, .nil, by simp, by simp, ?_⟩
      · intro id hid
        exact absurd hid (Nat.not_lt_zero id)
      · obtain ⟨hpos, rfl⟩ := HandlePool.create_eq_ok hpool
        exact .inr hpos
  | ofReader _ hopen ih =>
      obtain ⟨dims, h⟩ := ih
      exact ⟨dims, h.cons (cacheId?_of_ofReader hopen)⟩
  | ofFile _ hopen ih =>
      obtain ⟨dims, h⟩ := ih
      exact h.ofFile hopen
  | changed _ file ih =>
      obtain ⟨dims, h⟩ := ih
      exact ⟨dims, h.changed file⟩
  | get _ hc key ih =>
      obtain ⟨dims, h⟩ := ih
      exact ⟨dims, h.get hc key⟩
  | release _ hitem ih =>
      obtain ⟨dims, h⟩ := ih
      exact ⟨dims, h.release hitem⟩

end

end RecordStore
