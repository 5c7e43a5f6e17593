import Mathlib
import RecordStore.Proofs.Cache.Contents
import RecordStore.Proofs.Collection.Opening

/-!
# Collections in use

`Visited` are the states that gets and releases bring a collection to.  A
collection with a cache keeps its storage in order through all of them
(`Lent`, and `Serving` while there is a handle to be had), and each get is
answered by what the cache has for the address, whoever asked for it first, or
by what streaming reads (`Answers`).
-/

namespace RecordStore

/-- The items a get gave out. -/
def given (result : Except StoreError (Option Item)) : List Item :=
  match result with
  | .ok (some item) => [item]
  | .ok none | .error _ => []

/-- The references that go with items. -/
def pinsOf (items : List Item) : List Cache.Pin :=
  items.filterMap fun item => item.pin?.map Prod.snd

/-- The bytes that a get gave. -/
def bytesGiven (result : Except StoreError (Option Item)) : Except StoreError (Option Bytes) :=
  result.map (·.map Item.bytes)

theorem bytesGiven_eq_ok_none_iff {result : Except StoreError (Option Item)} :
    bytesGiven result = .ok none ↔ result = .ok none := by
  rcases result with _ | _ | _ <;> simp [bytesGiven, Except.map]

theorem bytesGiven_at_hand (result : Except StoreError Bytes) :
    bytesGiven (result.map (some ⟨·, none⟩)) = result.map some := by
  cases result <;> rfl

/-- The states of storage that gets of a collection and releases lead to, with
the keys asked for so far and the items that are held. -/
inductive Visited (c : Collection) (start : Storage) : List Key → Storage → List Item → Prop
  | start : Visited c start [] start []
  | get {keys : List Key} {storage : Storage} {items : List Item}
      (h : Visited c start keys storage items) (key : Key) :
      Visited c start (key :: keys) ((c.get key).run storage).2
        (given ((c.get key).run storage).1 ++ items)
  | release {keys : List Key} {storage : Storage} {items : List Item}
      (h : Visited c start keys storage items) {item : Item} (hitem : item ∈ items) :
      Visited c start keys (storage.release item) (items.erase item)

/-- What a cache has for an address. -/
def Storage.resident? (storage : Storage) (id : Nat) (address : UInt32) : Option Bytes :=
  (storage.cache? id).bind (·.resident? address)

/-- A cache has no node to be had for an address: each one it could be loaded
into is held. -/
def Storage.Full (storage : Storage) (id : Nat) (address : UInt32) : Prop :=
  ∃ cache, storage.cache? id = some cache ∧ cache.Full address

/-- How a get through a cache is answered, when `before` is in the cache and
streaming would read `fresh`, and what is in the cache afterwards. -/
inductive Answers (before : Option Bytes) (fresh : Except StoreError Bytes) :
    Except StoreError (Option Bytes) → Option Bytes → Prop
  | hit {bytes : Bytes} (hbefore : before = some bytes) :
      Answers before fresh (.ok (some bytes)) (some bytes)
  | full (hbefore : before = none) : Answers before fresh (.ok none) none
  | loaded {bytes : Bytes} (hbefore : before = none) (hfresh : fresh = .ok bytes) :
      Answers before fresh (.ok (some bytes)) (some bytes)
  | failed {e : StoreError} (hbefore : before = none) (hfresh : fresh = .error e) :
      Answers before fresh (.error e) none

/-- Storage in which the cache `id` of `count` shards is in order, when `items`
are held, whether or not a handle can be had. -/
structure Lent (id count size : Nat) (file : DataFile) (storage : Storage)
    (items : List Item) : Prop where
  file_eq : storage.file = file
  lent : ∃ cache, storage.cache? id = some cache ∧
    (⟨cache, pinsOf items⟩ : Cache.Lending UInt32).Sound count size
  own : ∀ item ∈ items, ∀ place, item.pin? = some place → place.1 = id

/-- Storage in which the cache `id` of `count` shards is in order, when `items`
are held. -/
structure Serving (id count size : Nat) (file : DataFile) (storage : Storage)
    (items : List Item) : Prop where
  ready : storage.Ready
  file_eq : storage.file = file
  lent : ∃ cache, storage.cache? id = some cache ∧
    (⟨cache, pinsOf items⟩ : Cache.Lending UInt32).Sound count size
  own : ∀ item ∈ items, ∀ place, item.pin? = some place → place.1 = id

theorem Serving.toLent {id count size : Nat} {file : DataFile} {storage : Storage}
    {items : List Item} (h : Serving id count size file storage items) :
    Lent id count size file storage items :=
  ⟨h.file_eq, h.lent, h.own⟩

theorem Lent.serving {id count size : Nat} {file : DataFile} {storage : Storage}
    {items : List Item} (h : Lent id count size file storage items) (hready : storage.Ready) :
    Serving id count size file storage items :=
  ⟨hready, h.file_eq, h.lent, h.own⟩

theorem cache?_setCache {storage : Storage} {id : Nat} {cache : Cache UInt32}
    (h : storage.cache? id = some cache) (cache' : Cache UInt32) :
    (storage.setCache id cache').cache? id = some cache' := by
  have hbound : id < storage.caches.size := by
    unfold Storage.cache? at h
    exact (Array.getElem?_eq_some_iff.mp h).1
  simp [Storage.cache?, Storage.setCache, hbound]

/-! ## Operations one after another -/

/-- Operations on storage succeed one after another. -/
theorem run_bind_eq_ok_iff {α β : Type} {x : Access α} {f : α → Access β} {b : β}
    {storage after : Storage} : (x >>= f).run storage = (.ok b, after) ↔
      ∃ a between, x.run storage = (.ok a, between) ∧ (f a).run between = (.ok b, after) := by
  have hrun : (x >>= f).run storage = match x.run storage with
      | (.ok a, between) => (f a).run between
      | (.error e, between) => (.error e, between) := by
    rw [ExceptT.run_bind]
    show StateT.bind x.run _ storage = _
    unfold StateT.bind
    rcases x.run storage with ⟨e | a, between⟩ <;> rfl
  rw [hrun]
  constructor
  · intro h
    rcases hx : x.run storage with ⟨e | a, between⟩
    · rw [hx] at h
      cases h
    · rw [hx] at h
      exact ⟨a, between, rfl, h⟩
  · rintro ⟨a, between, hx, h⟩
    rw [hx]
    exact h

theorem run_liftM_eq_ok_iff {α : Type} {result : Except StoreError α} {a : α}
    {storage after : Storage} : (liftM result : Access α).run storage = (.ok a, after) ↔
      result = .ok a ∧ storage = after := by
  have hrun : (liftM result : Access α).run storage = (result, storage) := by
    cases result <;> rfl
  rw [hrun, Prod.mk.injEq]

theorem run_pure_eq_ok_iff {α : Type} {a b : α} {storage after : Storage} :
    (pure a : Access α).run storage = (.ok b, after) ↔ a = b ∧ storage = after := by
  have hrun : (pure a : Access α).run storage = (.ok a, storage) := rfl
  rw [hrun, Prod.mk.injEq, Except.ok.injEq]

theorem run_map_eq_ok_iff {α β : Type} {x : Access α} {f : α → β} {b : β}
    {storage after : Storage} : (f <$> x).run storage = (.ok b, after) ↔
      ∃ a, x.run storage = (.ok a, after) ∧ f a = b := by
  rw [map_eq_pure_bind, run_bind_eq_ok_iff]
  constructor
  · rintro ⟨a, between, hx, hpure⟩
    obtain ⟨hsame, rfl⟩ := run_pure_eq_ok_iff.mp hpure
    exact ⟨a, hx, hsame⟩
  · rintro ⟨a, hx, hsame⟩
    exact ⟨a, after, hx, run_pure_eq_ok_iff.mpr ⟨hsame, rfl⟩⟩

/-- What is refused under a condition succeeds only without it. -/
theorem run_of_guard {α : Type} {refused : Prop} [Decidable refused] {e : StoreError}
    {x : Access α} {a : α} {storage after : Storage}
    (h : (do
      if refused then throw e
      x : Access α).run storage = (.ok a, after)) : x.run storage = (.ok a, after) := by
  by_cases hrefused : refused
  · rw [if_pos hrefused] at h
    obtain ⟨_, _, hthrow, -⟩ := run_bind_eq_ok_iff.mp h
    cases congrArg Prod.fst hthrow
  · rw [if_neg hrefused] at h
    exact h

section

variable {id count size : Nat} {file : DataFile} {storage : Storage} {items : List Item}

/-! ## Releases -/

theorem Storage.resident?_of_cache? {cache : Cache UInt32} (h : storage.cache? id = some cache)
    (address : UInt32) : storage.resident? id address = cache.resident? address := by
  rw [Storage.resident?, h]
  rfl

/-- An item that nothing is held for may come and go. -/
theorem Lent.cons_at_hand (h : Lent id count size file storage items) (bytes : Bytes) :
    Lent id count size file storage (⟨bytes, none⟩ :: items) := by
  refine ⟨h.file_eq, h.lent, ?_⟩
  intro item hitem place hplace
  rcases List.mem_cons.mp hitem with rfl | hmem
  · cases hplace
  · exact h.own item hmem place hplace

/-- **A release keeps storage in order** and what is in the cache. -/
theorem Lent.release (h : Lent id count size file storage items) {item : Item}
    (hitem : item ∈ items) : Lent id count size file (storage.release item) (items.erase item) ∧
      ∀ address, (storage.release item).resident? id address = storage.resident? id address := by
  obtain ⟨cache, hcache, hsound⟩ := h.lent
  have hperm : (pinsOf items).Perm
      ((item.pin?.map Prod.snd).toList ++ pinsOf (items.erase item)) := by
    have hcons := (List.perm_cons_erase hitem).filterMap fun item => item.pin?.map Prod.snd
    rw [List.filterMap_cons] at hcons
    cases hpin : item.pin?.map Prod.snd with
    | none => rwa [hpin] at hcons
    | some pin => rwa [hpin] at hcons
  have hown : ∀ other ∈ items.erase item, ∀ place, other.pin? = some place → place.1 = id :=
    fun other hother => h.own other (List.mem_of_mem_erase hother)
  cases hpin : item.pin? with
  | none =>
      have hsame : storage.release item = storage := by
        rw [Storage.release, hpin]
      rw [hsame]
      rw [hpin] at hperm
      exact ⟨⟨h.file_eq, ⟨cache, hcache, hsound.of_perm hperm⟩, hown⟩, fun _ => rfl⟩
  | some place =>
      obtain ⟨id', pin⟩ := place
      obtain rfl : id' = id := h.own item hitem _ hpin
      have hafter : storage.release item = storage.setCache id' (cache.release pin) := by
        rw [Storage.release, hpin]
        simp only [hcache]
      rw [hpin] at hperm
      have hmem : pin ∈ pinsOf items := hperm.mem_iff.mpr (List.mem_cons_self ..)
      have hrest : ((pinsOf items).erase pin).Perm (pinsOf (items.erase item)) := by
        simpa using hperm.erase pin
      have hset := cache?_setCache hcache (cache.release pin)
      rw [hafter]
      refine ⟨⟨h.file_eq, ⟨_, hset, (hsound.release hmem).of_perm hrest⟩, hown⟩, ?_⟩
      intro address
      rw [Storage.resident?_of_cache? hset, Storage.resident?_of_cache? hcache]
      exact Cache.resident?_release cache pin address

/-! ## Gets -/

variable {source : Source} {layout : Layout}

theorem Source.get_run {cache : Cache UInt32} (hid : source.cache? = some id)
    (hcache : storage.cache? id = some cache) (layout : Layout) (key : Key) :
    (source.get layout key).run storage =
      ((cache.get key.address (source.stream layout key).run storage).1.1.map
          (·.map fun ref => ⟨ref.data, some (id, ref.pin)⟩),
        (cache.get key.address (source.stream layout key).run storage).2.setCache id
          (cache.get key.address (source.stream layout key).run storage).1.2) := by
  show Source.get source layout key storage = _
  unfold Source.get
  simp only [hid, hcache, Option.bind_some, Option.map_some]

theorem run_map_of_run {α β : Type} {access : Access α} {after : Storage}
    {result : Except StoreError α} (f : α → β) (h : access.run storage = (result, after)) :
    (f <$> access).run storage = (result.map f, after) := by
  have hmap : (f <$> access).run storage =
      ((access.run storage).1.map f, (access.run storage).2) := by
    rw [ExceptT.run_map]
    rfl
  rw [hmap, h]

/-- Without a cache that is there a record is streamed. -/
theorem Source.get_run_of_no_cache
    (hnone : (source.cache?.bind fun id => (storage.cache? id).map (id, ·)) = none)
    (layout : Layout) (key : Key) : (source.get layout key).run storage =
      (((source.stream layout key).run storage).1.map (some ⟨·, none⟩),
        ((source.stream layout key).run storage).2) := by
  show Source.get source layout key storage = _
  unfold Source.get
  rw [hnone]
  exact run_map_of_run _ rfl

/-- Without a cache a record is streamed. -/
theorem Source.get_run_uncached (hnone : source.cache? = none) (layout : Layout) (key : Key)
    (storage : Storage) : (source.get layout key).run storage =
      (((source.stream layout key).run storage).1.map (some ⟨·, none⟩),
        ((source.stream layout key).run storage).2) :=
  Source.get_run_of_no_cache (by rw [hnone]; rfl) layout key

theorem Source.get_run_of_none (hnone : source.cache? = none) (layout : Layout) (key : Key)
    (hready : storage.Ready) : ∃ after, (source.get layout key).run storage =
      ((source.reading layout storage.file key).map (some ⟨·, none⟩), after) ∧
        storage.Kept after := by
  obtain ⟨after, hrun, hkept⟩ := source.stream_run layout key hready
  refine ⟨after, ?_, hkept⟩
  rw [Source.get_run_uncached hnone, hrun]

/-- A get through a source, or failing to, changes handles and a cache only. -/
theorem Source.get_steady (source : Source) (layout : Layout) (key : Key) (storage : Storage) :
    storage.Steady ((source.get layout key).run storage).2 := by
  obtain ⟨hsteady, -⟩ := source.stream_steady layout key storage
  show storage.Steady (Source.get source layout key storage).2
  unfold Source.get
  split
  · have hmap : ((fun bytes => some (⟨bytes, none⟩ : Item)) <$> source.stream layout key).run
        storage = _ := run_map_of_run _ rfl
    rw [ExceptT.run] at hmap
    rw [hmap]
    exact hsteady
  · next id cache _ =>
      have hworld : storage.Steady
          (cache.get key.address (source.stream layout key).run storage).2 := by
        rcases Cache.get_world cache key.address (source.stream layout key).run storage with
          hsame | hread
        · rw [hsame]
          exact .refl storage
        · rw [hread]
          exact hsteady
      exact ⟨hworld.file, hworld.concurrency, hworld.ready⟩

/-- **A get through a cache keeps storage in order**, brings in nothing but
what was read, and is answered from the cache or by streaming. -/
theorem Lent.get (h : Lent id count size file storage items) (hpos : 0 < count)
    (hid : source.cache? = some id) (layout : Layout) (key : Key)
    {result : Except StoreError (Option Item)} {after : Storage}
    (hrun : (source.get layout key).run storage = (result, after)) :
    Lent id count size file after (given result ++ items) ∧
      (∀ address bytes, after.resident? id address = some bytes →
        storage.resident? id address = some bytes ∨
          (key.address = address ∧ source.reading layout file key = .ok bytes)) ∧
      Answers (storage.resident? id key.address) ((source.stream layout key).run storage).1
        (bytesGiven result) (after.resident? id key.address) := by
  obtain ⟨cache, hcache, hsound⟩ := h.lent
  have hnew := hsound.get hpos key.address (source.stream layout key).run storage
  have houtcome := Cache.get_outcome hsound hpos key.address (source.stream layout key).run storage
  have hworld := Cache.get_world cache key.address (source.stream layout key).run storage
  have hloaded : ∀ address bytes,
      (cache.get key.address (source.stream layout key).run storage).1.2.resident? address =
        some bytes → _ :=
    fun _ _ hfound => Cache.resident?_get hsound hpos key.address _ storage hfound
  rw [Source.get_run hid hcache] at hrun
  rcases hget : cache.get key.address (source.stream layout key).run storage with
    ⟨⟨answer, cache'⟩, world⟩
  simp only [hget] at hrun houtcome hloaded hworld
  simp only [Cache.Lending.get, hget] at hnew
  obtain ⟨rfl, rfl⟩ := Prod.mk.inj hrun
  generalize hnow : cache'.resident? key.address = now at houtcome
  obtain ⟨hfile, hcaches⟩ : world.file = storage.file ∧ world.caches = storage.caches := by
    rcases hworld with rfl | rfl
    · exact ⟨rfl, rfl⟩
    · obtain ⟨hsteady, hcaches⟩ := source.stream_steady layout key storage
      exact ⟨hsteady.file, hcaches⟩
  have hset : (world.setCache id cache').cache? id = some cache' := by
    have hbefore : world.cache? id = some cache := by
      rw [Storage.cache?, hcaches]
      exact hcache
    exact cache?_setCache hbefore cache'
  have hpins : pinsOf (given (answer.map (·.map fun ref => ⟨ref.data, some (id, ref.pin)⟩))) =
      Cache.pins answer := by
    rcases answer with _ | _ | _ <;> rfl
  refine ⟨⟨hfile.trans h.file_eq, ⟨cache', hset, ?_⟩, ?_⟩, ?_, ?_⟩
  · rw [pinsOf, List.filterMap_append]
    rw [pinsOf] at hpins
    rw [hpins]
    exact hnew
  · intro item hitem place hplace
    rcases List.mem_append.mp hitem with hgiven | hheld
    · rcases answer with _ | _ | ref
      · cases hgiven
      · cases hgiven
      · obtain rfl := List.mem_singleton.mp hgiven
        exact congrArg Prod.fst (Option.some.inj hplace).symm
    · exact h.own item hheld place hplace
  · intro address bytes hfound
    rw [Storage.resident?_of_cache? hset] at hfound
    rw [Storage.resident?_of_cache? hcache]
    rcases hloaded address bytes hfound with hold | ⟨hsame, hload⟩
    · exact .inl hold
    · rw [← h.file_eq]
      exact .inr ⟨beq_iff_eq.mp hsame, Source.reading_of_stream (congrArg Prod.fst hload)⟩
  · rw [Storage.resident?_of_cache? hcache, Storage.resident?_of_cache? hset, hnow]
    cases houtcome with
    | hit _ hbefore => exact .hit hbefore
    | full hbefore => exact .full hbefore
    | loaded _ hbefore hload => exact .loaded hbefore (congrArg Prod.fst hload)
    | failed hbefore hload => exact .failed hbefore (congrArg Prod.fst hload)

/-- While there is a handle, what streaming yields is what is in the file. -/
theorem Serving.get (h : Serving id count size file storage items) (hpos : 0 < count)
    (hid : source.cache? = some id) (layout : Layout) (key : Key)
    {result : Except StoreError (Option Item)} {after : Storage}
    (hrun : (source.get layout key).run storage = (result, after)) :
    Serving id count size file after (given result ++ items) ∧
      (∀ address bytes, after.resident? id address = some bytes →
        storage.resident? id address = some bytes ∨
          (key.address = address ∧ source.reading layout file key = .ok bytes)) ∧
      Answers (storage.resident? id key.address) (source.reading layout file key)
        (bytesGiven result) (after.resident? id key.address) := by
  obtain ⟨hlent, hcases, hanswers⟩ := h.toLent.get hpos hid layout key hrun
  obtain ⟨read, hread, -⟩ := source.stream_run layout key h.ready
  have hsteady := source.get_steady layout key storage
  rw [hrun] at hsteady
  rw [hread, h.file_eq] at hanswers
  exact ⟨hlent.serving (hsteady.ready h.ready), hcases, hanswers⟩

/-- **A get comes away empty-handed** exactly if the cache has nothing for the
address and no node to be had for it. -/
theorem Lent.get_eq_none_iff (h : Lent id count size file storage items) (hpos : 0 < count)
    (hid : source.cache? = some id) (layout : Layout) (key : Key) :
    ((source.get layout key).run storage).1 = .ok none ↔
      storage.resident? id key.address = none ∧ storage.Full id key.address := by
  obtain ⟨cache, hcache, hsound⟩ := h.lent
  rw [Source.get_run hid hcache, Storage.resident?_of_cache? hcache, Storage.Full, hcache]
  simp only [Option.some.injEq, exists_eq_left']
  rw [← Cache.get_eq_none_iff hsound hpos key.address (source.stream layout key).run storage]
  generalize (cache.get key.address (source.stream layout key).run storage).1.1 = answer
  rcases answer with _ | _ | _ <;> simp [Except.map]

/-- While no reference is out, there is a node for every address. -/
theorem Lent.not_full (h : Lent id count size file storage items) (hpos : 0 < count)
    (hsize : 0 < size) (hout : pinsOf items = []) (address : UInt32) :
    ¬ storage.Full id address := by
  obtain ⟨cache, hcache, hsound⟩ := h.lent
  rintro ⟨cache', hcache', hfull⟩
  obtain rfl := Option.some.inj (hcache.symm.trans hcache')
  exact hsound.not_full hpos hsize hout address hfull

/-- While no reference is out, no get comes away empty-handed. -/
theorem Serving.get_ne_none (h : Serving id count size file storage items) (hpos : 0 < count)
    (hsize : 0 < size) (hid : source.cache? = some id) (hout : pinsOf items = [])
    (layout : Layout) (key : Key) : ((source.get layout key).run storage).1 ≠ .ok none := by
  intro hnone
  exact h.toLent.not_full hpos hsize hout key.address
    ((h.toLent.get_eq_none_iff hpos hid layout key).mp hnone).2

/-! ## Runs -/

variable {c : Collection} {header : Header} {start : Storage} {keys : List Key}

/-- What the first tier does not serve comes from a source. -/
theorem Collection.get_course (c : Collection) (key : Key) :
    (∃ result : Except StoreError Bytes,
        ∀ storage, (c.get key).run storage = (result.map (some ⟨·, none⟩), storage)) ∨
      ∃ source, c.source? = some source ∧ c.get key = source.get c.layout key := by
  by_cases hholds : c.holds key
  · exact .inl (get_at_hand hholds)
  · right
    obtain ⟨layout, tiers⟩ := c
    cases tiers with
    | memory resident => exact absurd rfl hholds
    | both resident source => exact ⟨source, rfl, if_neg hholds⟩
    | file source => exact ⟨source, rfl, rfl⟩

theorem Collection.get_steady (c : Collection) (key : Key) (storage : Storage) :
    storage.Steady ((c.get key).run storage).2 := by
  rcases c.get_course key with ⟨result, hrun⟩ | ⟨source, -, hget⟩
  · rw [hrun storage]
    exact .refl storage
  · rw [hget]
    exact source.get_steady c.layout key storage

theorem release_steady (storage : Storage) (item : Item) :
    storage.Steady (storage.release item) := by
  unfold Storage.release
  split
  · split
    · exact ⟨rfl, rfl, id⟩
    · exact .refl storage
  · exact .refl storage

/-- **The file stays**, and if there was a handle to be had there always is. -/
theorem Visited.steady (h : Visited c start keys storage items) : start.Steady storage := by
  induction h with
  | start => exact .refl start
  | @get keys storage items _ key ih => exact ih.trans (c.get_steady key storage)
  | @release keys storage items _ item _ ih => exact ih.trans (release_steady storage item)

/-- A collection in use through its cache: storage is in order, and the cache
has nothing but what was read for some key of the address that was asked for. -/
structure InUse (file : DataFile) (header : Header) (source : Source) (id count size : Nat)
    (storage : Storage) (keys : List Key) (items : List Item) : Prop where
  lent : Lent id count size file storage items
  read : ∀ address bytes, storage.resident? id address = some bytes →
    ∃ key ∈ keys, key.address = address ∧
      source.reading (Layout.ofHeader header) file key = .ok bytes

theorem Lent.inUse (h : Lent id count size file storage items)
    (hempty : ∀ address, storage.resident? id address = none) :
    InUse file header source id count size storage keys items := by
  refine ⟨h, ?_⟩
  intro address bytes hfound
  rw [hempty] at hfound
  cases hfound

/-- **A get** brings into the cache nothing but what was read for its key. -/
theorem InUse.get (h : InUse file header source id count size storage keys items)
    (hopened : Opened file header source c) (hid : source.cache? = some id) (hpos : 0 < count)
    (key : Key) : InUse file header source id count size ((c.get key).run storage).2 (key :: keys)
      (given ((c.get key).run storage).1 ++ items) := by
  by_cases hholds : c.holds key
  · obtain ⟨result, hrun⟩ := get_at_hand hholds
    rw [hrun storage]
    refine ⟨?_, ?_⟩
    · cases result with
      | error e => exact h.lent
      | ok bytes => exact h.lent.cons_at_hand bytes
    · intro address bytes hfound
      obtain ⟨asked, hmem, hrest⟩ := h.read address bytes hfound
      exact ⟨asked, List.mem_cons_of_mem _ hmem, hrest⟩
  · rw [hopened.get_of_not_holds (eq_false_of_ne_true hholds)]
    obtain ⟨hlent, hcases, -⟩ := h.lent.get hpos hid (Layout.ofHeader header) key rfl
    refine ⟨hlent, ?_⟩
    intro address bytes hfound
    rcases hcases address bytes hfound with hold | hread
    · obtain ⟨asked, hmem, hrest⟩ := h.read address bytes hold
      exact ⟨asked, List.mem_cons_of_mem _ hmem, hrest⟩
    · exact ⟨key, List.mem_cons_self .., hread⟩

theorem InUse.release (h : InUse file header source id count size storage keys items) {item : Item}
    (hitem : item ∈ items) :
    InUse file header source id count size (storage.release item) keys (items.erase item) := by
  obtain ⟨hlent, hsame⟩ := h.lent.release hitem
  refine ⟨hlent, ?_⟩
  intro address bytes hfound
  rw [hsame] at hfound
  exact h.read address bytes hfound

/-- **A cache holds what was read for some key of the address** that was asked
for, and storage stays in order. -/
theorem Visited.inUse (h : Visited c start keys storage items)
    (hopened : Opened file header source c) (hid : source.cache? = some id) (hpos : 0 < count)
    (hstart : InUse file header source id count size start [] []) :
    InUse file header source id count size storage keys items := by
  induction h with
  | start => exact hstart
  | get _ key ih => exact ih.get hopened hid hpos key
  | release _ hitem ih => exact ih.release hitem

/-- A collection that was just opened with a cache: storage is in order, and
there is nothing in the cache yet. -/
structure Fresh (file : DataFile) (header : Header) (source : Source) (id count size : Nat)
    (c : Collection) (start : Storage) : Prop where
  opened : Opened file header source c
  cache : source.cache? = some id
  count_pos : 0 < count
  size_pos : 0 < size
  serving : Serving id count size file start []
  empty : ∀ address, start.resident? id address = none

/-- While there is a handle, a collection that was fresh stays in use. -/
theorem Visited.serving (h : Visited c start keys storage items)
    (hfresh : Fresh file header source id count size c start) :
    Serving id count size file storage items ∧
      ∀ address bytes, storage.resident? id address = some bytes →
        ∃ key ∈ keys, key.address = address ∧
          source.reading (Layout.ofHeader header) file key = .ok bytes := by
  have huse := h.inUse hfresh.opened hfresh.cache hfresh.count_pos
    (hfresh.serving.toLent.inUse hfresh.empty)
  exact ⟨huse.lent.serving (h.steady.ready hfresh.serving.ready), huse.read⟩

/-- The cache of a source that was just opened is in order and empty. -/
theorem lent_openSource {config : CollectionConfig} {first : UInt64}
    (hnew : Collection.openSource config first storage = .ok (source, start))
    (hid : source.cache? = some id) : ∃ count size, 0 < count ∧ 0 < size ∧
      Lent id count size storage.file start [] ∧
        (∀ address, start.resident? id address = none) ∧ storage.Steady start := by
  rcases openSource_eq_ok hnew with ⟨-, rfl, -⟩ | ⟨-, cache, hcreate, rfl, rfl⟩
  · cases hid
  · obtain rfl := Option.some.inj hid
    obtain ⟨hsound, -, hpos, hsize⟩ := Cache.sound_create hcreate
    have hcache : Storage.cache? { storage with caches := storage.caches.push cache }
        storage.caches.size = some cache := Array.getElem?_push_size
    refine ⟨config.concurrency.toNat, config.capacity.toNat / config.concurrency.toNat, hpos,
      hsize, ⟨rfl, ⟨cache, hcache, hsound⟩, ?_⟩, ?_, ⟨rfl, rfl, fun hready => hready⟩⟩
    · intro item hitem
      cases hitem
    · intro address
      rw [Storage.resident?_of_cache? hcache]
      exact Cache.resident?_create hcreate address

/-- A collection that is opened with a cache is fresh. -/
theorem fresh_ofFile {config : CollectionConfig} {position : Nat}
    (hopen : Collection.ofFile config header storage = .ok ((c, position), start))
    (hsource : c.source? = some source) (hid : source.cache? = some id)
    (hready : storage.Ready) : source.start = header.start ∧ finish header = .ok position ∧
      ∃ count size, Fresh storage.file header source id count size c start := by
  obtain ⟨source', hstart, hopened, hfinish, ⟨hnone, -⟩ | ⟨hsome, hnew⟩⟩ := ofFile_eq_ok hopen
  · rw [hsource] at hnone
    cases hnone
  · obtain rfl : source' = source := Option.some.inj (hsome.symm.trans hsource)
    obtain ⟨count, size, hpos, hsize, hlent, hempty, hsteady⟩ := lent_openSource hnew hid
    exact ⟨hstart, hfinish, count, size, hopened, hid, hpos, hsize,
      hlent.serving (hsteady.ready hready), hempty⟩

end

end RecordStore
