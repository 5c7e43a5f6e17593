import Mathlib
import RecordStore.Proofs.Collection.Asking
import RecordStore.Proofs.Collection.Offering
import RecordStore.Proofs.Index.Leaving
import RecordStore.Proofs.Value.Comparing

/-!
# Values are found by their names

To look for a name is to search the values of a range, and to fetch the name of
each value that the search comes to from the collection of strings.  A record
can be refused on either side, by a cache whose nodes are all held; `Fetches`
says what becomes of fetching one name.

If the names that can be fetched are in order, then looking for a name finds a
value that has it if there is one, unless a record that it asks for is refused;
and then it reports the settings of the cache that refused it
(`indexByName_decides`).

Names can always be fetched of collections whose bytes hold them, as long as
there is a handle to be had and nothing else is in the caches for the addresses
of the records (`legible_of_offers`).
-/

namespace RecordStore

/-! ## Operations one after another -/

section

variable {α β : Type} {x : Access α} {f : α → Access β} {a : α} {e : StoreError}
  {storage between after : Storage}

theorem run_bind_of_ok (h : x.run storage = (.ok a, between)) :
    (x >>= f).run storage = (f a).run between := by
  rw [ExceptT.run_bind]
  show StateT.bind x.run _ storage = _
  unfold StateT.bind
  rw [h]
  rfl

theorem run_bind_of_error (h : x.run storage = (.error e, after)) :
    (x >>= f).run storage = (.error e, after) := by
  rw [ExceptT.run_bind]
  show StateT.bind x.run _ storage = _
  unfold StateT.bind
  rw [h]
  rfl

theorem run_liftM (result : Except StoreError α) (storage : Storage) :
    (liftM result : Access α).run storage = (result, storage) := by
  cases result <;> rfl

end

/-! ## The settings of caches -/

/-- The capacity and the concurrency of a cache. -/
def Cache.settings (cache : Cache UInt32) : UInt32 × UInt16 :=
  (cache.capacity, cache.concurrency)

/-- The settings of the cache with a number. -/
def Storage.settings? (storage : Storage) (id : Nat) : Option (UInt32 × UInt16) :=
  (storage.cache? id).map Cache.settings

/-- The error of a collection that cannot have more of its records held, with
the settings of its own cache. -/
def Collection.Refusal (c : Collection) (storage : Storage) (e : StoreError) : Prop :=
  ∃ id settings, c.cacheId? = some id ∧ storage.settings? id = some settings ∧
    e = .tooManyOperations settings.1.toNat settings.2.toNat

section

variable {storage after : Storage} {c : Collection} {key : Key} {id : Nat}

theorem Cache.settings_get {σ : Type} (cache : Cache UInt32) (key : UInt32)
    (load : σ → Except StoreError Bytes × σ) (world : σ) :
    (cache.get key load world).1.2.settings = cache.settings := by
  unfold Cache.get
  dsimp only
  rcases (cache.shard (cache.shardOf key)).get key load world with
    ⟨⟨_ | _ | _, hit, shard⟩, world⟩ <;> rfl

theorem settings?_setCache {cache cache' : Cache UInt32} (hcache : storage.cache? id = some cache)
    (hsame : cache'.settings = cache.settings) :
    (storage.setCache id cache').settings? = storage.settings? := by
  funext other
  unfold Storage.settings?
  by_cases hother : other = id
  · rw [hother, cache?_setCache hcache, hcache, Option.map_some, Option.map_some, hsame]
  · rw [cache?_setCache_of_ne hother]

theorem settings?_of_caches (h : after.caches = storage.caches) :
    after.settings? = storage.settings? := by
  unfold Storage.settings? Storage.cache?
  rw [h]

theorem settings?_release (storage : Storage) (item : Item) :
    (storage.release item).settings? = storage.settings? := by
  unfold Storage.release
  split
  · split
    · rename_i cache hcache
      exact settings?_setCache hcache rfl
    · rfl
  · rfl

/-- **A get** leaves the settings of every cache as they are. -/
theorem settings?_get (c : Collection) (key : Key) (storage : Storage) :
    ((c.get key).run storage).2.settings? = storage.settings? := by
  rcases c.get_course key with ⟨result, hrun⟩ | ⟨source, -, hget⟩
  · rw [hrun storage]
  obtain ⟨-, hcaches⟩ := source.stream_steady c.layout key storage
  rw [hget]
  cases hfound : source.cache?.bind fun id => (storage.cache? id).map (id, ·) with
  | none =>
      rw [Source.get_run_of_no_cache hfound]
      exact settings?_of_caches hcaches
  | some found =>
      obtain ⟨id, hid, hthere⟩ := Option.bind_eq_some_iff.mp hfound
      obtain ⟨cache, hcache, -⟩ := Option.map_eq_some_iff.mp hthere
      have hsettings := cache.settings_get key.address (source.stream c.layout key).run storage
      rw [Source.get_run hid hcache]
      rcases Cache.get_world cache key.address (source.stream c.layout key).run storage with
        hsame | hread
      · rw [hsame]
        exact settings?_setCache hcache hsettings
      · rw [hread, ← settings?_of_caches hcaches]
        refine settings?_setCache ?_ hsettings
        rw [Storage.cache?, hcaches]
        exact hcache

/-- A get that comes away empty-handed was refused by the cache of the
collection. -/
theorem Collection.refusal_of_get (hget : ((c.get key).run storage).1 = .ok none)
    (hafter : after.settings? = storage.settings?) : c.Refusal storage (c.exhausted after) := by
  rcases c.get_course key with ⟨result, hrun⟩ | ⟨source, hsource, hsame⟩
  · rw [hrun] at hget
    cases result <;> cases hget
  rw [hsame] at hget
  cases hfound : source.cache?.bind fun id => (storage.cache? id).map (id, ·) with
  | none =>
      rw [Source.get_run_of_no_cache hfound] at hget
      generalize ((source.stream c.layout key).run storage).1 = read at hget
      cases read <;> cases hget
  | some found =>
      obtain ⟨id, hid, hthere⟩ := Option.bind_eq_some_iff.mp hfound
      obtain ⟨cache, hcache, -⟩ := Option.map_eq_some_iff.mp hthere
      have hbefore : storage.settings? id = some cache.settings := by
        rw [Storage.settings?, hcache, Option.map_some]
      rw [← hafter] at hbefore
      obtain ⟨cache', hcache', hsettings⟩ := Option.map_eq_some_iff.mp hbefore
      refine ⟨id, cache'.settings, (Collection.cacheId?_of_source? hsource).trans hid, ?_, ?_⟩
      · rw [Storage.settings?, hcache, Option.map_some, hsettings]
      · have hstats : c.cacheStats? after = some cache'.stats := by
          unfold Collection.cacheStats?
          simp [hsource, hid, hcache']
        unfold Collection.exhausted
        rw [hstats]
        rfl

theorem Collection.Refusal.congr {e : StoreError} (h : c.Refusal after e)
    (hsame : after.settings? = storage.settings?) : c.Refusal storage e := by
  obtain ⟨id, settings, hid, hsettings, rfl⟩ := h
  exact ⟨id, settings, hid, hsame ▸ hsettings, rfl⟩

end

/-! ## Fetching names -/

/-- Where the name of a value is. -/
def ValueRecord.nameKey (value : ValueRecord) : Key :=
  ⟨UInt32.ofNat value.nameOffset.toInt.toNat, Sizing.string⟩

section

variable {values strings : Collection} {target : Bytes}

/-- What becomes of fetching the name of the value with an index in a state: the
value is fetched and held, then its name is fetched.  Either the name is had, or
one of the collections refuses, for its cache is full. -/
inductive Fetches (values strings : Collection) (index : UInt32) (state : Storage) :
    Except Collection Bytes → Prop
  | valueRefused (hvalue : ((values.get ⟨index, ValueRecord.sizing⟩).run state).1 = .ok none) :
      Fetches values strings index state (.error values)
  | nameRefused {item : Item} {value : ValueRecord} {held : Storage}
      (hvalue : (values.get ⟨index, ValueRecord.sizing⟩).run state = (.ok (some item), held))
      (hdecode : ValueRecord.decode item.bytes = .ok value) (hoffset : 0 ≤ value.nameOffset.toInt)
      (hname : ((strings.get value.nameKey).run held).1 = .ok none) :
      Fetches values strings index state (.error strings)
  | name {item text : Item} {value : ValueRecord} {held : Storage} {name : Bytes}
      (hvalue : (values.get ⟨index, ValueRecord.sizing⟩).run state = (.ok (some item), held))
      (hdecode : ValueRecord.decode item.bytes = .ok value) (hoffset : 0 ≤ value.nameOffset.toInt)
      (hname : ((strings.get value.nameKey).run held).1 = .ok (some text))
      (hterminated : StoredValue.terminated text.bytes = .ok name) :
      Fetches values strings index state (.ok name)

/-- The bisection that looks for a name. -/
def seeking (values strings : Collection) (target : Bytes) : Bisection (Unit × Storage) Item :=
  values.bisection ValueRecord.sizing (comparison strings target)

/-- Wherever fetching values of a range and their names leads, the name of each
of them can be fetched, or is refused. -/
def Legible (values strings : Collection) (first last : UInt32) (target : Bytes) (start : Storage)
    (names : UInt32 → Bytes) : Prop :=
  ∀ state index, (seeking values strings target).Probed first last ((), start) ((), state) →
    first ≤ index → index ≤ last →
      Fetches values strings index state (.ok (names index)) ∨
        ∃ c, Fetches values strings index state (.error c)

/-- Looking for a name comes to fetch the name of the value with an index, in a
state. -/
def SeekingAsks (values strings : Collection) (first last : UInt32) (target : Bytes)
    (start : Storage) (index : UInt32) (state : Storage) : Prop :=
  (seeking values strings target).Asks first last ((), start) index ((), state)

/-- What looking for a name should come to: a value of the range that has it, or
none if no value of the range does. -/
inductive Locates (names : UInt32 → Bytes) (first last : UInt32) (target : Bytes) :
    Except StoreError (Option UInt32) → Prop
  | found {index : UInt32} (hfirst : first ≤ index) (hlast : index ≤ last)
      (hname : names index = target) : Locates names first last target (.ok (some index))
  | absent (hne : ∀ index, first ≤ index → index ≤ last → names index ≠ target) :
      Locates names first last target (.ok none)

theorem run_compareName (strings : Collection) (target : Bytes) (storage : Storage)
    {record : Bytes} {value : ValueRecord} (hdecode : ValueRecord.decode record = .ok value)
    (hoffset : 0 ≤ value.nameOffset.toInt) :
    (ValueRecord.compareName strings target record).run storage =
      (do
        let text ← strings.bytesOf value.nameKey
        let name ← (StoredValue.terminated text : Access Bytes)
        return Bytes.order name target : Access Ordering).run storage := by
  unfold ValueRecord.compareName ValueRecord.name
  rw [run_bind_of_ok ((run_liftM _ _).trans (by rw [hdecode]))]
  simp only [if_neg (Int.not_lt.mpr hoffset), bind_assoc]
  rfl

theorem seeking_fetch (index : UInt32) (world : Unit × Storage) :
    (seeking values strings target).fetch index world =
      (((values.get ⟨index, ValueRecord.sizing⟩).run world.2).1,
        (world.1, ((values.get ⟨index, ValueRecord.sizing⟩).run world.2).2)) :=
  rfl

theorem seeking_compare (index : UInt32) (item : Item) (world : Unit × Storage) :
    (seeking values strings target).compare index item world =
      (((ValueRecord.compareName strings target item.bytes).run world.2).1,
        (world.1, ((ValueRecord.compareName strings target item.bytes).run world.2).2)) :=
  rfl

/-- A name that is refused cannot be compared. -/
theorem compare_of_refused {index : UInt32} {item : Item} {value : ValueRecord} {held : Storage}
    (hdecode : ValueRecord.decode item.bytes = .ok value) (hoffset : 0 ≤ value.nameOffset.toInt)
    (hname : ((strings.get value.nameKey).run held).1 = .ok none) :
    (seeking values strings target).compare index item ((), held) =
      (.error (strings.exhausted ((strings.get value.nameKey).run held).2),
        ((), ((strings.get value.nameKey).run held).2)) := by
  have hbytes := run_bytesOf strings value.nameKey held
  rw [hname] at hbytes
  have hrun := run_compareName strings target held hdecode hoffset
  rw [run_bind_of_error hbytes] at hrun
  rw [seeking_compare, hrun]

/-- A name that is had is compared. -/
theorem compare_of_name {index : UInt32} {item text : Item} {value : ValueRecord} {held : Storage}
    {name : Bytes} (hdecode : ValueRecord.decode item.bytes = .ok value)
    (hoffset : 0 ≤ value.nameOffset.toInt)
    (hname : ((strings.get value.nameKey).run held).1 = .ok (some text))
    (hterminated : StoredValue.terminated text.bytes = .ok name) :
    (seeking values strings target).compare index item ((), held) =
      (.ok (Bytes.order name target),
        ((), ((strings.get value.nameKey).run held).2.release text)) := by
  have hbytes := run_bytesOf strings value.nameKey held
  rw [hname] at hbytes
  have hrun := run_compareName strings target held hdecode hoffset
  rw [run_bind_of_ok hbytes,
    run_bind_of_ok ((run_liftM _ _).trans (by rw [hterminated]))] at hrun
  rw [seeking_compare, hrun]
  rfl

/-- What is compared was fetched. -/
theorem compareName_eq_ok {record : Bytes} {storage after : Storage} {order : Ordering}
    (h : (ValueRecord.compareName strings target record).run storage = (.ok order, after)) :
    ∃ value text, ValueRecord.decode record = .ok value ∧ 0 ≤ value.nameOffset.toInt ∧
      ((strings.get value.nameKey).run storage).1 = .ok (some text) ∧
      after = ((strings.get value.nameKey).run storage).2.release text := by
  obtain ⟨value, _, hlift, hrest⟩ := run_bind_eq_ok_iff.mp h
  obtain ⟨hdecode, rfl⟩ := run_liftM_eq_ok_iff.mp hlift
  obtain ⟨name, _, hname, hrest⟩ := run_bind_eq_ok_iff.mp hrest
  obtain ⟨-, rfl⟩ := run_pure_eq_ok_iff.mp hrest
  have hoffset : 0 ≤ value.nameOffset.toInt := by
    by_contra hnegative
    unfold ValueRecord.name at hname
    rw [if_pos (Int.not_le.mp hnegative)] at hname
    obtain ⟨_, _, hthrow, -⟩ := run_bind_eq_ok_iff.mp hname
    cases congrArg Prod.fst hthrow
  obtain ⟨bytes, _, hbytes, hterminated⟩ := run_bind_eq_ok_iff.mp (run_of_guard hname)
  obtain ⟨-, rfl⟩ := run_liftM_eq_ok_iff.mp hterminated
  rw [run_bytesOf] at hbytes
  refine ⟨value, ?_⟩
  have hkey : value.nameKey = ⟨UInt32.ofNat value.nameOffset.toInt.toNat, Sizing.string⟩ := rfl
  rw [hkey]
  generalize (strings.get ⟨UInt32.ofNat value.nameOffset.toInt.toNat, Sizing.string⟩).run storage
    = got at hbytes
  obtain ⟨_ | _ | text, held⟩ := got
  · cases congrArg Prod.fst hbytes
  · cases congrArg Prod.fst hbytes
  · obtain ⟨-, rfl⟩ := Prod.mk.inj hbytes
    exact ⟨text, hdecode, hoffset, rfl, rfl⟩

/-- What probing leads to, one probe at a time: a value is fetched, its name is
fetched and released, and then the value is. -/
theorem probed_induction {first last : UInt32} {start : Storage} {P : Storage → Prop}
    (hstart : P start)
    (hprobe : ∀ {state held index item value text}, P state → first ≤ index → index ≤ last →
      (values.get ⟨index, ValueRecord.sizing⟩).run state = (.ok (some item), held) →
        ValueRecord.decode item.bytes = .ok value → 0 ≤ value.nameOffset.toInt →
          ((strings.get value.nameKey).run held).1 = .ok (some text) →
            P ((((strings.get value.nameKey).run held).2.release text).release item))
    {world : Unit × Storage}
    (h : (seeking values strings target).Probed first last ((), start) world) : P world.2 := by
  induction h with
  | start => exact hstart
  | @probe world fetched compared index record order h hfirst hlast hfetch hcompare ih =>
      rw [seeking_fetch] at hfetch
      obtain ⟨hvalue, rfl⟩ := Prod.mk.inj hfetch
      rw [seeking_compare] at hcompare
      obtain ⟨horder, rfl⟩ := Prod.mk.inj hcompare
      obtain ⟨value, text, hdecode, hoffset, hname, hafter⟩ :=
        compareName_eq_ok (Prod.ext horder rfl)
      have hnext := hprobe ih hfirst hlast (Prod.ext hvalue rfl) hdecode hoffset hname
      rw [← hafter] at hnext
      exact hnext

theorem settings?_of_probed {first last : UInt32} {start : Storage} {world : Unit × Storage}
    (h : (seeking values strings target).Probed first last ((), start) world) :
    world.2.settings? = start.settings? := by
  refine probed_induction (P := fun state => state.settings? = start.settings?) rfl ?_ h
  intro state held index item value text hstate _ _ hvalue _ _ _
  have hheld := settings?_get values ⟨index, ValueRecord.sizing⟩ state
  rw [hvalue] at hheld
  rw [settings?_release, settings?_release, settings?_get, hheld, hstate]

/-- A search that is exhausted, or fails, makes looking for a name fail. -/
theorem run_indexByName_of_search {first last : UInt32} {name : String} {start after : Storage}
    {result : Except StoreError (SearchOutcome Item)}
    (hsearch : (seeking values strings (Utf8.encode name)).search first last ((), start) =
      (result, ((), after))) :
    (ValueRecord.indexByName values strings first last name).run start =
      named values (result, ()) after := by
  have hrun := run_indexByName values strings first last name start
  have hbinary : values.binarySearch first last ValueRecord.sizing
      (comparison strings (Utf8.encode name)) ((), start) = (result, ((), after)) := hsearch
  rw [hrun]
  simp only [restate, hbinary]

/-- **A refusal is reported**, with the settings of the cache that refused. -/
theorem indexByName_of_refused {first last index : UInt32} {name : String} {start state : Storage}
    {c : Collection}
    (hasks : SeekingAsks values strings first last (Utf8.encode name) start index state)
    (hfetches : Fetches values strings index state (.error c)) :
    ∃ e, c.Refusal start e ∧
      ((ValueRecord.indexByName values strings first last name).run start).1 = .error e := by
  obtain ⟨hprobed, -, -⟩ := hasks.probed .start (UInt32.le_refl first) (UInt32.le_refl last)
  have hsettings : state.settings? = start.settings? := settings?_of_probed hprobed
  cases hfetches with
  | valueRefused hvalue =>
      have hsearch := Bisection.search_of_refused hasks
        ((seeking_fetch index ((), state)).trans (by rw [hvalue]))
      have hafter := settings?_get values ⟨index, ValueRecord.sizing⟩ state
      refine ⟨_, (values.refusal_of_get hvalue hafter).congr hsettings, ?_⟩
      rw [run_indexByName_of_search hsearch]
      rfl
  | @nameRefused item value held hvalue hdecode hoffset hname =>
      have hsearch := Bisection.search_of_uncompared hasks
        ((seeking_fetch index ((), state)).trans (by rw [hvalue]))
        (compare_of_refused hdecode hoffset hname)
      have hheld := settings?_get values ⟨index, ValueRecord.sizing⟩ state
      rw [hvalue] at hheld
      have hafter := settings?_get strings value.nameKey held
      refine ⟨_, (strings.refusal_of_get hname hafter).congr (hheld.trans hsettings), ?_⟩
      rw [run_indexByName_of_search hsearch]
      rfl

end

/-! ## Names on offer -/

/-- Each value of a range has its name on offer: one collection offers the record
of the value, and the other the text at the offset that the record has. -/
def OffersNames (v s : Opening) (storage : Storage) (first last : UInt32)
    (names : UInt32 → Bytes) : Prop :=
  ∀ index, first ≤ index → index ≤ last → ∃ record value text,
    v.Offers storage ⟨index, ValueRecord.sizing⟩ record ∧
      ValueRecord.decode record = .ok value ∧ 0 ≤ value.nameOffset.toInt ∧
      s.Offers storage value.nameKey text ∧ StoredValue.terminated text = .ok (names index)

section

variable {file : DataFile} {opened : List Opening} {storage : Storage} {items : List Item}
  {v s : Opening} {first last : UInt32} {names : UInt32 → Bytes}

theorem OffersNames.release (h : OffersNames v s storage first last names) (item : Item) :
    OffersNames v s (storage.release item) first last names := by
  intro index hfirst hlast
  obtain ⟨record, value, text, hrecord, hdecode, hoffset, htext, hname⟩ := h index hfirst hlast
  exact ⟨record, value, text, hrecord.release item, hdecode, hoffset, htext.release item, hname⟩

/-- Fetching a value withdraws no name. -/
theorem OffersNames.get_value (h : OffersNames v s storage first last names)
    (hsession : Session file opened storage items) (hv : v ∈ opened) (hapart : v.Apart s)
    (index : UInt32) :
    OffersNames v s ((v.collection.get ⟨index, ValueRecord.sizing⟩).run storage).2 first last
      names := by
  intro index' hfirst hlast
  obtain ⟨record, value, text, hrecord, hdecode, hoffset, htext, hname⟩ := h index' hfirst hlast
  refine ⟨record, value, text, hsession.offers_get hv hrecord ?_, hdecode, hoffset,
    htext.get_other hapart _, hname⟩
  intro haddress
  exact congrArg (fun address => (⟨address, ValueRecord.sizing⟩ : Key)) haddress

/-- Nor does fetching a name. -/
theorem OffersNames.get_name (h : OffersNames v s storage first last names)
    (hsession : Session file opened storage items) (hs : s ∈ opened) (hapart : v.Apart s)
    (value : ValueRecord) :
    OffersNames v s ((s.collection.get value.nameKey).run storage).2 first last names := by
  intro index hfirst hlast
  obtain ⟨record, other, text, hrecord, hdecode, hoffset, htext, hname⟩ := h index hfirst hlast
  refine ⟨record, other, text, hrecord.get_other ?_ _, hdecode, hoffset,
    hsession.offers_get hs htext ?_, hname⟩
  · intro id hid hsame
    exact hapart id hsame hid
  · intro haddress
    exact congrArg (fun address => (⟨address, Sizing.string⟩ : Key)) haddress

/-- **Names on offer can be fetched**, now and wherever fetching them leads. -/
theorem legible_of_offers (hsession : Session file opened storage items) (hready : storage.Ready)
    (hv : v ∈ opened) (hs : s ∈ opened) (hapart : v.Apart s) (hvfits : v.header.Fits)
    (hsfits : s.header.Fits) (hvlimit : v.data.length < Handle.positionLimit)
    (hslimit : s.data.length < Handle.positionLimit)
    (hoffers : OffersNames v s storage first last names) (target : Bytes) :
    Legible v.collection s.collection first last target storage names := by
  intro state index hprobed hfirst hlast
  have hstate : ∃ items, Session file opened state items ∧ state.Ready ∧
      OffersNames v s state first last names := by
    refine probed_induction (P := fun state => ∃ items, Session file opened state items ∧
      state.Ready ∧ OffersNames v s state first last names) ⟨items, hsession, hready, hoffers⟩
      ?_ hprobed
    rintro state held index item value text ⟨items, hsession, hready, hoffers⟩ - - hvalue - - hname
    have hheld := hsession.get hv ⟨index, ValueRecord.sizing⟩
    have hsteady := v.collection.get_steady ⟨index, ValueRecord.sizing⟩ state
    have hstill := hoffers.get_value hsession hv hapart index
    rw [hvalue] at hheld hsteady hstill
    have hboth := hheld.get hs value.nameKey
    have hready' := (s.collection.get_steady value.nameKey held).ready (hsteady.ready hready)
    rw [hname] at hboth
    refine ⟨items, ?_, ?_, ?_⟩
    · have hone : Session file opened (((s.collection.get value.nameKey).run held).2.release text)
          (item :: items) := by
        simpa [given] using hboth.release
          (List.mem_append_left _ (List.mem_singleton_self text))
      simpa using hone.release List.mem_cons_self
    · exact (release_steady _ _).ready ((release_steady _ _).ready hready')
    · exact ((hstill.get_name hheld hs hapart value).release text).release item
  obtain ⟨items, hsession, hready, hoffers⟩ := hstate
  obtain ⟨record, value, text, hrecord, hdecode, hoffset, htext, hterminated⟩ :=
    hoffers index hfirst hlast
  rcases hsession.get_of_offers hready hv hvfits hvlimit hrecord with hnone | ⟨item, hitem, rfl⟩
  · exact .inr ⟨v.collection, .valueRefused hnone⟩
  rcases hget : (v.collection.get ⟨index, ValueRecord.sizing⟩).run state with ⟨result, held⟩
  have hheld := hsession.get hv ⟨index, ValueRecord.sizing⟩
  have hsteady := v.collection.get_steady ⟨index, ValueRecord.sizing⟩ state
  have htext := htext.get_other hapart ⟨index, ValueRecord.sizing⟩
  rw [hget] at hitem hheld hsteady htext
  obtain rfl : result = .ok (some item) := hitem
  rcases hheld.get_of_offers (hsteady.ready hready) hs hsfits hslimit htext with
    hnone | ⟨name, hname, rfl⟩
  · exact .inr ⟨s.collection, .nameRefused hget hdecode hoffset hnone⟩
  · exact .inl (.name hget hdecode hoffset hname hterminated)

/-- The file with two collections holds the names of a range of values, in the
order of their indices. -/
def HoldsNames (contents : Bytes) (values strings : Header) (first last : UInt32)
    (names : UInt32 → Bytes) : Prop :=
  ∀ index, first ≤ index → index ≤ last → ∃ record value text,
    Source.reading ⟨values.start, none⟩ (Layout.ofHeader values) ⟨contents, true⟩
        ⟨index, ValueRecord.sizing⟩ = .ok record ∧
      ValueRecord.decode record = .ok value ∧ 0 ≤ value.nameOffset.toInt ∧
      Source.reading ⟨strings.start, none⟩ (Layout.ofHeader strings) ⟨contents, true⟩
        value.nameKey = .ok text ∧
      StoredValue.terminated text = .ok (names index)

/-- **Names that a file holds can be fetched** of collections that are opened in
it, however they are configured. -/
theorem legible_ofFile {between after : Storage} {config config' : CollectionConfig}
    {values strings : Collection} {header header' : Header} {position position' : Nat}
    (hready : storage.Ready) (hlimit : storage.file.contents.length < Handle.positionLimit)
    (hfits : header.Fits) (hfits' : header'.Fits)
    (hvalues : Collection.ofFile config header storage = .ok ((values, position), between))
    (hstrings : Collection.ofFile config' header' between = .ok ((strings, position'), after))
    (hnames : HoldsNames storage.file.contents header header' first last names)
    (target : Bytes) : Legible values strings first last target after names := by
  obtain ⟨hfile, hpool⟩ := ofFile_keeps hvalues
  obtain ⟨hfile', hpool'⟩ := ofFile_keeps hstrings
  have hone : Session storage.file [⟨storage.file.contents, header, values⟩] between [] :=
    .ofFile (.start rfl) hvalues
  have hboth := hone.ofFile hstrings
  have hready' : after.Ready := by
    rw [Storage.Ready, hpool', hpool, hfile', hfile]
    exact hready
  have hapart := (List.pairwise_cons.mp hboth.shared.apart).1 _ List.mem_cons_self
  refine legible_of_offers hboth hready' (List.mem_cons_of_mem _ List.mem_cons_self)
    List.mem_cons_self (fun id hid hsame => hapart id hsame hid) hfits hfits' hlimit hlimit ?_
    target
  intro index hfirst hlast
  obtain ⟨record, value, text, hrecord, hdecode, hoffset, htext, hname⟩ :=
    hnames index hfirst hlast
  refine ⟨record, value, text, ?_, hdecode, hoffset, ?_, hname⟩
  · exact hone.offers_ofFile List.mem_cons_self (offers_ofFile hvalues hrecord) hstrings
  · have hoffers := offers_ofFile hstrings (hfile ▸ htext)
    rw [hfile] at hoffers
    exact hoffers

end

/-! ## Looking for a name -/

section

variable {values strings : Collection}

/-- Names that do not decrease are graded by any name. -/
theorem graded_names {first last : UInt32} {names : UInt32 → Bytes}
    (hordered : ∀ i j, first ≤ i → i ≤ j → j ≤ last → Bytes.order (names i) (names j) ≠ .gt)
    (target : Bytes) :
    Bisection.Graded first last fun index => Bytes.order (names index) target where
  less := by
    intro i j hfirst hle hlast hless
    have hij := hordered i j hfirst hle hlast
    rw [Bytes.order_eq_compare] at hij hless ⊢
    exact Std.TransCmp.lt_of_isLE_of_lt (Ordering.isLE_iff_ne_gt.mpr hij) hless
  greater := by
    intro i j hfirst hle hlast hgreater
    have hij := hordered i j hfirst hle hlast
    rw [Bytes.order_eq_compare] at hij hgreater ⊢
    rw [Std.OrientedCmp.gt_iff_lt] at hgreater ⊢
    exact Std.TransCmp.lt_of_lt_of_isLE hgreater (Ordering.isLE_iff_ne_gt.mpr hij)

/-- **Looking for a name.** -/
theorem indexByName_decides {first last : UInt32} {start : Storage} {name : String}
    {names : UInt32 → Bytes}
    (hlegible : Legible values strings first last (Utf8.encode name) start names)
    (hordered : ∀ i j, first ≤ i → i ≤ j → j ≤ last →
      Bytes.order (names i) (names j) ≠ .gt) :
    ((∀ index state c,
        SeekingAsks values strings first last (Utf8.encode name) start index state →
          ¬ Fetches values strings index state (.error c)) →
      Locates names first last (Utf8.encode name)
        ((ValueRecord.indexByName values strings first last name).run start).1) ∧
    ∀ index state c,
      SeekingAsks values strings first last (Utf8.encode name) start index state →
        Fetches values strings index state (.error c) →
          ∃ e, c.Refusal start e ∧
            ((ValueRecord.indexByName values strings first last name).run start).1 = .error e := by
  refine ⟨?_, fun index state c hasks hfetches => indexByName_of_refused hasks hfetches⟩
  intro hunrefused
  have htold : ∀ {index later},
      (seeking values strings (Utf8.encode name)).Asks first last ((), start) index later →
        (seeking values strings (Utf8.encode name)).Told (fun _ _ => True)
          (fun index => Bytes.order (names index) (Utf8.encode name)) index later := by
    rintro index ⟨⟨⟩, state⟩ hasks
    obtain ⟨hprobed, hfirst, hlast⟩ :=
      hasks.probed .start (UInt32.le_refl first) (UInt32.le_refl last)
    rcases hlegible state index hprobed hfirst hlast with hname | ⟨c, hrefused⟩
    · cases hname with
      | name hvalue hdecode hoffset hname hterminated =>
          exact ⟨_, _, _, (seeking_fetch index ((), state)).trans (by rw [hvalue]),
            compare_of_name hdecode hoffset hname hterminated, trivial⟩
    · exact absurd hrefused (hunrefused index state c hasks)
  have hdecides := Bisection.decides_of_told (graded_names hordered (Utf8.encode name))
    (Bisection.narrowed_self first last _) htold
  rcases hsearch : (seeking values strings (Utf8.encode name)).search first last ((), start) with
    ⟨result, ⟨⟩, after⟩
  rw [hsearch] at hdecides
  rw [run_indexByName_of_search hsearch]
  cases hdecides with
  | found hlower hupper heq _ => exact .found hlower hupper (order_eq_iff.mp heq)
  | absent hne =>
      refine .absent ?_
      intro index hlower hupper hname
      exact hne index hlower hupper (order_eq_iff.mpr hname)

/-! ## Three values -/

/-- Three values, and behind them the texts ant, bee and cat, which are their
names. -/
def threeValues : Bytes :=
  [0, 0, 0, 0, 0, 0] ++ List.replicate 8 0 ++ [0, 0, 6, 0, 0, 0] ++ List.replicate 8 0 ++
    [0, 0, 12, 0, 0, 0] ++ List.replicate 8 0 ++
    [4, 0, 97, 110, 116, 0] ++ [4, 0, 98, 101, 101, 0] ++ [4, 0, 99, 97, 116, 0]

/-- The names of the three values. -/
def threeNames (index : UInt32) : Bytes :=
  [[97, 110, 116], [98, 101, 101], [99, 97, 116]].getD index.toNat []

theorem le_two {index : UInt32} (h : index ≤ 2) : index = 0 ∨ index = 1 ∨ index = 2 := by
  have hle : index.toNat ≤ 2 := UInt32.le_iff_toNat_le.mp h
  rw [← UInt32.toNat_inj, ← UInt32.toNat_inj, ← UInt32.toNat_inj]
  change index.toNat = 0 ∨ index.toNat = 1 ∨ index.toNat = 2
  omega

theorem holdsNames_three : HoldsNames threeValues ⟨0, 42, 3⟩ ⟨42, 18, 0⟩ 0 2 threeNames := by
  intro index _ hlast
  rcases le_two hlast with rfl | rfl | rfl
  · exact ⟨List.replicate 14 0, ⟨0, 0, 0, 0⟩, [4, 0, 97, 110, 116, 0],
      rfl, rfl, by decide, rfl, rfl⟩
  · exact ⟨[0, 0, 6] ++ List.replicate 11 0, ⟨0, 6, 0, 0⟩, [4, 0, 98, 101, 101, 0],
      rfl, rfl, by decide, rfl, rfl⟩
  · exact ⟨[0, 0, 12] ++ List.replicate 11 0, ⟨0, 12, 0, 0⟩, [4, 0, 99, 97, 116, 0],
      rfl, rfl, by decide, rfl, rfl⟩

/-- They are opened with caches that have one node each, and bee is looked for. -/
theorem indexByName_decides_three : ∃ (values strings : Collection) (start : Storage),
    Legible values strings 0 2 (Utf8.encode "bee") start threeNames ∧
      (∀ i j, 0 ≤ i → i ≤ j → j ≤ 2 → Bytes.order (threeNames i) (threeNames j) ≠ .gt) ∧
      ((∀ index state c,
          SeekingAsks values strings 0 2 (Utf8.encode "bee") start index state →
            ¬ Fetches values strings index state (.error c)) →
        Locates threeNames 0 2 (Utf8.encode "bee")
          ((ValueRecord.indexByName values strings 0 2 "bee").run start).1) ∧
      ((ValueRecord.indexByName values strings 0 2 "bee").run start).1 = .ok (some 1) := by
  let storage : Storage := .over ⟨threeValues, true⟩ ⟨1, [], 0, 0⟩
  let values : Collection := ⟨⟨3, 42, 14⟩, .file ⟨0, some 0⟩⟩
  let strings : Collection := ⟨⟨0, 18, 0⟩, .file ⟨42, some 1⟩⟩
  let cache : Cache UInt32 := ⟨#[Cache.Shard.ofSize 1], Collection.spread, 1, 1, 0, 0⟩
  have hvalues : Collection.ofFile (.cached 1 1) ⟨0, 42, 3⟩ storage =
      .ok ((values, 42), { storage with caches := #[cache] }) := rfl
  have hstrings : Collection.ofFile (.cached 1 1) ⟨42, 18, 0⟩
      { storage with caches := #[cache] } =
        .ok ((strings, 60), { storage with caches := #[cache, cache] }) := rfl
  have hfixed : ¬ (Layout.ofHeader ⟨42, 18, 0⟩).isFixed := by decide
  have hlegible := legible_ofFile (.inr ⟨by decide, rfl⟩) (by decide) (fun _ => rfl)
    (fun h => absurd h hfixed) hvalues hstrings holdsNames_three (Utf8.encode "bee")
  have hordered : ∀ i j, 0 ≤ i → i ≤ j → j ≤ 2 →
      Bytes.order (threeNames i) (threeNames j) ≠ .gt := by
    intro i j _ hij hj
    rcases le_two hj with rfl | rfl | rfl <;>
      rcases le_two (UInt32.le_trans hij hj) with rfl | rfl | rfl <;> revert hij <;> decide
  exact ⟨values, strings, _, hlegible, hordered,
    (indexByName_decides hlegible hordered).1, by cbv⟩

end

end RecordStore
