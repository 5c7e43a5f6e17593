import Mathlib
import RecordStore.Proofs.Cache.History
import RecordStore.Proofs.Collection.Holding

/-!
# What a get gives

In a state whose references are accounted for, a get gives an item of the cache
of its collection, or of none if memory serves it, and only the sizing of its
key can make it fail as if there were too many operations (`Collection.Gives`).
The node that is held for the item has its record, and keeps it for as long as
it is held (`Storage.Keeps`), whatever others get and release in the meantime
(`Use`).
-/

namespace RecordStore

/-- Is it the error of a cache whose nodes are all held? -/
def StoreError.isExhaustion (e : StoreError) : Bool :=
  match e with
  | .tooManyOperations _ _ => true
  | _ => false

/-- What may fail, but not for want of a node. -/
def NeverExhausts {α : Type} (result : Except StoreError α) : Prop :=
  ∀ e, result = .error e → e.isExhaustion = false

/-- The number of the cache in which a node is held for an item. -/
def Item.cacheId? (item : Item) : Option Nat :=
  item.pin?.map Prod.fst

/-- The node that is held for an item, if there is one, has the record of an
address, and that is the item. -/
def Storage.Keeps (storage : Storage) (address : UInt32) (item : Item) : Prop :=
  ∀ id pin, item.pin? = some (id, pin) → ∃ cache, storage.cache? id = some cache ∧
    (cache.shard pin.shard).Has pin.node address item.bytes

/-- What a get of a key may come to, the storage apart. -/
structure Collection.Gives (c : Collection) (key : Key) (result : Except StoreError (Option Item)) :
    Prop where
  cache : ∀ item ∈ given result, item.cacheId? = if c.holds key then none else c.cacheId?
  error : (∀ header, NeverExhausts (key.sizing.fullLength header)) → NeverExhausts result

/-- A get of one of some collections, or a release of an item of theirs. -/
inductive UseStep (cs : List Collection) : Storage × List Item → Storage × List Item → Prop
  | get {c : Collection} (hc : c ∈ cs) (key : Key) (storage : Storage) (own : List Item) :
      UseStep cs (storage, own)
        (((c.get key).run storage).2, given ((c.get key).run storage).1 ++ own)
  | release {item : Item} {own : List Item} (hitem : item ∈ own) (storage : Storage) :
      UseStep cs (storage, own) (storage.release item, own.erase item)

/-- Gets of some collections and releases of what they gave, in any order. -/
def Use (cs : List Collection) : Storage × List Item → Storage × List Item → Prop :=
  Relation.ReflTransGen (UseStep cs)

/-- What an operation gets of some collections it releases again. -/
def KeepsNothing {α : Type} (cs : List Collection) (op : Storage → α × Storage) : Prop :=
  ∀ storage, Use cs (storage, []) ((op storage).2, [])

/-! ## Failures -/

section

variable {α β : Type}

theorem neverExhausts_ok (a : α) : NeverExhausts (.ok a) := by
  intro e h
  cases h

theorem neverExhausts_error {e : StoreError} (h : e.isExhaustion = false) :
    NeverExhausts (.error e : Except StoreError α) := by
  intro e' hsame
  exact Except.error.inj hsame ▸ h

theorem NeverExhausts.bind {x : Except StoreError α} {f : α → Except StoreError β}
    (hx : NeverExhausts x) (hf : ∀ a, NeverExhausts (f a)) : NeverExhausts (x >>= f) := by
  cases x with
  | error e => exact neverExhausts_error (hx e rfl)
  | ok a => exact hf a

theorem NeverExhausts.map {x : Except StoreError α} (h : NeverExhausts x) (f : α → β) :
    NeverExhausts (x.map f) := by
  cases x with
  | error e => exact neverExhausts_error (h e rfl)
  | ok a => exact neverExhausts_ok (f a)

theorem neverExhausts_ite {refused : Prop} [Decidable refused] {x y : Except StoreError α}
    (hx : NeverExhausts x) (hy : NeverExhausts y) :
    NeverExhausts (if refused then x else y) := by
  split
  · exact hx
  · exact hy

end

section

variable {layout : Layout} {key : Key} {file : DataFile} {storage : Storage}

theorem DataFile.neverExhausts_part (file : DataFile) (position count : Nat) :
    NeverExhausts (file.part position count) :=
  neverExhausts_ite (neverExhausts_ok _) (neverExhausts_error rfl)

theorem DataFile.neverExhausts_partAt (file : DataFile) (position count : Nat) :
    NeverExhausts (file.partAt position count) :=
  neverExhausts_ite (file.neverExhausts_part _ _) (neverExhausts_error rfl)

theorem Layout.neverExhausts_reach (layout : Layout) (offset length : Nat) :
    NeverExhausts (layout.reach offset length) :=
  neverExhausts_ite (neverExhausts_ok _) (neverExhausts_error rfl)

theorem Layout.neverExhausts_fixedRecord (layout : Layout) (key : Key) :
    NeverExhausts (layout.fixedRecord key) := by
  unfold fixedRecord
  refine neverExhausts_ite ?_ ?_
  · exact neverExhausts_error rfl
  · exact (layout.neverExhausts_reach _ _).bind fun _ => neverExhausts_ok _

theorem Layout.neverExhausts_headerOf (layout : Layout) (key : Key) :
    NeverExhausts (layout.headerOf key) := by
  unfold headerOf
  refine neverExhausts_ite ?_ ?_
  · exact neverExhausts_error rfl
  · exact (layout.neverExhausts_reach _ _).bind fun _ => neverExhausts_ok _

/-- **Reading fails for want of a node** only if the sizing does. -/
theorem Source.neverExhausts_reading (source : Source)
    (h : ∀ header, NeverExhausts (key.sizing.fullLength header)) :
    NeverExhausts (source.reading layout file key) := by
  unfold reading
  refine neverExhausts_ite ?_ ?_
  · exact (layout.neverExhausts_fixedRecord key).bind fun _ => file.neverExhausts_partAt _ _
  · refine (layout.neverExhausts_headerOf key).bind ?_
    intro place
    refine (file.neverExhausts_partAt _ _).bind ?_
    intro header
    have hlength : NeverExhausts (layout.lengthOf key header) :=
      (h header).bind fun _ => (layout.neverExhausts_reach _ _).bind fun _ => neverExhausts_ok _
    refine hlength.bind ?_
    intro length
    exact (file.neverExhausts_part _ _).bind fun _ => neverExhausts_ok _

theorem Source.neverExhausts_stream (source : Source) (hpool : storage.pool.Unblocked)
    (h : ∀ header, NeverExhausts (key.sizing.fullLength header)) :
    NeverExhausts ((source.stream layout key).run storage).1 := by
  rcases source.stream_course layout key storage with ⟨e, hrun, hread⟩ | ⟨use, hrun, hread⟩
  · have hreading : NeverExhausts (source.reading layout storage.file key) :=
      source.neverExhausts_reading h
    rw [hread] at hreading
    rw [hrun]
    exact hreading
  · rw [hrun]
    show NeverExhausts (Storage.withHandle use storage).1
    unfold Storage.withHandle
    rcases hout : storage.pool.checkOut storage.file with ⟨e | _ | handle, pool⟩
    · obtain ⟨rfl, -⟩ := HandlePool.checkOut_error hout
      exact neverExhausts_error rfl
    · -- a pool from which a handle can be had does not refuse one
      unfold HandlePool.checkOut at hout
      rcases hpool with hidle | hroom
      · cases hcases : storage.pool.idle with
        | nil => exact absurd hcases hidle
        | cons handle rest =>
            rw [hcases] at hout
            cases hout
      · rw [if_pos hroom] at hout
        split at hout
        · cases hout
        · split at hout <;> cases hout
    · show NeverExhausts (use storage.file handle).1
      rw [hread]
      exact source.neverExhausts_reading h

end

/-! ## Items and their nodes -/

section

variable {id count size : Nat} {file : DataFile} {storage : Storage} {items : List Item}
  {source : Source} {item other : Item} {address : UInt32}

/-- Nothing is in a node for an item that no node is held for. -/
theorem Storage.keeps_of_none (h : item.pin? = none) : storage.Keeps address item := by
  intro id pin hpin
  rw [h] at hpin
  cases hpin

/-- **What a get through a cache does**: the shard of its key takes a course, and
the others stay as they are. -/
theorem Lent.get_course (h : Lent id count size file storage items) (hpos : 0 < count)
    (hid : source.cache? = some id) (layout : Layout) (key : Key) :
    ∃ cache cache' answer hit s' after, storage.cache? id = some cache ∧
      (⟨cache, pinsOf items⟩ : Cache.Lending UInt32).Sound count size ∧
      cache.shardOf key.address < count ∧
      Cache.Shard.Gets (cache.shard (cache.shardOf key.address)) key.address
        (source.stream layout key).run storage answer hit s' after ∧
      ((source.get layout key).run storage).1 = (answer.lent (cache.shardOf key.address)).map
        (·.map fun ref => ⟨ref.data, some (id, ref.pin)⟩) ∧
      ((source.get layout key).run storage).2.cache? id = some cache' ∧
      ∀ place, cache'.shard place =
        if cache.shardOf key.address = place then s' else cache.shard place := by
  obtain ⟨cache, hcache, hsound⟩ := h.lent
  obtain ⟨answer, hit, s', hgets, hresult, hshards, -⟩ :=
    Cache.get_course cache key.address (source.stream layout key).run storage
  have hplace := hsound.shardOf_lt hpos key.address
  have hloaded : (cache.get key.address (source.stream layout key).run storage).2.cache? id =
      some cache := by
    rcases Cache.get_world cache key.address (source.stream layout key).run storage with
      hsame | hread
    · rw [hsame]
      exact hcache
    · rw [hread, Storage.cache?, (source.stream_steady layout key storage).2]
      exact hcache
  refine ⟨cache, _, answer, hit, s', _, hcache, hsound, hsound.shards ▸ hplace, hgets, ?_, ?_,
    Cache.shard_of_shards hshards hplace⟩
  · rw [Source.get_run hid hcache, hresult]
  · rw [Source.get_run hid hcache]
    exact cache?_setCache hloaded _

/-- **An item is in the node that is held for it.** -/
theorem Lent.keeps_given (h : Lent id count size file storage items) (hpos : 0 < count)
    (hid : source.cache? = some id) (layout : Layout) (key : Key)
    (hitem : item ∈ given ((source.get layout key).run storage).1) :
    item.cacheId? = some id ∧
      ((source.get layout key).run storage).2.Keeps key.address item := by
  obtain ⟨cache, cache', answer, hit, s', after, -, hsound, hplace, hgets, hresult, hafter,
    hshard⟩ := h.get_course hpos hid layout key
  rw [hresult] at hitem
  cases answer with
  | exhausted => cases hitem
  | failed e => cases hitem
  | held node data =>
      obtain rfl := List.mem_singleton.mp hitem
      refine ⟨rfl, ?_⟩
      intro id' pin hpin
      obtain ⟨rfl, rfl⟩ := Prod.mk.inj (Option.some.inj hpin)
      refine ⟨cache', hafter, ?_⟩
      rw [hshard, if_pos rfl]
      exact hgets.has (hsound.shard _ hplace)

/-- **What is held stays where it is**, whatever is got through its cache. -/
theorem Lent.keeps_get (h : Lent id count size file storage items) (hpos : 0 < count)
    (hid : source.cache? = some id) (layout : Layout) (key : Key) (hitem : item ∈ items)
    (hkeeps : storage.Keeps address item) :
    ((source.get layout key).run storage).2.Keeps address item := by
  obtain ⟨cache, cache', answer, hit, s', after, hcache, hsound, hplace, hgets, -, hafter,
    hshard⟩ := h.get_course hpos hid layout key
  intro id' pin hpin
  obtain rfl : id' = id := h.own item hitem _ hpin
  obtain ⟨cache'', hcache', hhas⟩ := hkeeps id' pin hpin
  obtain rfl := Option.some.inj (hcache.symm.trans hcache')
  refine ⟨cache', hafter, ?_⟩
  rw [hshard]
  split
  · next hsame =>
      have hmem : pin ∈ pinsOf items :=
        List.mem_filterMap.mpr ⟨item, hitem, by rw [hpin]; rfl⟩
      rw [hsame] at hgets hplace
      exact hgets.has_of_held (hsound.shard _ hplace) (List.count_pos_iff.mpr hmem) hhas
  · exact hhas

/-- A get through a cache fails for want of a node only if the sizing does. -/
theorem Lent.neverExhausts_get (h : Lent id count size file storage items) (hpos : 0 < count)
    (hid : source.cache? = some id) (layout : Layout) (key : Key)
    (hpool : storage.pool.Unblocked)
    (hsizing : ∀ header, NeverExhausts (key.sizing.fullLength header)) :
    NeverExhausts ((source.get layout key).run storage).1 := by
  obtain ⟨cache, -, answer, hit, s', after, -, -, -, hgets, hresult, -, -⟩ :=
    h.get_course hpos hid layout key
  rw [hresult]
  apply NeverExhausts.map
  cases hgets with
  | hit hhit => exact neverExhausts_ok _
  | exhausted hmiss hfull => exact neverExhausts_ok _
  | loaded hmiss htail hload => exact neverExhausts_ok _
  | failed hmiss htail hload =>
      have hstream : NeverExhausts ((source.stream layout key).run storage).1 :=
        source.neverExhausts_stream hpool hsizing
      rw [hload] at hstream
      exact neverExhausts_error (hstream _ rfl)

theorem Cache.has_release {cache : Cache UInt32} {place node : Nat} {data : Bytes}
    (h : (cache.shard place).Has node address data) (pin : Cache.Pin) :
    ((cache.release pin).shard place).Has node address data := by
  by_cases hbound : pin.shard < cache.shards.size
  · have hshard : (cache.release pin).shard place = if pin.shard = place then
        (cache.shard pin.shard).release pin.node else cache.shard place :=
      Cache.shard_of_shards rfl hbound place
    rw [hshard]
    split
    · next hsame =>
        rw [hsame]
        exact h.release pin.node
    · exact h
  · have hsame : (cache.release pin).shards = cache.shards :=
      Array.setIfInBounds_eq_of_size_le (Nat.le_of_not_lt hbound)
    rw [Cache.shard, hsame]
    exact h

/-- Nor does a release change it. -/
theorem Storage.Keeps.release (h : storage.Keeps address item) (other : Item) :
    (storage.release other).Keeps address item := by
  intro id pin hpin
  obtain ⟨cache, hcache, hhas⟩ := h id pin hpin
  unfold Storage.release
  split
  · next id' pin' _ =>
      split
      · next cache' hcache' =>
          by_cases hid : id = id'
          · subst hid
            obtain rfl := Option.some.inj (hcache.symm.trans hcache')
            exact ⟨_, cache?_setCache hcache _, Cache.has_release hhas pin'⟩
          · exact ⟨cache, (cache?_setCache_of_ne hid storage _).trans hcache, hhas⟩
      · exact ⟨cache, hcache, hhas⟩
  · exact ⟨cache, hcache, hhas⟩

end

/-! ## Collections -/

section

variable {c : Collection} {key : Key}

theorem Layout.neverExhausts_record {layout : Layout} (bytes : Bytes)
    (h : ∀ header, NeverExhausts (key.sizing.fullLength header)) :
    NeverExhausts (layout.record bytes key) := by
  have hlocate : NeverExhausts (layout.locate bytes key) := by
    unfold locate
    refine neverExhausts_ite (layout.neverExhausts_fixedRecord key) ?_
    refine (layout.neverExhausts_headerOf key).bind ?_
    intro place
    have hlength : ∀ header, NeverExhausts (layout.lengthOf key header) := fun header =>
      (h header).bind fun _ => (layout.neverExhausts_reach _ _).bind fun _ => neverExhausts_ok _
    exact (hlength _).bind fun _ => neverExhausts_ok _
  exact hlocate.bind fun _ => neverExhausts_ok _

/-- What memory serves is at hand, or cannot be located there. -/
theorem Collection.get_in_memory (hholds : c.holds key) : ∃ result : Except StoreError Bytes,
    (∀ storage, (c.get key).run storage = (result.map (some ⟨·, none⟩), storage)) ∧
      ((∀ header, NeverExhausts (key.sizing.fullLength header)) → NeverExhausts result) := by
  obtain ⟨layout, tiers⟩ := c
  cases tiers with
  | memory resident =>
      exact ⟨resident.record key, get_resident rfl (.inl rfl), Layout.neverExhausts_record _⟩
  | both resident source =>
      exact ⟨resident.record key, get_resident rfl (.inr hholds), Layout.neverExhausts_record _⟩
  | file source => cases hholds

/-- Anything else comes from the source. -/
theorem Collection.get_from_source (hholds : ¬ c.holds key) :
    ∃ source, c.source? = some source ∧ c.get key = source.get c.layout key := by
  obtain ⟨layout, tiers⟩ := c
  cases tiers with
  | memory resident => exact absurd rfl hholds
  | both resident source => exact ⟨source, rfl, if_neg hholds⟩
  | file source => exact ⟨source, rfl, rfl⟩

theorem given_at_hand {result : Except StoreError Bytes} {item : Item}
    (h : item ∈ given (result.map (some ⟨·, none⟩))) : item.pin? = none := by
  cases result with
  | error e => cases h
  | ok bytes => rw [List.mem_singleton.mp h]

end

namespace Accounted

variable {dims : Nat → Nat × Nat} {opened : List Collection} {storage : Storage}
  {items : List Item} {c : Collection} {item : Item} {address : UInt32}

/-- **What a get may come to.** -/
theorem gives (h : Accounted dims opened storage items) (hc : c ∈ opened) (key : Key) :
    c.Gives key ((c.get key).run storage).1 := by
  by_cases hholds : c.holds key
  · obtain ⟨result, hrun, hcalm⟩ := Collection.get_in_memory hholds
    rw [hrun storage]
    refine ⟨?_, fun hsizing => (hcalm hsizing).map _⟩
    intro item hitem
    rw [if_pos hholds, Item.cacheId?, given_at_hand hitem]
    rfl
  · obtain ⟨source, hsource, hget⟩ := Collection.get_from_source hholds
    have hcache := Collection.cacheId?_of_source? hsource
    rw [hget]
    cases hid : source.cache? with
    | none =>
        rw [Source.get_run_uncached hid]
        refine ⟨?_, fun hsizing => (source.neverExhausts_stream h.pool hsizing).map _⟩
        intro item hitem
        rw [if_neg hholds, hcache, hid, Item.cacheId?, given_at_hand hitem]
        rfl
    | some id =>
        obtain ⟨hpos, hlent⟩ := h.lent id (h.below c hc id (hcache.trans hid))
        refine ⟨?_, ?_⟩
        · intro item hitem
          rw [if_neg hholds, hcache, hid]
          exact (hlent.keeps_given hpos hid c.layout key hitem).1
        · exact hlent.neverExhausts_get hpos hid c.layout key h.pool

/-- The node of an item that a get gave has the record of its key. -/
theorem keeps_given (h : Accounted dims opened storage items) (hc : c ∈ opened) (key : Key)
    (hitem : item ∈ given ((c.get key).run storage).1) :
    ((c.get key).run storage).2.Keeps key.address item := by
  rcases c.get_course key with ⟨result, hrun⟩ | ⟨source, hsource, hget⟩
  · rw [hrun storage] at hitem
    exact Storage.keeps_of_none (given_at_hand hitem)
  · have hcache := Collection.cacheId?_of_source? hsource
    rw [hget] at hitem ⊢
    cases hid : source.cache? with
    | none =>
        rw [Source.get_run_uncached hid] at hitem
        exact Storage.keeps_of_none (given_at_hand hitem)
    | some id =>
        obtain ⟨hpos, hlent⟩ := h.lent id (h.below c hc id (hcache.trans hid))
        exact (hlent.keeps_given hpos hid c.layout key hitem).2

/-- The node of an item that is held keeps its record. -/
theorem keeps_get (h : Accounted dims opened storage items) (hc : c ∈ opened) (key : Key)
    (hitem : item ∈ items) (hkeeps : storage.Keeps address item) :
    ((c.get key).run storage).2.Keeps address item := by
  intro id pin hpin
  by_cases hown : c.cacheId? = some id
  · rcases c.get_course key with ⟨result, hrun⟩ | ⟨source, hsource, hget⟩
    · rw [hrun storage]
      exact hkeeps id pin hpin
    · have hcache := (Collection.cacheId?_of_source? hsource).symm.trans hown
      obtain ⟨hpos, hlent⟩ := h.lent id (h.below c hc id hown)
      have hmem := List.mem_filter.mpr ⟨hitem, Item.heldIn_iff.mpr ⟨_, hpin, rfl⟩⟩
      rw [hget]
      exact hlent.keeps_get hpos hcache c.layout key hmem hkeeps id pin hpin
  · obtain ⟨cache, hfound, hhas⟩ := hkeeps id pin hpin
    exact ⟨cache, ((c.get_aside key storage).1.cache id hown).trans hfound, hhas⟩

end Accounted

/-! ## What others do -/

section

variable {dims : Nat → Nat × Nat} {opened cs : List Collection} {before after : Storage × List Item}
  {items : List Item} {item : Item} {address : UInt32}

/-- **While others use storage**, all references stay accounted for. -/
theorem Use.accounted (h : Use cs before after) (hcs : cs ⊆ opened)
    (hbefore : Accounted dims opened before.1 (before.2 ++ items)) :
    Accounted dims opened after.1 (after.2 ++ items) := by
  induction h with
  | refl => exact hbefore
  | tail _ hstep ih =>
      cases hstep with
      | get hc key storage own =>
          rw [List.append_assoc]
          exact ih.get (hcs hc) key
      | release hitem storage =>
          have hafter := ih.release (List.mem_append_left items hitem)
          rwa [List.erase_append_left _ hitem] at hafter

/-- The node of an item that is none of theirs keeps its record. -/
theorem Use.keeps (h : Use cs before after) (hcs : cs ⊆ opened)
    (hbefore : Accounted dims opened before.1 (before.2 ++ items)) (hitem : item ∈ items)
    (hkeeps : before.1.Keeps address item) : after.1.Keeps address item := by
  induction h with
  | refl => exact hkeeps
  | tail hfirst hstep ih =>
      have hmiddle := Use.accounted hfirst hcs hbefore
      cases hstep with
      | get hc key storage own =>
          exact hmiddle.keeps_get (hcs hc) key (List.mem_append_right own hitem) ih
      | release _ storage => exact ih.release _

end

end RecordStore
