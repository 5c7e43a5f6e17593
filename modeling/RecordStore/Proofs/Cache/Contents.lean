import Mathlib
import RecordStore.Proofs.Cache.Consistency

/-!
# What a cache has in it

`resident?` is a cache as seen by who asks it: the bytes it has for a key.  A
get either finds them or loads them (`get_outcome`), brings in nothing but
what it has just loaded (`resident?_get`), and releases change nothing
(`resident?_release`).
-/

namespace RecordStore.Cache

variable {K : Type} [BEq K] [Hashable K] {σ : Type}

/-- The bytes of a key, if they are in the shard. -/
def Shard.resident? (s : Shard K) (key : K) : Option Bytes :=
  s.resident[key]?.map fun place => (s.node place).data

/-- The bytes of a key, if they are in the cache. -/
def resident? (c : Cache K) (key : K) : Option Bytes :=
  (c.shard (c.shardOf key)).resident? key

/-- What a get yields, and what is in the cache for the key afterwards: it was
there; every node was held; it was loaded; it could not be loaded. -/
inductive Outcome (before : Option Bytes) (load : σ → Except StoreError Bytes × σ) (world : σ) :
    Except StoreError (Option Ref) → Option Bytes → σ → Prop
  | hit (ref : Ref) (hbefore : before = some ref.data) :
      Outcome before load world (.ok (some ref)) (some ref.data) world
  | full (hbefore : before = none) : Outcome before load world (.ok none) none world
  | loaded (ref : Ref) {after : σ} (hbefore : before = none)
      (hload : load world = (.ok ref.data, after)) :
      Outcome before load world (.ok (some ref)) (some ref.data) after
  | failed {e : StoreError} {after : σ} (hbefore : before = none)
      (hload : load world = (.error e, after)) :
      Outcome before load world (.error e) none after

namespace Shard

variable {s s' : Shard K} {size : Nat} {held : Nat → Nat} {key other : K}
  {load : σ → Except StoreError Bytes × σ} {world after : σ} {answer : Answer} {hit : Bool}
  {bytes : Bytes}

theorem Sound.resident?_eq_some_iff {spare? : Option Nat} (h : s.Sound size held spare?) :
    s.resident? key = some bytes ↔
      ∃ place own, (s.node place).key? = some own ∧ own == key ∧ (s.node place).data = bytes := by
  unfold resident?
  rw [Option.map_eq_some_iff]
  constructor
  · intro hfound
    obtain ⟨place, hplace, hdata⟩ := hfound
    obtain ⟨own, hown, hsame⟩ := (h.resident key place).mp hplace
    exact ⟨place, own, hown, hsame, hdata⟩
  · intro hfound
    obtain ⟨place, own, hown, hsame, hdata⟩ := hfound
    exact ⟨place, (h.resident key place).mpr ⟨own, hown, hsame⟩, hdata⟩

variable [EquivBEq K] [LawfulHashable K]

/-- Nothing comes into a shard but what a get has loaded. -/
theorem Gets.resident?_cases (hgets : Gets s key load world answer hit s' after)
    (hsound : s.Sound size held none) (hfound : s'.resident? other = some bytes) :
    s.resident? other = some bytes ∨ (key == other ∧ load world = (.ok bytes, after)) := by
  obtain ⟨place, own, hown, hsame, hdata⟩ := (hgets.sound hsound).resident?_eq_some_iff.mp hfound
  rcases hgets.key_cases hsound hown with ⟨hold, hkept⟩ | ⟨hnew, hload⟩
  · left
    exact hsound.resident?_eq_some_iff.mpr ⟨place, own, hold, hsame, hkept ▸ hdata⟩
  · right
    rw [hdata] at hload
    exact ⟨hnew ▸ hsame, hload⟩

/-- What comes of a get, as seen by who asks. -/
theorem Gets.outcome (hgets : Gets s key load world answer hit s' after)
    (hsound : s.Sound size held none) (place : Nat) :
    Outcome (s.resident? key) load world (answer.lent place) (s'.resident? key) after := by
  have hsound' := hgets.sound hsound
  have hmiss : ∀ {s'' : Shard K}, s''.resident[key]? = none → s''.resident? key = none := by
    intro s'' hnone
    rw [resident?, hnone]
    rfl
  cases hgets with
  | @hit node hhit =>
      have hbefore : s.resident? key = some (s.node node).data := by
        rw [resident?, hhit]
        rfl
      have hafter : (s.reuse node).2.resident? key = some (s.node node).data := by
        obtain ⟨own, hown, hsame⟩ := (hsound.resident key node).mp hhit
        have hself := reuse_node_self (lt_size_of_key hown)
        exact hsound'.resident?_eq_some_iff.mpr
          ⟨node, own, by rw [hself]; exact hown, hsame, by rw [hself]⟩
      rw [hafter]
      exact .hit ⟨⟨place, node⟩, (s.node node).data⟩ hbefore
  | exhausted hnone _ =>
      rw [hmiss hnone]
      exact .full rfl
  | @loaded node data _ hnone htail hload =>
      have hself : ((s.evict node).fill node key data).node node = ⟨some key, data, 1⟩ :=
        fill_node_self (hsound.lt_size_evict htail)
      have hafter : ((s.evict node).fill node key data).resident? key = some data :=
        hsound'.resident?_eq_some_iff.mpr
          ⟨node, key, by rw [hself], BEq.rfl, by rw [hself]⟩
      rw [hafter]
      exact .loaded ⟨⟨place, node⟩, data⟩ (hmiss hnone) hload
  | @failed node e _ hnone htail hload =>
      have hafter : ((s.evict node).abandon node).resident[key]? = none :=
        hsound.evict_resident_none hnone
      rw [hmiss hafter]
      exact .failed (hmiss hnone) hload

end Shard

/-! ## The contents of a cache -/

section

variable {u : Lending K} {count size : Nat}

theorem Lending.Sound.shardOf_lt (h : u.Sound count size) (hpos : 0 < count) (key : K) :
    u.cache.shardOf key < u.cache.shards.size :=
  Nat.mod_lt _ (h.shards ▸ hpos)

theorem shardOf_get (c : Cache K) (key other : K) (load : σ → Except StoreError Bytes × σ)
    (world : σ) : (c.get key load world).1.2.shardOf other = c.shardOf other := by
  obtain ⟨_, _, _, -, -, hshards, hspread⟩ := get_course c key load world
  rw [shardOf, shardOf, hshards, hspread, Array.size_setIfInBounds]

theorem resident?_of_shards {c : Cache K} {key : K} {load : σ → Except StoreError Bytes × σ}
    {world : σ} {s' : Shard K} (hshards : (c.get key load world).1.2.shards =
      c.shards.setIfInBounds (c.shardOf key) s') (hplace : c.shardOf key < c.shards.size)
    (other : K) : (c.get key load world).1.2.resident? other =
      if c.shardOf key = c.shardOf other then s'.resident? other else c.resident? other := by
  rw [resident?, shardOf_get, shard_of_shards hshards hplace]
  split <;> rfl

theorem shardOf_release (c : Cache K) (pin : Pin) (key : K) :
    (c.release pin).shardOf key = c.shardOf key := by
  simp [shardOf, Cache.release]

/-- **Releases change no contents.** -/
theorem resident?_release (c : Cache K) (pin : Pin) (key : K) :
    (c.release pin).resident? key = c.resident? key := by
  rw [resident?, resident?, shardOf_release]
  by_cases hbound : pin.shard < c.shards.size
  · have hshard : ∀ other, (c.release pin).shard other =
        if pin.shard = other then (c.shard pin.shard).release pin.node else c.shard other :=
      shard_of_shards rfl hbound
    rw [hshard]
    by_cases hne : pin.shard = c.shardOf key
    · rw [if_pos hne, ← hne, Shard.resident?, Shard.resident?]
      apply Option.map_congr
      intro place _
      exact (Shard.release_node _ _ _).2
    · rw [if_neg hne]
  · have hsame : (c.release pin).shards = c.shards :=
      Array.setIfInBounds_eq_of_size_le (Nat.le_of_not_lt hbound)
    rw [Cache.shard, Cache.shard, hsame]

/-- A new cache has nothing in it. -/
theorem resident?_create {capacity : UInt32} {concurrency : UInt16} {spread : K → UInt64}
    {start : Cache K} (h : Cache.create capacity concurrency spread = .ok start) (key : K) :
    start.resident? key = none := by
  unfold Cache.create at h
  simp only at h
  split at h
  · cases h
  · obtain rfl := Except.ok.inj h
    simp only [resident?, Shard.resident?, Cache.shard, Array.getD_eq_getD_getElem?,
      Array.getElem?_replicate]
    split <;> simp [Shard.ofSize]

/-- Every node that a key could be loaded into is held. -/
def Full (c : Cache K) (key : K) : Prop :=
  ∀ node < (c.shard (c.shardOf key)).nodes.size,
    0 < ((c.shard (c.shardOf key)).node node).holders

/-- There is no node to be reused exactly if every node is held. -/
theorem Shard.Sound.tail_eq_none_iff {s : Shard K} {size : Nat} {held : Nat → Nat}
    (h : s.Sound size held none) :
    s.idle.tail = none ↔ ∀ node < s.nodes.size, 0 < (s.node node).holders := by
  rw [h.listed.tail, List.getLast?_eq_none_iff, List.eq_nil_iff_forall_not_mem, h.size_nodes]
  apply forall_congr'
  intro node
  rw [h.mem_idle]
  simp [Nat.pos_iff_ne_zero]

/-- **A get comes away empty-handed** exactly if the key is not there and every
node it could be loaded into is held. -/
theorem get_eq_none_iff (h : u.Sound count size) (hpos : 0 < count) (key : K)
    (load : σ → Except StoreError Bytes × σ) (world : σ) :
    (u.cache.get key load world).1.1 = .ok none ↔
      u.cache.resident? key = none ∧ u.cache.Full key := by
  have hplace := h.shardOf_lt hpos key
  have hown := h.shard (u.cache.shardOf key) (h.shards ▸ hplace)
  obtain ⟨answer, hit, s', hgets, hresult, -, -⟩ := get_course u.cache key load world
  rw [hresult, Full, ← hown.tail_eq_none_iff, resident?, Shard.resident?]
  generalize (u.cache.get key load world).2 = after at hgets
  cases hgets with
  | hit hhit => simp [Answer.lent, hhit]
  | exhausted hmiss hfull => simp [Answer.lent, hmiss, hfull]
  | loaded _ htail _ => simp [Answer.lent, htail]
  | failed _ htail _ => simp [Answer.lent, htail]

/-- Every node is held exactly if there is a reference to each of them. -/
theorem Lending.Sound.full_iff (h : u.Sound count size) (hpos : 0 < count) (key : K) :
    u.cache.Full key ↔ ∀ node < size, (⟨u.cache.shardOf key, node⟩ : Pin) ∈ u.out := by
  have hown := h.shard (u.cache.shardOf key) (h.shards ▸ h.shardOf_lt hpos key)
  rw [Full, hown.size_nodes]
  apply forall₂_congr
  intro node _
  rw [hown.holders, List.count_pos_iff]

/-- While fewer references are out than a shard has nodes, there is a node for
every key. -/
theorem Lending.Sound.not_full_of_lt (h : u.Sound count size) (hpos : 0 < count)
    (hfew : u.out.length < size) (key : K) : ¬ u.cache.Full key := by
  intro hfull
  have hnodup : ((List.range size).map (Pin.mk (u.cache.shardOf key))).Nodup := by
    apply List.nodup_range.map
    intro node other hsame
    exact (Pin.mk.inj hsame).2
  have hsub : (List.range size).map (Pin.mk (u.cache.shardOf key)) ⊆ u.out := by
    intro pin hpin
    obtain ⟨node, hnode, rfl⟩ := List.mem_map.mp hpin
    exact (h.full_iff hpos key).mp hfull node (List.mem_range.mp hnode)
  have hlength := (hnodup.subperm hsub).length_le
  rw [List.length_map, List.length_range] at hlength
  exact absurd hfew (Nat.not_lt.mpr hlength)

/-- While nothing is held, there is a node for every key. -/
theorem Lending.Sound.not_full (h : u.Sound count size) (hpos : 0 < count) (hsize : 0 < size)
    (hout : u.out = []) (key : K) : ¬ u.cache.Full key :=
  h.not_full_of_lt hpos (by rw [hout]; exact hsize) key

/-- A get leaves the world as it found it, or as its loading did. -/
theorem get_world (c : Cache K) (key : K) (load : σ → Except StoreError Bytes × σ) (world : σ) :
    (c.get key load world).2 = world ∨ (c.get key load world).2 = (load world).2 := by
  obtain ⟨answer, hit, s', hgets, -, -, -⟩ := get_course c key load world
  generalize (c.get key load world).2 = after at hgets ⊢
  cases hgets with
  | hit _ => exact .inl rfl
  | exhausted _ _ => exact .inl rfl
  | loaded _ _ hload => exact .inr (congrArg Prod.snd hload).symm
  | failed _ _ hload => exact .inr (congrArg Prod.snd hload).symm

variable [EquivBEq K] [LawfulHashable K]

/-- **A get finds the bytes or loads them.** -/
theorem get_outcome (h : u.Sound count size) (hpos : 0 < count) (key : K)
    (load : σ → Except StoreError Bytes × σ) (world : σ) :
    Outcome (u.cache.resident? key) load world (u.cache.get key load world).1.1
      ((u.cache.get key load world).1.2.resident? key) (u.cache.get key load world).2 := by
  have hplace := h.shardOf_lt hpos key
  have hown := h.shard (u.cache.shardOf key) (h.shards ▸ hplace)
  obtain ⟨answer, hit, s', hgets, hresult, hshards, -⟩ := get_course u.cache key load world
  rw [hresult, resident?_of_shards hshards hplace, if_pos rfl]
  exact hgets.outcome hown _

/-- **Nothing comes into a cache but what a get has loaded.** -/
theorem resident?_get (h : u.Sound count size) (hpos : 0 < count) (key : K)
    (load : σ → Except StoreError Bytes × σ) (world : σ) {other : K} {bytes : Bytes}
    (hfound : (u.cache.get key load world).1.2.resident? other = some bytes) :
    u.cache.resident? other = some bytes ∨
      (key == other ∧ load world = (.ok bytes, (u.cache.get key load world).2)) := by
  have hplace := h.shardOf_lt hpos key
  have hown := h.shard (u.cache.shardOf key) (h.shards ▸ hplace)
  obtain ⟨answer, hit, s', hgets, -, hshards, -⟩ := get_course u.cache key load world
  rw [resident?_of_shards hshards hplace] at hfound
  by_cases hne : u.cache.shardOf key = u.cache.shardOf other
  · rw [if_pos hne] at hfound
    rw [resident?, ← hne]
    exact hgets.resident?_cases hown hfound
  · rw [if_neg hne] at hfound
    exact .inl hfound

end

end RecordStore.Cache
