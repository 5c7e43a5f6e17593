import Mathlib
import RecordStore.Cache.Basic
import RecordStore.Proofs.Cache.ShardGet

/-!
# What a cache keeps true

A cache is used by gets and by releases of what gets gave out, in any order;
`Reachable` are the states that come of it, `Lending` keeps the references
that are out beside the cache.  No get and no release breaks the bonds between
the parts of a shard (`Lending.Sound`), so every state that can be reached has
them (`reachable_consistent`).

References are counted without a bound here; 32 bits hold any number of them
that a program can have out at once.
-/

namespace RecordStore.Cache

variable {K : Type} [BEq K] [Hashable K] {σ : Type}

/-! ## A cache in use -/

/-- The references a get gave out. -/
def pins (result : Except StoreError (Option Ref)) : List Pin :=
  match result with
  | .ok (some ref) => [ref.pin]
  | .ok none | .error _ => []

/-- A cache and the references that are out. -/
structure Lending (K : Type) [BEq K] [Hashable K] where
  cache : Cache K
  out : List Pin

/-- The state after a get. -/
def Lending.get (u : Lending K) (key : K) (load : σ → Except StoreError Bytes × σ) (world : σ) :
    Lending K :=
  ⟨(u.cache.get key load world).1.2, pins (u.cache.get key load world).1.1 ++ u.out⟩

/-- The state after a reference is given back. -/
def Lending.release (u : Lending K) (pin : Pin) : Lending K :=
  ⟨u.cache.release pin, u.out.erase pin⟩

/-- The states reached from a cache of which nothing is out.  Every get has a
loader of its own, so one may fail where another succeeds. -/
inductive Reachable (start : Cache K) : Lending K → Prop
  | start : Reachable start ⟨start, []⟩
  | get {σ : Type} {u : Lending K} (hu : Reachable start u) (key : K)
      (load : σ → Except StoreError Bytes × σ) (world : σ) :
      Reachable start (u.get key load world)
  | release {u : Lending K} (hu : Reachable start u) {pin : Pin} (hpin : pin ∈ u.out) :
      Reachable start (u.release pin)

/-! ## Single steps -/

/-- What a cache answers where its shard answers so. -/
def Answer.lent (answer : Answer) (place : Nat) : Except StoreError (Option Ref) :=
  match answer with
  | .held node data => .ok (some ⟨⟨place, node⟩, data⟩)
  | .exhausted => .ok none
  | .failed e => .error e

theorem count_pins_lent (answer : Answer) (place : Nat) (pin : Pin) :
    (pins (answer.lent place)).count pin =
      if place = pin.shard then answer.taken pin.node else 0 := by
  obtain ⟨shard, node⟩ := pin
  cases answer with
  | held other data =>
      by_cases hplace : place = shard <;> by_cases hnode : other = node <;>
        simp [Answer.lent, pins, Answer.taken, hplace, hnode]
  | exhausted => simp [Answer.lent, pins, Answer.taken]
  | failed e => simp [Answer.lent, pins, Answer.taken]

/-- A get asks the key's shard, passes on what it answers, and puts it back. -/
theorem get_course (c : Cache K) (key : K) (load : σ → Except StoreError Bytes × σ) (world : σ) :
    ∃ answer hit s', Shard.Gets (c.shard (c.shardOf key)) key load world answer hit s'
        (c.get key load world).2 ∧
      (c.get key load world).1.1 = answer.lent (c.shardOf key) ∧
      (c.get key load world).1.2.shards = c.shards.setIfInBounds (c.shardOf key) s' ∧
      (c.get key load world).1.2.spread = c.spread := by
  have hgets := Shard.get_gets (c.shard (c.shardOf key)) key load world
  unfold Cache.get
  dsimp only
  rcases hget : (c.shard (c.shardOf key)).get key load world with ⟨⟨answer, hit, s'⟩, after⟩
  rw [hget] at hgets
  refine ⟨answer, hit, s', ?_⟩
  cases answer <;> exact ⟨hgets, rfl, rfl, rfl⟩

/-- Replacing a shard leaves the others. -/
theorem shard_of_shards {c c' : Cache K} {place : Nat} {s : Shard K}
    (h : c'.shards = c.shards.setIfInBounds place s) (hplace : place < c.shards.size)
    (other : Nat) : c'.shard other = if place = other then s else c.shard other := by
  by_cases hne : place = other
  · subst hne
    simp [Cache.shard, h, Array.getD_eq_getD_getElem?, hplace]
  · simp [Cache.shard, h, Array.getD_eq_getD_getElem?, hne]

/-! ## The bonds -/

/-- Every shard of `count` is sound for the references that are out to its
nodes, and has keys of its own only. -/
structure Lending.Sound (u : Lending K) (count size : Nat) : Prop where
  shards : u.cache.shards.size = count
  shard : ∀ place, place < count →
    (u.cache.shard place).Sound size (fun node => u.out.count ⟨place, node⟩) none
  home : ∀ place node own, place < count →
    ((u.cache.shard place).node node).key? = some own → u.cache.shardOf own = place
  inside : ∀ pin ∈ u.out, pin.shard < count

/-- In which order references were given out does not matter. -/
theorem Lending.Sound.of_perm {c : Cache K} {out out' : List Pin} {count size : Nat}
    (h : Lending.Sound ⟨c, out⟩ count size) (hperm : out.Perm out') :
    Lending.Sound ⟨c, out'⟩ count size := by
  refine ⟨h.shards, ?_, h.home, ?_⟩
  · intro place hplace
    have hcount : (fun node => out.count (⟨place, node⟩ : Pin)) =
        fun node => out'.count ⟨place, node⟩ := funext fun node => hperm.count_eq _
    have hshard := h.shard place hplace
    simp only [hcount] at hshard
    exact hshard
  · intro pin hpin
    exact h.inside pin (hperm.mem_iff.mpr hpin)

/-- A cache that can be created is sound, and none of its shards is empty. -/
theorem sound_create {capacity : UInt32} {concurrency : UInt16} {spread : K → UInt64}
    {start : Cache K} (h : Cache.create capacity concurrency spread = .ok start) :
    Lending.Sound ⟨start, []⟩ concurrency.toNat (capacity.toNat / concurrency.toNat) ∧
      start.spread = spread ∧ 0 < concurrency.toNat ∧
      0 < capacity.toNat / concurrency.toNat := by
  unfold Cache.create at h
  simp only at h
  split at h
  · cases h
  · next hok =>
      obtain rfl := Except.ok.inj h
      have hpos : 0 < concurrency.toNat := by
        apply Nat.pos_of_ne_zero
        intro hzero
        exact hok (.inl (UInt16.toNat_inj.mp hzero))
      have hsize : concurrency.toNat ≤ capacity.toNat / concurrency.toNat :=
        Nat.le_of_not_lt fun hlt => hok (.inr hlt)
      refine ⟨⟨by simp, ?_, ?_, ?_⟩, rfl, hpos, by omega⟩
      · intro place hplace
        simpa [Cache.shard, Array.getD_eq_getD_getElem?, hplace] using Shard.sound_ofSize _
      · intro place node own hplace hown
        simp [Cache.shard, Array.getD_eq_getD_getElem?, hplace] at hown
      · intro pin hpin
        cases hpin

section

variable {u : Lending K} {count size : Nat}

/-- **A release keeps a cache sound.** -/
theorem Lending.Sound.release (h : u.Sound count size) {pin : Pin} (hpin : pin ∈ u.out) :
    (u.release pin).Sound count size := by
  have hplace : pin.shard < u.cache.shards.size := h.shards ▸ h.inside pin hpin
  have hown := h.shard pin.shard (h.inside pin hpin)
  have hshard : ∀ other, (u.release pin).cache.shard other =
      if pin.shard = other then (u.cache.shard pin.shard).release pin.node
      else u.cache.shard other :=
    shard_of_shards rfl hplace
  have hsize : (u.release pin).cache.shards.size = count := by
    rw [← h.shards]
    exact Array.size_setIfInBounds
  refine ⟨hsize, ?_, ?_, ?_⟩
  · intro place hlt
    rw [hshard]
    show Shard.Sound _ _ (fun node => (u.out.erase pin).count ⟨place, node⟩) none
    by_cases hne : pin.shard = place
    · subst hne
      have hpos : 0 < u.out.count ⟨pin.shard, pin.node⟩ := List.count_pos_iff.mpr hpin
      have hheld : (fun node => (u.out.erase pin).count ⟨pin.shard, node⟩) = fun node =>
          u.out.count ⟨pin.shard, node⟩ - if pin.node = node then 1 else 0 := by
        funext node
        rw [List.count_erase]
        congr 1
        obtain ⟨shard, own⟩ := pin
        simp
      rw [hheld, if_pos rfl]
      exact hown.release hpos
    · have hheld : (fun node => (u.out.erase pin).count ⟨place, node⟩) = fun node =>
          u.out.count ⟨place, node⟩ := by
        funext node
        apply List.count_erase_of_ne
        intro heq
        rw [← heq] at hne
        exact hne rfl
      rw [hheld, if_neg hne]
      exact h.shard place hlt
  · intro place node own hlt hkey
    have hsame : (u.release pin).cache.shardOf own = u.cache.shardOf own := by
      show (u.cache.spread own).toNat % _ = (u.cache.spread own).toNat % _
      rw [hsize, h.shards]
    rw [hsame]
    rw [hshard] at hkey
    by_cases hne : pin.shard = place
    · rw [if_pos hne, (Shard.release_node _ _ _).1] at hkey
      rw [← hne]
      exact h.home _ node own (h.inside pin hpin) hkey
    · rw [if_neg hne] at hkey
      exact h.home place node own hlt hkey
  · intro other hother
    exact h.inside other (List.mem_of_mem_erase hother)

variable [EquivBEq K] [LawfulHashable K]

/-- **A get keeps a cache sound.** -/
theorem Lending.Sound.get (h : u.Sound count size) (hpos : 0 < count) (key : K)
    (load : σ → Except StoreError Bytes × σ) (world : σ) :
    (u.get key load world).Sound count size := by
  have hplace : u.cache.shardOf key < u.cache.shards.size := Nat.mod_lt _ (h.shards ▸ hpos)
  have hown := h.shard (u.cache.shardOf key) (h.shards ▸ hplace)
  obtain ⟨answer, hit, s', hgets, hresult, hshards, hspread⟩ := get_course u.cache key load world
  have hshard := shard_of_shards hshards hplace
  have hsize : (u.get key load world).cache.shards.size = count := by
    rw [← h.shards]
    show (u.cache.get key load world).1.2.shards.size = _
    rw [hshards, Array.size_setIfInBounds]
  refine ⟨hsize, ?_, ?_, ?_⟩
  · intro place hlt
    show ((u.cache.get key load world).1.2.shard place).Sound _
      (fun node => (pins (u.cache.get key load world).1.1 ++ u.out).count ⟨place, node⟩) none
    rw [hshard, hresult]
    simp only [List.count_append, count_pins_lent]
    by_cases hne : u.cache.shardOf key = place
    · subst hne
      simpa [Nat.add_comm] using hgets.sound hown
    · simpa [hne] using h.shard place hlt
  · intro place node own hlt hkey
    have hsame : (u.get key load world).cache.shardOf own = u.cache.shardOf own := by
      show ((u.cache.get key load world).1.2.spread own).toNat % _ = _
      rw [hsize, hspread, ← h.shards]
      rfl
    rw [hsame]
    change (((u.cache.get key load world).1.2.shard place).node node).key? = some own at hkey
    rw [hshard] at hkey
    by_cases hne : u.cache.shardOf key = place
    · rw [if_pos hne] at hkey
      rcases hgets.key_cases hown hkey with hold | hnew
      · rw [← hne]
        exact h.home _ node own (h.shards ▸ hplace) hold.1
      · rw [hnew.1, hne]
    · rw [if_neg hne] at hkey
      exact h.home place node own hlt hkey
  · intro pin hpin
    rcases List.mem_append.mp hpin with hnew | hold
    · have hcount := List.count_pos_iff.mpr hnew
      rw [hresult, count_pins_lent] at hcount
      by_cases hne : u.cache.shardOf key = pin.shard
      · rw [← hne, ← h.shards]
        exact hplace
      · rw [if_neg hne] at hcount
        exact absurd hcount (Nat.lt_irrefl 0)
    · exact h.inside pin hold

/-- Every state that can be reached is sound. -/
theorem Reachable.sound {capacity : UInt32} {concurrency : UInt16} {spread : K → UInt64}
    {start : Cache K} (hstart : Cache.create capacity concurrency spread = .ok start)
    (hu : Reachable start u) :
    u.Sound concurrency.toNat (capacity.toNat / concurrency.toNat) ∧ u.cache.spread = spread := by
  obtain ⟨hsound, hspread, hpos, -⟩ := sound_create hstart
  induction hu with
  | start => exact ⟨hsound, hspread⟩
  | get _ key load world ih =>
      refine ⟨ih.1.get hpos key load world, ?_⟩
      rw [← ih.2]
      obtain ⟨_, _, _, -, -, -, hspread⟩ := get_course _ key load world
      exact hspread
  | release _ hpin ih => exact ⟨ih.1.release hpin, ih.2⟩

end

/-! ## Consistency -/

/-- What holds between the parts of a shard of `size` nodes, when there are
`out` references to each of its nodes and it may only have the keys of `mine`.
A walk from either end of the list ends by itself, however long it may go on,
and the list has the nodes nobody holds.  The map leads from a key to the one
node in which it is written. -/
structure Shard.Consistent (s : Shard K) (size : Nat) (out : Nat → Nat) (mine : K → Prop) :
    Prop where
  nodes : s.nodes.size = size
  forward : ∀ fuel, size < fuel → s.idle.walk Link.older fuel s.idle.head = s.idle.fromHead
  backward : ∀ fuel, size < fuel →
    s.idle.walk Link.newer fuel s.idle.tail = s.idle.fromHead.reverse
  once : s.idle.fromHead.Nodup
  listed : ∀ place, place ∈ s.idle.fromHead ↔ place < size ∧ (s.node place).holders = 0
  holders : ∀ place, (s.node place).holders = out place
  resident : ∀ key place, s.resident[key]? = some place ↔
    ∃ own, (s.node place).key? = some own ∧ own == key
  unique : ∀ place other own own', (s.node place).key? = some own →
    (s.node other).key? = some own' → own == own' → place = other
  keyed : ∀ place, 0 < (s.node place).holders → (s.node place).key?.isSome
  home : ∀ place own, (s.node place).key? = some own → mine own
  resident_le : s.resident.size ≤ size

/-- What holds of the `count` shards of a cache, of `size` nodes each, and the
references that are out. -/
structure Lending.Consistent (u : Lending K) (count size : Nat) (spread : K → UInt64) : Prop where
  shards : u.cache.shards.size = count
  shard : ∀ place, place < count → (u.cache.shard place).Consistent size
    (fun node => u.out.count ⟨place, node⟩) fun own => (spread own).toNat % count = place

theorem Shard.Sound.consistent [EquivBEq K] [LawfulHashable K] {s : Shard K} {size : Nat}
    {held : Nat → Nat} (h : s.Sound size held none) {mine : K → Prop}
    (hmine : ∀ place own, (s.node place).key? = some own → mine own) :
    s.Consistent size held mine where
  nodes := h.size_nodes
  forward := fun _ hfuel => h.listed.walk_head (h.size_links ▸ hfuel)
  backward := fun _ hfuel => h.listed.walk_tail (h.size_links ▸ hfuel)
  once := h.listed.nodup
  listed := by
    intro place
    rw [h.mem_idle]
    simp
  holders := h.holders
  resident := h.resident
  unique := fun _ _ _ _ hown hown' hsame => h.place_unique hown hown' hsame
  keyed := h.keyed
  home := hmine
  resident_le := h.size_resident_le

/-- **A cache stays consistent**: after any gets and releases, with loaders
that fail or not, in every shard. -/
theorem reachable_consistent [EquivBEq K] [LawfulHashable K] {capacity : UInt32}
    {concurrency : UInt16} {spread : K → UInt64} {start : Cache K} {u : Lending K}
    (hstart : Cache.create capacity concurrency spread = .ok start) (hu : Reachable start u) :
    u.Consistent concurrency.toNat (capacity.toNat / concurrency.toNat) spread := by
  obtain ⟨hsound, hspread⟩ := hu.sound hstart
  refine ⟨hsound.shards, ?_⟩
  intro place hplace
  apply (hsound.shard place hplace).consistent
  intro node own hown
  have hhome := hsound.home place node own hplace hown
  rw [Cache.shardOf, hsound.shards, hspread] at hhome
  exact hhome

/-- A key is fetched, let go and found again while another is being held. -/
theorem consistent_after_run : ∃ (start : Cache Nat) (u : Lending Nat),
    Cache.create 4 2 Nat.toUInt64 = .ok start ∧ Reachable start u ∧
      u.out = [⟨1, 1⟩, ⟨0, 1⟩] ∧ u.Consistent 2 2 Nat.toUInt64 := by
  let start : Cache Nat := ⟨Array.replicate 2 (Shard.ofSize 2), Nat.toUInt64, 4, 2, 0, 0⟩
  let load : Unit → Except StoreError Bytes × Unit := fun world => (.ok [7], world)
  have hstart : Cache.create 4 2 Nat.toUInt64 = .ok start := rfl
  have hout : (Lending.get ⟨start, []⟩ 3 load ()).out = [⟨1, 1⟩] := by cbv
  have hreach : Reachable start
      ((((Lending.get ⟨start, []⟩ 3 load ()).release ⟨1, 1⟩).get 4 load ()).get 3 load ()) := by
    apply Reachable.get
    apply Reachable.get
    apply Reachable.release
    · exact .get .start 3 load ()
    · rw [hout]
      exact List.mem_singleton_self _
  exact ⟨start, _, hstart, hreach, by cbv, reachable_consistent hstart hreach⟩

end RecordStore.Cache
