import Mathlib
import RecordStore.Proofs.Cache.History

/-!
# Which key leaves a cache

A key leaves only when another is loaded in its place.  It is then the one that
was let go longest ago among those of its shard that nobody holds
(`evicts_oldest`).
-/

namespace RecordStore.Cache

variable {K : Type} [BEq K] [Hashable K] {σ : Type}

/-- A key was in the cache and is not any more. -/
def Left (c c' : Cache K) (key : K) : Prop :=
  c.resident? key ≠ none ∧ c'.resident? key = none

theorem Usage.cache_get (u : Usage K) (key : K) (load : σ → Except StoreError Bytes × σ)
    (world : σ) : (u.get key load world).cache = (u.cache.get key load world).1.2 :=
  congrArg Prod.snd (get_logged u.cache key load world []).1

/-- The key that a get drops is in the queue, and the key that is got is not
there. -/
theorem Shard.Sound.idle_of_evictee? {s : Shard K} {size : Nat} {held : Nat → Nat} {key old : K}
    (h : s.Sound size held none) (hold : s.evictee? key = some old) :
    s.resident? key = none ∧ old ∈ s.shelf.idle := by
  unfold Shard.evictee? at hold
  split at hold
  · cases hold
  · next hmiss =>
      obtain ⟨place, htail, hown⟩ := Option.bind_eq_some_iff.mp hold
      refine ⟨?_, List.mem_filterMap.mpr ⟨place, h.mem_of_tail htail, hown⟩⟩
      rw [Shard.resident?, hmiss]
      rfl

section

variable {capacity : UInt32} {concurrency : UInt16} {spread : K → UInt64} {start : Cache K}
  {u : Usage K} {place : Nat} {key old : K} [EquivBEq K] [LawfulHashable K]
  (hspread : ∀ {a b : K}, a == b → spread a = spread b)
  (hstart : Cache.create capacity concurrency spread = .ok start) (hu : Used start u)

include hstart hu

/-- A key that is there while nobody holds it is in the queue of its shard. -/
theorem Used.idle_of_unheld (hthere : u.cache.resident? key ≠ none) (hfree : ¬ u.Held key) :
    ∃ own ∈ (u.cache.shard (u.cache.shardOf key)).shelf.idle, own == key := by
  obtain ⟨hsound, -⟩ := hu.sound hstart
  have hshard := hu.shard hstart (hu.shardOf_lt hstart key)
  obtain ⟨bytes, hbytes⟩ := Option.ne_none_iff_exists'.mp hthere
  obtain ⟨node, own, hown, hsame, -⟩ := hshard.resident?_eq_some_iff.mp hbytes
  have hidle : ((u.cache.shard (u.cache.shardOf key)).node node).holders = 0 := by
    by_contra hheld
    have hcount := hshard.holders node
    have hpos : 0 < (u.out.map (·.ref.pin)).count (⟨u.cache.shardOf key, node⟩ : Pin) :=
      hcount ▸ Nat.pos_of_ne_zero hheld
    obtain ⟨loan, hloan, hpin⟩ := List.mem_map.mp (List.count_pos_iff.mp hpos)
    obtain ⟨own', hown', hsame', -⟩ := hsound.has loan hloan
    rw [hpin] at hown'
    have heq : own = own' := Option.some.inj (hown.symm.trans hown')
    exact hfree ⟨loan, hloan, BEq.trans (BEq.symm (heq ▸ hsame')) hsame⟩
  have hmem := (hshard.mem_idle node).mpr
    ⟨hshard.size_nodes ▸ Shard.lt_size_of_key hown, hidle, by simp⟩
  exact ⟨own, List.mem_filterMap.mpr ⟨node, hmem, hown⟩, hsame⟩

include hspread

/-- A key in a queue is there, and nobody holds it. -/
theorem Used.unheld_of_idle (hplace : place < concurrency.toNat)
    (hold : old ∈ (u.cache.shard place).shelf.idle) :
    u.cache.shardOf old = place ∧ u.cache.resident? old ≠ none ∧ ¬ u.Held old := by
  obtain ⟨hsound, -⟩ := hu.sound hstart
  have hshard := hu.shard hstart hplace
  obtain ⟨node, hmem, hown⟩ := List.mem_filterMap.mp hold
  have hhome : u.cache.shardOf old = place := hsound.lending.home _ node old hplace hown
  refine ⟨hhome, ?_, ?_⟩
  · rw [resident?, hhome, hshard.resident?_eq_some_iff.mpr ⟨node, old, hown, BEq.rfl, rfl⟩]
    simp
  · rintro ⟨loan, hloan, hsame⟩
    obtain ⟨own', hown', hsame', -⟩ := hsound.has loan hloan
    have hpin : loan.ref.pin.shard = place := by
      rw [← hu.shardOf_loan hloan, ← hhome, hu.shardOf_eq hstart,
        hu.shardOf_eq hstart, hspread hsame]
    have hpos := Usage.pos_of_mem hloan
    rw [hpin] at hown' hpos
    have hnode := hshard.place_unique hown hown' (BEq.trans (BEq.symm hsame) (BEq.symm hsame'))
    have hzero := ((hshard.mem_idle node).mp hmem).2.1
    rw [hshard.holders, hnode] at hzero
    exact absurd hzero (Nat.ne_of_gt hpos)

/-- **The key that leaves at a get is the one it drops.** -/
theorem Used.left_get_iff (key : K) (load : σ → Except StoreError Bytes × σ) (world : σ)
    (other : K) : Left u.cache (u.get key load world).cache other ↔
      (u.cache.evictee? key).any (· == other) := by
  have hshard := hu.shard hstart (hu.shardOf_lt hstart key)
  have hbefore := hu.resident?_eq hspread hstart other
  have hafter := (hu.get key load world).resident?_eq hspread hstart other
  rw [Left, hafter]
  show _ ∧ kept? other (_ :: u.past) = none ↔ _
  rw [kept?]
  constructor
  · rintro ⟨hthere, hgone⟩
    by_contra hstays
    split at hgone
    · cases hgone
    · have hrest : (if (u.cache.evictee? key).any (· == other) then none
          else kept? other u.past) = none := hgone
      rw [if_neg hstays, ← hbefore] at hrest
      exact hthere hrest
  · intro hany
    obtain ⟨old, hold, hsame⟩ := Option.any_eq_true _ _ |>.mp hany
    obtain ⟨hmiss, hmem⟩ := hshard.idle_of_evictee? hold
    have hthere : u.cache.resident? other ≠ none := by
      rw [← hu.resident?_congr hspread hstart hsame]
      exact (hu.unheld_of_idle hspread hstart (hu.shardOf_lt hstart key) hmem).2.1
    refine ⟨hthere, ?_⟩
    have hne : ¬ key == other := by
      intro heq
      rw [← hu.resident?_congr hspread hstart heq] at hthere
      exact hthere hmiss
    have hloaded : ∀ calls answer,
        (Event.got key calls (u.cache.evictee? key) answer).loaded? other = none :=
      fun _ _ => if_neg hne
    rw [hloaded]
    exact if_pos hany

/-- **No operation makes a key leave that somebody holds.** -/
theorem Used.not_left_of_held (hheld : u.Held old) :
    (∀ {σ : Type} (key : K) (load : σ → Except StoreError Bytes × σ) (world : σ),
      ¬ Left u.cache (u.get key load world).cache old) ∧
    ∀ loan rest, ¬ Left u.cache (u.release loan rest).cache old := by
  constructor
  · intro σ key load world hleft
    rw [hu.left_get_iff hspread hstart] at hleft
    obtain ⟨dropped, hdropped, hsame⟩ := Option.any_eq_true _ _ |>.mp hleft
    have hlt := hu.shardOf_lt hstart key
    obtain ⟨-, hmem⟩ := (hu.shard hstart hlt).idle_of_evictee? hdropped
    obtain ⟨loan, hloan, hkey⟩ := hheld
    exact (hu.unheld_of_idle hspread hstart hlt hmem).2.2
      ⟨loan, hloan, BEq.trans hkey (BEq.symm hsame)⟩
  · rintro loan rest ⟨hthere, hgone⟩
    have hsame : (u.release loan rest).cache.resident? old = u.cache.resident? old :=
      resident?_release u.cache loan.ref.pin old
    rw [hsame] at hgone
    exact hthere hgone

end

/-! ## The order of eviction -/

namespace Usage

/-- A key is there, and nobody holds it. -/
def Idle (u : Usage K) (key : K) : Prop :=
  u.cache.resident? key ≠ none ∧ ¬ u.Held key

/-- A get of a key loads it. -/
def Loads (u : Usage K) (key : K) (load : σ → Except StoreError Bytes × σ) (world : σ) : Prop :=
  u.cache.resident? key = none ∧ ∃ ref, (u.cache.get key load world).1.1 = .ok (some ref)

/-- The shard of a key has a node without a key. -/
def Spare (u : Usage K) (size : Nat) (key : K) : Prop :=
  ∃ node < size, ((u.cache.shard (u.cache.shardOf key)).node node).key? = none

/-- How keys leave the `count` shards of a cache, of `size` nodes each, to
which `spread` assigns the keys.  Each is a shelf whose queue has the idle keys
in the order in which they were let go.  A load makes no key leave if there is
a node to spare, and the one idle key that was let go longest ago if not.  No
operation makes a key leave that is held. -/
structure Orderly (u : Usage K) (count size : Nat) (spread : K → UInt64) : Prop where
  shelves : ∀ place < count, Shelf.Runs size (fun key => (spread key).toNat % count = place)
    u.past (u.cache.shard place).shelf
  queued : ∀ key, u.Idle key ↔
    ∃ own ∈ (u.cache.shard (u.cache.shardOf key)).shelf.idle, own == key
  inOrder : ∀ place < count, (u.cache.shard place).shelf.InOrder u.past
  spared : ∀ {σ : Type} {key : K} {load : σ → Except StoreError Bytes × σ} {world : σ},
    u.Loads key load world → u.Spare size key →
      ∀ other, ¬ Left u.cache (u.get key load world).cache other
  oldest : ∀ {σ : Type} {key : K} {load : σ → Except StoreError Bytes × σ} {world : σ},
    u.Loads key load world → ¬ u.Spare size key →
      ∃ old, u.Idle old ∧ u.cache.shardOf old = u.cache.shardOf key ∧
        (∀ other, u.Idle other → u.cache.shardOf other = u.cache.shardOf key → ¬ old == other →
          age u.past other < age u.past old) ∧
        ∀ other, Left u.cache (u.get key load world).cache other ↔ old == other
  held : ∀ {key : K}, u.Held key →
    (∀ {σ : Type} (other : K) (load : σ → Except StoreError Bytes × σ) (world : σ),
      ¬ Left u.cache (u.get other load world).cache key) ∧
    ∀ loan rest, ¬ Left u.cache (u.release loan rest).cache key

end Usage

section

variable {capacity : UInt32} {concurrency : UInt16} {spread : K → UInt64} {start : Cache K}
  {u : Usage K} {key : K} {load : σ → Except StoreError Bytes × σ} {world : σ}
  [EquivBEq K] [LawfulHashable K]
  (hstart : Cache.create capacity concurrency spread = .ok start) (hu : Used start u)

include hstart hu

/-- A get that loads a key drops the oldest in the queue, and none if there is
a node to spare. -/
theorem Used.evictee?_of_loads (hloads : u.Loads key load world) :
    u.cache.evictee? key = (u.cache.shard (u.cache.shardOf key)).shelf.oldest? ∧
      ∃ room, (u.cache.shard (u.cache.shardOf key)).shelf.makeRoom? = some room := by
  obtain ⟨hmiss, ref, hanswer⟩ := hloads
  have hlt := hu.shardOf_lt hstart key
  have hshard := hu.shard hstart hlt
  obtain ⟨answer, hit, s', hgets, hresult, -, -⟩ :=
    get_course u.cache key (logged load) (world, [])
  have hbytes : answer.bytes = .ok (some ref.data) := by
    rw [← bytes_lent answer (u.cache.shardOf key), ← hresult,
      (get_logged u.cache key load world []).1, hanswer]
    rfl
  have hstep := (hgets.step hshard ((hu.sound hstart).1.first _ hlt)).1
  rw [hbytes] at hstep
  apply hstep.evicted_of_miss
  rw [resident?, hshard.resident?_eq] at hmiss
  exact Option.map_eq_none_iff.mp hmiss

/-- A shard has a node without a key if the shelf behind it has a free
entry. -/
theorem Used.spare_iff (key : K) : u.Spare (capacity.toNat / concurrency.toNat) key ↔
    (u.cache.shard (u.cache.shardOf key)).shelf.free ≠ 0 := by
  have hshard := hu.shard hstart (hu.shardOf_lt hstart key)
  rw [ne_eq, Shard.free_eq_zero_iff hshard.size_nodes]
  simp [Usage.Spare]

variable (hspread : ∀ {a b : K}, a == b → spread a = spread b)

include hspread

/-- **A load into a full shard makes the oldest idle key leave.** -/
theorem Used.oldest_of_loads (hloads : u.Loads key load world)
    (hfull : ¬ u.Spare (capacity.toNat / concurrency.toNat) key) :
    ∃ old, u.cache.evictee? key = some old ∧ u.Idle old ∧
      u.cache.shardOf old = u.cache.shardOf key ∧
      ∀ other, u.Idle other → u.cache.shardOf other = u.cache.shardOf key → ¬ old == other →
        age u.past other < age u.past old := by
  have hlt := hu.shardOf_lt hstart key
  have hruns := hu.runs hstart hlt
  have horder := hruns.inOrder fun hsame hmine => by
    rw [← hspread hsame]
    exact hmine
  obtain ⟨hevictee, room, hroom⟩ := hu.evictee?_of_loads hstart hloads
  rw [hu.spare_iff hstart, not_not] at hfull
  rcases Shelf.makeRoom?_cases hroom with ⟨hfree, -, -⟩ | ⟨old, front, hold, hsplit, -⟩
  · omega
  · have hmem : old ∈ (u.cache.shard (u.cache.shardOf key)).shelf.idle := by
      rw [hsplit]
      simp
    obtain ⟨hplace, hthere, hfree⟩ := hu.unheld_of_idle hspread hstart hlt hmem
    refine ⟨old, hevictee.trans hold, ⟨hthere, hfree⟩, hplace, ?_⟩
    intro other hidle hhome hne
    obtain ⟨own, hown, hsame⟩ := hu.idle_of_unheld hstart hidle.1 hidle.2
    have hsorted := horder.sorted
    rw [hhome, hsplit, List.mem_append, List.mem_singleton] at hown
    rw [hsplit, List.pairwise_append] at hsorted
    rcases hown with hfront | rfl
    · rw [← age_congr u.past hsame]
      exact hsorted.2.2 own hfront old (List.mem_singleton_self _)
    · exact absurd hsame hne

/-- **A cache evicts the idle key that was let go longest ago**, whatever was
done with it so far. -/
theorem evicts_oldest :
    u.Orderly concurrency.toNat (capacity.toNat / concurrency.toNat) spread where
  shelves := fun place hplace => hu.runs hstart hplace
  inOrder := by
    intro place hplace
    apply (hu.runs hstart hplace).inOrder
    intro a b hsame hmine
    rw [← hspread hsame]
    exact hmine
  queued := by
    intro key
    constructor
    · rintro ⟨hthere, hfree⟩
      exact hu.idle_of_unheld hstart hthere hfree
    · rintro ⟨own, hown, hsame⟩
      obtain ⟨-, hthere, hfree⟩ :=
        hu.unheld_of_idle hspread hstart (hu.shardOf_lt hstart key) hown
      refine ⟨hu.resident?_congr hspread hstart hsame ▸ hthere, ?_⟩
      rintro ⟨loan, hloan, hkey⟩
      exact hfree ⟨loan, hloan, BEq.trans hkey (BEq.symm hsame)⟩
  spared := by
    intro σ key load world hloads hspare other
    rw [hu.spare_iff hstart] at hspare
    rw [hu.left_get_iff hspread hstart, (hu.evictee?_of_loads hstart hloads).1, Shelf.oldest?,
      if_neg hspare]
    simp
  oldest := by
    intro σ key load world hloads hfull
    obtain ⟨old, hevictee, hidle, hplace, hage⟩ :=
      hu.oldest_of_loads hstart hspread hloads hfull
    refine ⟨old, hidle, hplace, hage, ?_⟩
    intro other
    rw [hu.left_get_iff hspread hstart, hevictee, Option.any_some]
  held := fun hheld => hu.not_left_of_held hspread hstart hheld

end

/-- Two keys come in and are let go; a third sends away the first. -/
theorem evicts_first_of_two : ∃ (start : Cache Nat) (u : Usage Nat),
    Cache.create 2 1 Nat.toUInt64 = .ok start ∧ Used start u ∧
      u.Orderly 1 2 Nat.toUInt64 ∧ u.past.map Event.key = [2, 1, 2, 1] ∧
      u.cache.evictee? 3 = some 1 := by
  let start : Cache Nat := ⟨#[Shard.ofSize 2], Nat.toUInt64, 2, 1, 0, 0⟩
  let load : Unit → Except StoreError Bytes × Unit := fun world => (.ok [7], world)
  have hstart : Cache.create 2 1 Nat.toUInt64 = .ok start := rfl
  let both := (Usage.get ⟨start, [], []⟩ 1 load ()).get 2 load ()
  have hout : both.out = [⟨2, ⟨⟨0, 0⟩, [7]⟩⟩, ⟨1, ⟨⟨0, 1⟩, [7]⟩⟩] := by cbv
  have hboth : Used start both := .get (.get .start 1 load ()) 2 load ()
  have hfirst : Used start (both.release ⟨1, ⟨⟨0, 1⟩, [7]⟩⟩ [⟨2, ⟨⟨0, 0⟩, [7]⟩⟩]) :=
    hboth.release (hout ▸ List.Perm.swap _ _ _)
  have hused := hfirst.release (List.Perm.refl _)
  have hspread : ∀ {a b : Nat}, a == b → Nat.toUInt64 a = Nat.toUInt64 b := by
    intro a b hsame
    rw [eq_of_beq hsame]
  exact ⟨start, _, hstart, hused, evicts_oldest hstart hused hspread, by cbv, by cbv⟩

end RecordStore.Cache
