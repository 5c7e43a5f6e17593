import Mathlib
import RecordStore.Proofs.Cache.Contents
import RecordStore.Proofs.Cache.ShardShelf

/-!
# When a cache has nothing to give

A get comes away empty-handed if its key is not there and there is a reference
to each of the nodes that it could be loaded into, and not otherwise.  It has
then changed nothing, except that it counts as a miss, and has asked no loader
(`backpressure_exact`).

A cache is only created if each shard has as many nodes as there are to be
concurrent operations.  So as long as fewer references than that are out in
all shards together, every get has a node, whatever shards the keys are
assigned to.
-/

namespace RecordStore.Cache

variable {K : Type} [BEq K] [Hashable K] {σ : Type}

/-- Putting a shard back where it was changes nothing. -/
theorem setIfInBounds_shard (c : Cache K) (place : Nat) :
    c.shards.setIfInBounds place (c.shard place) = c.shards := by
  by_cases hbound : place < c.shards.size
  · have hshard : c.shard place = c.shards[place] := by
      simp [Cache.shard, Array.getD_eq_getD_getElem?, hbound]
    rw [hshard, Array.setIfInBounds_def, dif_pos hbound, Array.set_getElem_self]
  · exact Array.setIfInBounds_eq_of_size_le (Nat.le_of_not_lt hbound)

/-- **A get that comes away empty-handed** has changed only the number of
misses. -/
theorem get_of_eq_none {c : Cache K} {key : K} {load : σ → Except StoreError Bytes × σ} {world : σ}
    (h : (c.get key load world).1.1 = .ok none) :
    c.get key load world = ((.ok none, { c with misses := c.misses + 1 }), world) := by
  have hsame := c.setIfInBounds_shard (c.shardOf key)
  unfold Cache.get Shard.get at h ⊢
  dsimp only at h ⊢
  cases hresident : (c.shard (c.shardOf key)).resident[key]? with
  | some place =>
      rw [hresident] at h
      cases h
  | none =>
      cases htail : (c.shard (c.shardOf key)).idle.tail with
      | none => simp [hsame]
      | some place =>
          rw [hresident, htail] at h
          rcases hload : load world with ⟨_ | _, _⟩ <;> simp [hload] at h

/-- When the gets of a cache of `count` shards, of `size` nodes each, to which
`spread` assigns the keys, come away empty-handed, and what comes of them then.

* `refused`: exactly if the key is not there, and there is a reference to each
  node of its shard.
* `unchanged`: nothing changes but the number of misses.
* `unasked`: the loader is not asked.
* `ready`: never while fewer references than `count` are out. -/
structure Lending.Backpressure (u : Lending K) (count size : Nat) (spread : K → UInt64) :
    Prop where
  refused : ∀ {σ : Type} (key : K) (load : σ → Except StoreError Bytes × σ) (world : σ),
    (u.cache.get key load world).1.1 = .ok none ↔ u.cache.resident? key = none ∧
      ∀ node < size, (⟨(spread key).toNat % count, node⟩ : Pin) ∈ u.out
  unchanged : ∀ {σ : Type} (key : K) (load : σ → Except StoreError Bytes × σ) (world : σ),
    (u.cache.get key load world).1.1 = .ok none →
      u.get key load world = { u with cache := { u.cache with misses := u.cache.misses + 1 } }
  unasked : ∀ {σ : Type} (key : K) (load : σ → Except StoreError Bytes × σ) (world : σ),
    (u.cache.get key load world).1.1 = .ok none →
      (u.cache.get key (logged load) (world, [])).2 = (world, [])
  ready : u.out.length < count → ∀ {σ : Type} (key : K)
    (load : σ → Except StoreError Bytes × σ) (world : σ),
      (u.cache.get key load world).1.1 ≠ .ok none

section

variable {capacity : UInt32} {concurrency : UInt16} {spread : K → UInt64} {start : Cache K}
  {u : Lending K}

/-- Every shard has as many nodes as there are to be concurrent operations. -/
theorem le_of_create (h : Cache.create capacity concurrency spread = .ok start) :
    concurrency.toNat ≤ capacity.toNat / concurrency.toNat := by
  unfold Cache.create at h
  simp only at h
  split at h
  · cases h
  · next hok => exact Nat.le_of_not_lt fun hlt => hok (.inr hlt)

variable [EquivBEq K] [LawfulHashable K]

/-- **Backpressure is exact**, after any gets and releases. -/
theorem backpressure_exact (hstart : Cache.create capacity concurrency spread = .ok start)
    (hu : Reachable start u) :
    u.Backpressure concurrency.toNat (capacity.toNat / concurrency.toNat) spread := by
  obtain ⟨-, -, hpos, -⟩ := sound_create hstart
  obtain ⟨hsound, hspread⟩ := hu.sound hstart
  have hplace : ∀ key, u.cache.shardOf key = (spread key).toNat % concurrency.toNat := by
    intro key
    rw [shardOf, hspread, hsound.shards]
  -- whether a get is refused does not depend on its loader
  have hrefused : ∀ {σ : Type} (key : K) (load : σ → Except StoreError Bytes × σ) (world : σ),
      (u.cache.get key load world).1.1 = .ok none ↔ u.cache.resident? key = none ∧
        ∀ node < capacity.toNat / concurrency.toNat,
          (⟨(spread key).toNat % concurrency.toNat, node⟩ : Pin) ∈ u.out := by
    intro σ key load world
    rw [get_eq_none_iff hsound hpos, hsound.full_iff hpos, hplace]
  refine ⟨hrefused, ?_, ?_, ?_⟩
  · intro σ key load world hnone
    unfold Lending.get
    rw [get_of_eq_none hnone]
    rfl
  · intro σ key load world hnone
    have hlogged := (hrefused key (logged load) (world, [])).mpr
      ((hrefused key load world).mp hnone)
    rw [get_of_eq_none hlogged]
  · intro hfew σ key load world hnone
    have hfull := ((get_eq_none_iff hsound hpos key load world).mp hnone).2
    exact hsound.not_full_of_lt hpos (hfew.trans_le (le_of_create hstart)) key hfull

end

/-- One node, which is held: another key cannot be had, and the one that is
there still can. -/
theorem backpressure_of_one : ∃ (start : Cache Nat) (u : Lending Nat),
    Cache.create 1 1 Nat.toUInt64 = .ok start ∧ Reachable start u ∧
      u.Backpressure 1 1 Nat.toUInt64 ∧ u.out = [⟨0, 0⟩] ∧
      (u.cache.get 2 (fun world : Unit => (.ok [7], world)) ()).1.1 = .ok none ∧
      (u.cache.get 1 (fun world : Unit => (.ok [7], world)) ()).1.1 =
        .ok (some ⟨⟨0, 0⟩, [7]⟩) := by
  let start : Cache Nat := ⟨#[Shard.ofSize 1], Nat.toUInt64, 1, 1, 0, 0⟩
  let load : Unit → Except StoreError Bytes × Unit := fun world => (.ok [7], world)
  have hstart : Cache.create 1 1 Nat.toUInt64 = .ok start := rfl
  have hreach : Reachable start (Lending.get ⟨start, []⟩ 1 load ()) := .get .start 1 load ()
  exact ⟨start, _, hstart, hreach, backpressure_exact hstart hreach, by cbv, by cbv, by cbv⟩

end RecordStore.Cache
