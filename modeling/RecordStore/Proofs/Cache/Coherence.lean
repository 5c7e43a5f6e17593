import Mathlib
import RecordStore.Proofs.Cache.Eviction

/-!
# What a cache answers

The bytes that a get yields are those that were last loaded for its key; while
a key stays, it is not loaded again; and the counters add up to the history
(`coherent`).
-/

namespace RecordStore.Cache

variable {K : Type} [BEq K] [Hashable K] {σ : Type}

/-! ## Counting -/

namespace Event

/-- Was a key asked for? -/
def asks : Event K → Bool
  | .got .. => true
  | .released _ => false

/-- Was a key asked for in vain, with every node held? -/
def refused : Event K → Bool
  | .got _ _ _ (.ok none) => true
  | .got .. | .released _ => false

/-- How often the loader was asked. -/
def loads : Event K → Nat
  | .got _ calls _ _ => calls.length
  | .released _ => 0

end Event

/-- How often the loader was asked so far. -/
def loads (past : List (Event K)) : Nat :=
  (past.map Event.loads).sum

/-- A get counts as a hit or as a miss, and as a miss if it asks the loader, or
would have if not every node were held. -/
theorem counters_get (c : Cache K) (key : K) (load : σ → Except StoreError Bytes × σ)
    (world : σ) (evicted? : Option K) :
    let got := c.get key (logged load) (world, [])
    let event := Event.got key got.2.2 evicted? (got.1.1.map (Option.map Ref.data))
    got.1.2.hits + got.1.2.misses = c.hits + c.misses + 1 ∧
      got.1.2.misses = c.misses + event.loads + (if event.refused then 1 else 0) := by
  unfold Cache.get Shard.get logged
  dsimp only
  cases (c.shard (c.shardOf key)).resident[key]? with
  | some place => exact ⟨Nat.add_right_comm _ _ _, rfl⟩
  | none =>
      cases (c.shard (c.shardOf key)).idle.tail with
      | none => exact ⟨rfl, rfl⟩
      | some place => rcases load world with ⟨e | data, after⟩ <;> exact ⟨rfl, rfl⟩

/-- A get of a key that is there leaves the world alone, and counts as a
hit. -/
theorem get_of_resident {c : Cache K} {key : K} {bytes : Bytes}
    (hbytes : c.resident? key = some bytes) (load : σ → Except StoreError Bytes × σ) (world : σ) :
    c.evictee? key = none ∧ ∃ ref after, ref.data = bytes ∧
      c.get key load world = ((.ok (some ref), after), world) ∧ after.hits = c.hits + 1 := by
  obtain ⟨place, hplace, hdata⟩ := Option.map_eq_some_iff.mp hbytes
  refine ⟨by rw [evictee?, Shard.evictee?, hplace], ⟨⟨c.shardOf key, place⟩, bytes⟩, ?_⟩
  simp [Cache.get, Shard.get, hplace, Shard.reuse, hdata]

omit [BEq K] [Hashable K] in
/-- What a get yields is there afterwards. -/
theorem Outcome.there {before after : Option Bytes} {load : σ → Except StoreError Bytes × σ}
    {world world' : σ} {ref : Ref}
    (h : Outcome before load world (.ok (some ref)) after world') : after = some ref.data := by
  cases h <;> rfl

/-! ## Coherence -/

/-- What holds between what a cache answers and what was done with it.

* `latest`: a get yields the bytes that were last loaded for its key.
* `kept`: a get of a key that was loaded and has not left since is a hit, which
  does not ask the loader and leaves the world alone.
* `left`: a key that has left, as the history has it, is not there any more.
* `held`: while a reference is out, its key stays, and so do its bytes.
* `gets`, `loads`: the counters. -/
structure Usage.Coherent (u : Usage K) : Prop where
  latest : ∀ {σ : Type} {key : K} {load : σ → Except StoreError Bytes × σ} {world : σ} {ref : Ref},
    (u.cache.get key load world).1.1 = .ok (some ref) →
      lastLoaded? (u.get key load world).past key = some ref.data
  kept : ∀ {key : K} {bytes : Bytes}, kept? key u.past = some bytes →
    ∀ {σ : Type} (load : σ → Except StoreError Bytes × σ) (world : σ),
      (∃ ref after, ref.data = bytes ∧
        u.cache.get key load world = ((.ok (some ref), after), world) ∧
        after.hits = u.cache.hits + 1) ∧
      (u.get key load world).past = .got key [] none (.ok (some bytes)) :: u.past
  left : ∀ {σ : Type} (key : K) (load : σ → Except StoreError Bytes × σ) (world : σ) (other : K),
    Left u.cache (u.get key load world).cache other ↔
      ∃ event, (u.get key load world).past = event :: u.past ∧ event.evicted?.any (· == other)
  held : ∀ loan ∈ u.out,
    u.cache.resident? loan.key = some loan.ref.data ∧
      ((u.cache.shard loan.ref.pin.shard).node loan.ref.pin.node).data = loan.ref.data ∧
      ∀ {σ : Type} (key : K) (load : σ → Except StoreError Bytes × σ) (world : σ),
        ¬ Left u.cache (u.get key load world).cache loan.key
  gets : u.cache.hits + u.cache.misses = u.past.countP Event.asks
  loads : u.cache.misses = loads u.past + u.past.countP Event.refused

section

variable {capacity : UInt32} {concurrency : UInt16} {spread : K → UInt64} {start : Cache K}
  {u : Usage K}

/-- **The counters add up.** -/
theorem Used.counters (hstart : Cache.create capacity concurrency spread = .ok start)
    (hu : Used start u) : u.cache.hits + u.cache.misses = u.past.countP Event.asks ∧
      u.cache.misses = loads u.past + u.past.countP Event.refused := by
  induction hu with
  | start =>
      have hzero : start.hits = 0 ∧ start.misses = 0 := by
        unfold Cache.create at hstart
        simp only at hstart
        split at hstart
        · cases hstart
        · obtain rfl := Except.ok.inj hstart
          exact ⟨rfl, rfl⟩
      simp [hzero, loads]
  | @get σ u _ key load world ih =>
      obtain ⟨hgets, hloads⟩ := counters_get u.cache key load world (u.cache.evictee? key)
      constructor
      · rw [Usage.get, List.countP_cons_of_pos rfl, ← ih.1]
        exact hgets
      · have hsum : loads (u.get key load world).past =
            Event.loads (Event.got key _ (u.cache.evictee? key) _) + loads u.past := rfl
        show (u.cache.get key (logged load) (world, [])).1.2.misses = _
        rw [hsum, Usage.get, List.countP_cons, hloads, ih.2]
        omega
  | release _ _ ih =>
      obtain ⟨hgets, hmisses⟩ := ih
      constructor
      · rw [Usage.release, List.countP_cons_of_neg (by simp [Event.asks])]
        exact hgets
      · rw [Usage.release, List.countP_cons_of_neg (by simp [Event.refused]), loads, List.map_cons,
          List.sum_cons, Event.loads, Nat.zero_add]
        exact hmisses

variable [EquivBEq K] [LawfulHashable K]

/-- **A cache is coherent**, whatever was done with it so far. -/
theorem coherent (hspread : ∀ {a b : K}, a == b → spread a = spread b)
    (hstart : Cache.create capacity concurrency spread = .ok start) (hu : Used start u) :
    u.Coherent where
  latest := by
    intro σ key load world ref hanswer
    obtain ⟨-, -, hpos, -⟩ := sound_create hstart
    have houtcome : Outcome (u.cache.resident? key) load world (u.cache.get key load world).1.1
        ((u.cache.get key load world).1.2.resident? key) _ :=
      get_outcome (hu.sound hstart).1.lending hpos key load world
    have hafter := (hu.get key load world).resident?_eq hspread hstart key
    rw [Usage.cache_get] at hafter
    rw [hanswer] at houtcome
    apply lastLoaded?_of_kept?
    rw [← hafter]
    exact houtcome.there
  kept := by
    intro key bytes hkept σ load world
    rw [← hu.resident?_eq hspread hstart] at hkept
    obtain ⟨-, hhit⟩ := get_of_resident hkept load world
    obtain ⟨hevictee, ref, after, hbytes, hget, -⟩ :=
      get_of_resident hkept (logged load) (world, [])
    refine ⟨hhit, ?_⟩
    rw [Usage.get, hget, hevictee, ← hbytes]
    rfl
  left := by
    intro σ key load world other
    rw [hu.left_get_iff hspread hstart]
    constructor
    · intro hany
      exact ⟨_, rfl, hany⟩
    · rintro ⟨event, hpast, hany⟩
      obtain rfl := (List.cons.inj hpast).1
      exact hany
  held := by
    intro loan hloan
    have hplace := hu.shardOf_loan hloan
    have hlt := hu.shardOf_lt hstart loan.key
    obtain ⟨own, hown, hsame, hdata⟩ := (hu.sound hstart).1.has loan hloan
    refine ⟨?_, hdata, ?_⟩
    · rw [← hplace] at hown hdata
      exact (hu.shard hstart hlt).resident?_eq_some_iff.mpr ⟨_, own, hown, hsame, hdata⟩
    · exact (hu.not_left_of_held hspread hstart ⟨loan, hloan, BEq.rfl⟩).1
  gets := (hu.counters hstart).1
  loads := (hu.counters hstart).2

end

/-- A key is loaded, found, and found again when its loader would fail. -/
theorem coherent_when_loader_fails : ∃ (start : Cache Nat) (u : Usage Nat),
    Cache.create 2 1 Nat.toUInt64 = .ok start ∧ Used start u ∧ u.Coherent ∧
      u.past = [.got 1 [] none (.ok (some [7])), .got 1 [.ok [7]] none (.ok (some [7])),
        .got 1 [.error .readFailed] none (.error .readFailed)] := by
  let start : Cache Nat := ⟨#[Shard.ofSize 2], Nat.toUInt64, 2, 1, 0, 0⟩
  let load : Unit → Except StoreError Bytes × Unit := fun world => (.ok [7], world)
  let fail : Unit → Except StoreError Bytes × Unit := fun world => (.error .readFailed, world)
  have hstart : Cache.create 2 1 Nat.toUInt64 = .ok start := rfl
  have hused : Used start (((Usage.get ⟨start, [], []⟩ 1 fail ()).get 1 load ()).get 1 fail ()) :=
    .get (.get (.get .start 1 fail ()) 1 load ()) 1 fail ()
  have hspread : ∀ {a b : Nat}, a == b → Nat.toUInt64 a = Nat.toUInt64 b := by
    intro a b hsame
    rw [eq_of_beq hsame]
  exact ⟨start, _, hstart, hused, coherent hspread hstart hused, by cbv⟩

end RecordStore.Cache
