import RecordStore.Cache.Shard

/-!
# Caches of loaded bytes

A cache has a **capacity** of nodes, split evenly over as many shards as its
**concurrency**.  A key always belongs to the same shard.  A cache whose
shards would have fewer nodes than there are concurrent operations is
refused, so operations that hold one reference each never exhaust it.

`Cache.get` yields a reference to the bytes of a key, which has to be
released; `none` says that every node of the key's shard is held.
-/

namespace RecordStore

/-- A cache of the bytes of keys. -/
structure Cache (K : Type) [BEq K] [Hashable K] where
  shards : Array (Cache.Shard K)
  /-- The number that decides the shard of a key. -/
  spread : K → UInt64
  /-- Nodes asked for when the cache was created. -/
  capacity : UInt32
  /-- The number of shards asked for. -/
  concurrency : UInt16
  /-- Keys that were resident when asked for. -/
  hits : Nat
  /-- Keys that were not. -/
  misses : Nat

namespace Cache

/-- A reference to a node. -/
structure Pin where
  shard : Nat
  node : Nat
  deriving DecidableEq, Repr

/-- A reference to a node together with its bytes. -/
structure Ref where
  pin : Pin
  data : Bytes
  deriving DecidableEq

/-- A reference as shown to people who look for faults. -/
def Ref.describe (ref : Ref) : String :=
  "CacheRef \x7b " ++ s!"node: {ref.pin.node}, len: {ref.data.length}" ++ " \x7d"

variable {K : Type} [BEq K] [Hashable K]

/-- An empty cache of `capacity` nodes in `concurrency` shards. -/
def create (capacity : UInt32) (concurrency : UInt16) (spread : K → UInt64) :
    Except StoreError (Cache K) :=
  let perShard := capacity.toNat / concurrency.toNat
  if concurrency = 0 ∨ perShard < concurrency.toNat then
    .error (.tooManyOperations capacity.toNat concurrency.toNat)
  else
    .ok {
      shards := Array.replicate concurrency.toNat (Shard.ofSize perShard)
      spread, capacity, concurrency
      hits := 0
      misses := 0 }

/-- The place of the shard that a key belongs to. -/
def shardOf (c : Cache K) (key : K) : Nat :=
  (c.spread key).toNat % c.shards.size

/-- The shard at a place. -/
def shard (c : Cache K) (place : Nat) : Shard K :=
  c.shards.getD place (Shard.ofSize 0)

/-- Gets a reference to the bytes of a key, which `load` fetches from
elsewhere if they are not resident.  None if every node of the key's shard is
held. -/
def get {σ : Type} (c : Cache K) (key : K) (load : σ → Except StoreError Bytes × σ) (world : σ) :
    (Except StoreError (Option Ref) × Cache K) × σ :=
  let place := c.shardOf key
  let ((answer, hit, shard), world) := (c.shard place).get key load world
  let c := { c with
    shards := c.shards.setIfInBounds place shard
    hits := if hit then c.hits + 1 else c.hits
    misses := if hit then c.misses else c.misses + 1 }
  match answer with
  | .held node data => ((.ok (some ⟨⟨place, node⟩, data⟩), c), world)
  | .exhausted => ((.ok none, c), world)
  | .failed e => ((.error e, c), world)

/-- Takes back a reference. -/
def release (c : Cache K) (pin : Pin) : Cache K :=
  { c with shards := c.shards.setIfInBounds pin.shard ((c.shard pin.shard).release pin.node) }

/-- The number of resident keys. -/
def length (c : Cache K) : Nat :=
  c.shards.foldl (fun n shard => n + shard.resident.size) 0

/-- What is known of a cache from outside. -/
structure Stats where
  hits : Nat
  misses : Nat
  capacity : UInt32
  concurrency : UInt16
  /-- Keys resident now. -/
  resident : Nat
  deriving DecidableEq, Repr

/-- What is known of a cache from outside. -/
def stats (c : Cache K) : Stats :=
  ⟨c.hits, c.misses, c.capacity, c.concurrency, c.length⟩

end Cache

end RecordStore
