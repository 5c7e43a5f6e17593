import Std.Data.HashMap
import RecordStore.Bytes
import RecordStore.StoreError
import RecordStore.Cache.Recency

/-!
# A shard of a cache

A shard has a fixed number of nodes.  A node holds the bytes of one key, or
of none, and is **held** while references to it are out.  Nodes that nobody
holds are in a recency list; a key that is not resident is loaded into the
node at its tail, whose own key is forgotten first.  If every node is held,
nothing is loaded.

A failed load leaves its node without a key, next to be reused.
-/

namespace RecordStore.Cache

/-- A place for the bytes of one key. -/
structure Node (K : Type) where
  /-- The key whose bytes are here. -/
  key? : Option K
  /-- The bytes. -/
  data : Bytes
  /-- How many references are out. -/
  holders : Nat
  deriving Inhabited

/-- A fixed number of nodes, and where to find the resident keys. -/
structure Shard (K : Type) [BEq K] [Hashable K] where
  nodes : Array (Node K)
  /-- The node of every resident key. -/
  resident : Std.HashMap K Nat
  /-- The nodes nobody holds, in the order they were let go. -/
  idle : Recency

/-- What came of asking a shard for a key. -/
inductive Answer
  /-- The node of the key and its bytes; a reference is out. -/
  | held (node : Nat) (data : Bytes)
  /-- The key is not resident and every node is held. -/
  | exhausted
  /-- The key is not resident and loading it failed. -/
  | failed (e : StoreError)
  deriving DecidableEq

namespace Shard

variable {K : Type} [BEq K] [Hashable K]

/-- A shard of `size` nodes without keys. -/
def ofSize (size : Nat) : Shard K :=
  ⟨Array.replicate size ⟨none, [], 0⟩, ∅, Recency.all size⟩

/-- The node at a place. -/
def node (s : Shard K) (place : Nat) : Node K :=
  s.nodes.getD place ⟨none, [], 0⟩

/-- Gives out another reference to the node of a resident key. -/
def reuse (s : Shard K) (place : Nat) : Answer × Shard K :=
  let node := s.node place
  let idle := if node.holders = 0 then s.idle.unlink place else s.idle
  let nodes := s.nodes.setIfInBounds place { node with holders := node.holders + 1 }
  (.held place node.data, { s with nodes, idle })

/-- Takes the idle node at a place out of the list and forgets its key. -/
def evict (s : Shard K) (place : Nat) : Shard K :=
  let node := s.node place
  let resident :=
    match node.key? with
    | some key => s.resident.erase key
    | none => s.resident
  { nodes := s.nodes.setIfInBounds place { node with key? := none }
    resident
    idle := s.idle.unlink place }

/-- Puts the loaded bytes of a key into an evicted node and gives out a
reference to it. -/
def fill (s : Shard K) (place : Nat) (key : K) (data : Bytes) : Shard K :=
  { s with
    nodes := s.nodes.setIfInBounds place ⟨some key, data, 1⟩
    resident := s.resident.insert key place }

/-- Gives an evicted node back as the next to be reused. -/
def abandon (s : Shard K) (place : Nat) : Shard K :=
  { s with
    nodes := s.nodes.setIfInBounds place { s.node place with data := [] }
    idle := s.idle.linkTail place }

/-- Asks for a key, which `load` fetches from elsewhere if it has to.  Says
whether the key was resident. -/
def get {σ : Type} (s : Shard K) (key : K) (load : σ → Except StoreError Bytes × σ) (world : σ) :
    (Answer × Bool × Shard K) × σ :=
  match s.resident[key]? with
  | some place =>
    let (answer, s) := s.reuse place
    ((answer, true, s), world)
  | none =>
    match s.idle.tail with
    | none => ((.exhausted, false, s), world)
    | some place =>
      let s := s.evict place
      match load world with
      | (.ok data, world) => ((.held place data, false, s.fill place key data), world)
      | (.error e, world) => ((.failed e, false, s.abandon place), world)

/-- Takes back a reference to the node at a place. -/
def release (s : Shard K) (place : Nat) : Shard K :=
  let node := s.node place
  let holders := node.holders - 1
  { s with
    nodes := s.nodes.setIfInBounds place { node with holders }
    idle := if holders = 0 then s.idle.linkHead place else s.idle }

end Shard

end RecordStore.Cache
