/-!
# Recency lists

The nodes of a shard that nobody holds are kept in the order in which they
were let go, as a list linked both ways through the nodes' places: the most
recent at the head, the next to be reused at the tail.  Linking and
unlinking touch a node and its neighbours only.

`fromHead` is the list; `walk` follows its links either way.
-/

namespace RecordStore.Cache

/-- The neighbours of a node in the list. -/
structure Link where
  /-- The neighbour toward the head. -/
  newer : Option Nat
  /-- The neighbour toward the tail. -/
  older : Option Nat
  deriving DecidableEq, Repr, Inhabited

/-- A list of places, linked both ways. -/
structure Recency where
  /-- The neighbours of every place. -/
  links : Array Link
  /-- The most recent place. -/
  head : Option Nat
  /-- The next place to be reused. -/
  tail : Option Nat
  deriving Repr

namespace Recency

/-- No place in the list, of `size` there are. -/
def none (size : Nat) : Recency :=
  ⟨Array.replicate size ⟨.none, .none⟩, .none, .none⟩

/-- The neighbours of a place. -/
def link (r : Recency) (place : Nat) : Link :=
  r.links.getD place ⟨.none, .none⟩

/-- Sets the neighbour of `place?` toward the head; of nothing, the tail. -/
def setNewer (r : Recency) (place? newer : Option Nat) : Recency :=
  match place? with
  | some place => { r with links := r.links.modify place ({ · with newer }) }
  | .none => { r with tail := newer }

/-- Sets the neighbour of `place?` toward the tail; of nothing, the head. -/
def setOlder (r : Recency) (place? older : Option Nat) : Recency :=
  match place? with
  | some place => { r with links := r.links.modify place ({ · with older }) }
  | .none => { r with head := older }

/-- Puts a place before all others. -/
def linkHead (r : Recency) (place : Nat) : Recency :=
  let r := { r with links := r.links.setIfInBounds place ⟨.none, r.head⟩ }
  let r := r.setNewer r.head (some place)
  { r with head := some place }

/-- Puts a place after all others. -/
def linkTail (r : Recency) (place : Nat) : Recency :=
  let r := { r with links := r.links.setIfInBounds place ⟨r.tail, .none⟩ }
  let r := r.setOlder r.tail (some place)
  { r with tail := some place }

/-- Takes a place out of the list. -/
def unlink (r : Recency) (place : Nat) : Recency :=
  let link := r.link place
  let r := r.setOlder link.newer link.older
  let r := r.setNewer link.older link.newer
  { r with links := r.links.setIfInBounds place ⟨.none, .none⟩ }

/-- All of `size` places, the first at the head. -/
def all (size : Nat) : Recency :=
  (List.range size).foldl linkTail (none size)

/-- At most `fuel` places from `place?` on, each the one before's neighbour in
a direction. -/
def walk (r : Recency) (onward : Link → Option Nat) : (fuel : Nat) → Option Nat → List Nat
  | 0, _ => []
  | _ + 1, .none => []
  | fuel + 1, some place => place :: walk r onward fuel (onward (r.link place))

/-- The places from the most recent on. -/
def fromHead (r : Recency) : List Nat :=
  r.walk Link.older (r.links.size + 1) r.head

end Recency

end RecordStore.Cache
