import Mathlib
import RecordStore.Cache.Shard

/-!
# Shelves

A shelf is what a shard looks like from outside: so many entries, each free or
with a key, and a queue of the keys nobody holds, the last let go first.  A key
that comes in takes a free entry; if there is none, the key that was let go
longest ago has to leave.

`Shelf.Step` are the things that can be done with a shelf, and what comes of
them; `Shelf.Runs` are the histories that a shelf can have.
-/

namespace RecordStore.Cache

variable {K : Type}

/-! ## Histories -/

/-- Something that was done with a cache. -/
inductive Event (K : Type)
  /-- A key was asked for.  `calls` are the answers of the loader, as often as
  it was asked, and `evicted?` is the key that had to leave. -/
  | got (key : K) (calls : List (Except StoreError Bytes)) (evicted? : Option K)
      (answer : Except StoreError (Option Bytes))
  /-- A reference to a key was given back. -/
  | released (key : K)

namespace Event

/-- The key that something was done with. -/
def key : Event K → K
  | .got key _ _ _ => key
  | .released key => key

/-- The key that had to leave. -/
def evicted? : Event K → Option K
  | .got _ _ evicted? _ => evicted?
  | .released _ => none

variable [BEq K]

/-- Was a reference to a key given back? -/
def releases (key : K) : Event K → Bool
  | .got .. => false
  | .released other => other == key

/-- The bytes that were loaded for a key. -/
def loaded? (key : K) : Event K → Option Bytes
  | .got other calls _ _ => if other == key then calls.findSome? Except.toOption else none
  | .released _ => none

end Event

section

variable [BEq K]

/-- How many events ago a reference to a key was last given back. -/
def age (past : List (Event K)) (key : K) : Nat :=
  past.findIdx (·.releases key)

/-- The bytes that were last loaded for a key. -/
def lastLoaded? (past : List (Event K)) (key : K) : Option Bytes :=
  past.findSome? (·.loaded? key)

/-- The bytes that were last loaded for a key, if it has not left since. -/
def kept? (key : K) : List (Event K) → Option Bytes
  | [] => none
  | event :: past =>
    match event.loaded? key with
    | some bytes => some bytes
    | none => if event.evicted?.any (· == key) then none else kept? key past

end

/-! ## Shelves -/

/-- A key that is on a shelf. -/
structure Entry (K : Type) where
  /-- The key as it was when it came in. -/
  key : K
  data : Bytes
  /-- How many references are out. -/
  holders : Nat

/-- Entries, some with keys. -/
@[ext] structure Shelf (K : Type) where
  /-- How many entries have no key. -/
  free : Nat
  /-- The keys nobody holds, the last let go first. -/
  idle : List K
  known? : K → Option (Entry K)

namespace Shelf

/-- A shelf without keys. -/
def empty (size : Nat) : Shelf K :=
  ⟨size, [], fun _ => none⟩

/-- The key that has to leave when another comes in. -/
def oldest? (q : Shelf K) : Option K :=
  if q.free = 0 then q.idle.getLast? else none

variable [BEq K]

/-- Changes what is known of a key. -/
def set (q : Shelf K) (key : K) (known? : Option (Entry K)) : Shelf K :=
  { q with known? := fun other => if key == other then known? else q.known? other }

/-- Gives out another reference to a key, which leaves the queue if it was in
it. -/
def lend (q : Shelf K) (entry : Entry K) : Shelf K :=
  { q.set entry.key (some { entry with holders := entry.holders + 1 }) with
    idle := q.idle.filter fun other => !other == entry.key }

/-- The shelf with a free entry; none if every entry is held. -/
def makeRoom? (q : Shelf K) : Option (Shelf K) :=
  if 0 < q.free then some q
  else q.idle.getLast?.map fun old => { q.set old none with free := 1, idle := q.idle.dropLast }

/-- Puts a key into a free entry and gives out a reference to it. -/
def put (q : Shelf K) (key : K) (data : Bytes) : Shelf K :=
  { q.set key (some ⟨key, data, 1⟩) with free := q.free - 1 }

/-- Takes back a reference to a key, which joins the queue if that was the
last. -/
def giveBack (q : Shelf K) (entry : Entry K) : Shelf K :=
  { q.set entry.key (some { entry with holders := entry.holders - 1 }) with
    idle := if entry.holders - 1 = 0 then entry.key :: q.idle else q.idle }

/-- What can be done with a shelf: get a key that is there, that is not there
while every entry is held, or that is loaded, perhaps in vain; and give back a
reference. -/
inductive Step (q : Shelf K) : Event K → Shelf K → Prop
  | hit {key : K} {entry : Entry K} (hentry : q.known? key = some entry) :
      Step q (.got key [] none (.ok (some entry.data))) (q.lend entry)
  | full {key : K} (hmiss : q.known? key = none) (hroom : q.makeRoom? = none) :
      Step q (.got key [] none (.ok none)) q
  | loaded {key : K} {room : Shelf K} (data : Bytes) (hmiss : q.known? key = none)
      (hroom : q.makeRoom? = some room) :
      Step q (.got key [.ok data] q.oldest? (.ok (some data))) (room.put key data)
  | failed {key : K} {room : Shelf K} (e : StoreError) (hmiss : q.known? key = none)
      (hroom : q.makeRoom? = some room) :
      Step q (.got key [.error e] q.oldest? (.error e)) room
  | released {key : K} {entry : Entry K} (hentry : q.known? key = some entry)
      (hheld : 0 < entry.holders) : Step q (.released key) (q.giveBack entry)

/-- What comes of an event on a shelf that is for the keys of `mine`: a step, or
nothing if its key is somewhere else. -/
inductive Follows (mine : K → Prop) (q : Shelf K) (event : Event K) : Shelf K → Prop
  | step {q' : Shelf K} (hkey : mine event.key) (hstep : q.Step event q') : Follows mine q event q'
  | elsewhere (hkey : ¬ mine event.key) (hevicted : ∀ old ∈ event.evicted?, ¬ mine old) :
      Follows mine q event q

/-- The histories that a shelf of `size` entries can have, if it is for the
keys of `mine` and other keys are somewhere else. -/
inductive Runs (size : Nat) (mine : K → Prop) : List (Event K) → Shelf K → Prop
  | start : Runs size mine [] (empty size)
  | step {past : List (Event K)} {q q' : Shelf K} {event : Event K} (h : Runs size mine past q)
      (hkey : mine event.key) (hstep : q.Step event q') : Runs size mine (event :: past) q'
  | elsewhere {past : List (Event K)} {q : Shelf K} {event : Event K} (h : Runs size mine past q)
      (hkey : ¬ mine event.key) (hevicted : ∀ old ∈ event.evicted?, ¬ mine old) :
      Runs size mine (event :: past) q

theorem Follows.runs {size : Nat} {mine : K → Prop} {past : List (Event K)} {q q' : Shelf K}
    {event : Event K} (hfollows : q.Follows mine event q') (h : Runs size mine past q) :
    Runs size mine (event :: past) q' := by
  cases hfollows with
  | step hkey hstep => exact h.step hkey hstep
  | elsewhere hkey hevicted => exact h.elsewhere hkey hevicted

end Shelf

end RecordStore.Cache
