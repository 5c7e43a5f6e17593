import Mathlib
import RecordStore.Proofs.Cache.Consistency
import RecordStore.Proofs.Checked.Guards

/-!
# Caches on a machine

A get of a cache, with every index and every count checked.  In a cache that is
in order the links of a recency list lead to places there are, and so do the
keys and the shards; the count of the references to a node is the only number
that could grow out of its word.  So a get comes to what it comes to without
bounds (`cacheGet_eq`) while fewer references are out than a word can count.

The counters of hits and misses go round, and are not checked.
-/

namespace RecordStore.Checked

open Cache

/-! ## Recency lists -/

/-- The neighbour of a place, if there is one, is a place there is. -/
def neighbour (r : Recency) (place? : Option Nat) : Checked Unit :=
  match place? with
  | some place => index place r.links.size
  | none => .ok ()

/-- Takes a place out of the list. -/
def unlink (r : Recency) (place : Nat) : Checked Recency := do
  index place r.links.size
  let link := r.link place
  neighbour r link.newer
  let r := r.setOlder link.newer link.older
  neighbour r link.older
  let r := r.setNewer link.older link.newer
  index place r.links.size
  return { r with links := r.links.setIfInBounds place ⟨.none, .none⟩ }

/-- Puts a place after all others. -/
def linkTail (r : Recency) (place : Nat) : Checked Recency := do
  index place r.links.size
  let r := { r with links := r.links.setIfInBounds place ⟨r.tail, .none⟩ }
  neighbour r r.tail
  let r := r.setOlder r.tail (some place)
  return { r with tail := some place }

section

variable {r : Recency} {order : List Nat} {place : Nat}

theorem neighbour_of_mem {place? : Option Nat}
    (h : ∀ place, place? = some place → place < r.links.size) : neighbour r place? = .ok () := by
  cases place? with
  | none => rfl
  | some place => exact index_of_lt (h place rfl)

/-- **The neighbours of a listed place are places there are.** -/
theorem unlink_eq (h : r.Lists order) (hmem : place ∈ order) :
    unlink r place = .ok (r.unlink place) := by
  obtain ⟨front, back, rfl⟩ := List.append_of_mem hmem
  have hlink := h.link front place back rfl
  have hnewer : ∀ other, (r.link place).newer = some other → other < r.links.size := by
    intro other hother
    rw [hlink] at hother
    exact h.inside other (List.mem_append_left _ (List.mem_of_getLast? hother))
  have holder : ∀ other, (r.link place).older = some other → other < r.links.size := by
    intro other hother
    rw [hlink] at hother
    exact h.inside other
      (List.mem_append_right _ (List.mem_cons_of_mem _ (List.mem_of_head? hother)))
  have hplace := h.inside place hmem
  unfold unlink
  rw [bind_of_eq (index_of_lt hplace)]
  simp only
  rw [bind_of_eq (neighbour_of_mem hnewer),
    bind_of_eq (neighbour_of_mem (by rw [Recency.size_setOlder]; exact holder)),
    bind_of_eq (index_of_lt (by rw [Recency.size_setNewer, Recency.size_setOlder]; exact hplace))]
  rfl

theorem linkTail_eq (h : r.Lists order) (hplace : place < r.links.size) :
    linkTail r place = .ok (r.linkTail place) := by
  have htail : ∀ other, r.tail = some other →
      other < (r.links.setIfInBounds place ⟨r.tail, .none⟩).size := by
    intro other hother
    rw [h.tail] at hother
    rw [Array.size_setIfInBounds]
    exact h.inside other (List.mem_of_getLast? hother)
  unfold linkTail
  rw [bind_of_eq (index_of_lt hplace)]
  simp only
  rw [bind_of_eq (neighbour_of_mem htail)]
  rfl

end

/-! ## Shards -/

section

variable {K : Type} [BEq K] [Hashable K] {σ : Type}

/-- The idle nodes when a node is going to be held. -/
def claim (s : Shard K) (place : Nat) : Checked Recency :=
  if (s.node place).holders = 0 then unlink s.idle place else .ok s.idle

/-- Gives out another reference to the node of a resident key. -/
def reuse (s : Shard K) (place : Nat) : Checked (Answer × Shard K) := do
  index place s.nodes.size
  let node := s.node place
  let idle ← claim s place
  let holders ← word 32 (node.holders + 1)
  let nodes := s.nodes.setIfInBounds place { node with holders }
  return (.held place node.data, { s with nodes, idle })

/-- Takes the idle node at a place out of the list and forgets its key. -/
def evict (s : Shard K) (place : Nat) : Checked (Shard K) := do
  let idle ← unlink s.idle place
  index place s.nodes.size
  let node := s.node place
  let resident :=
    match node.key? with
    | some key => s.resident.erase key
    | none => s.resident
  return { nodes := s.nodes.setIfInBounds place { node with key? := none }, resident, idle }

/-- Puts the loaded bytes of a key into an evicted node. -/
def fill (s : Shard K) (place : Nat) (key : K) (data : Bytes) : Checked (Shard K) := do
  index place s.nodes.size
  return s.fill place key data

/-- Gives an evicted node back as the next to be reused. -/
def abandon (s : Shard K) (place : Nat) : Checked (Shard K) := do
  index place s.nodes.size
  let idle ← linkTail s.idle place
  return { s with nodes := s.nodes.setIfInBounds place { s.node place with data := [] }, idle }

/-- Asks for a key, which `load` fetches from elsewhere if it has to. -/
def shardGet (s : Shard K) (key : K) (load : σ → Checked (Except StoreError Bytes × σ))
    (world : σ) : Checked ((Answer × Bool × Shard K) × σ) :=
  match s.resident[key]? with
  | some place => do
    let (answer, s) ← reuse s place
    return ((answer, true, s), world)
  | none =>
    match s.idle.tail with
    | none => return ((.exhausted, false, s), world)
    | some place => do
      let s ← evict s place
      let (result, world) ← load world
      match result with
      | .ok data =>
        let s ← fill s place key data
        return ((.held place data, false, s), world)
      | .error e =>
        let s ← abandon s place
        return ((.failed e, false, s), world)

variable {s : Shard K} {size place : Nat} {held : Nat → Nat} {key : K}

theorem reuse_eq (h : s.Sound size held none) (hkey : s.resident[key]? = some place)
    (hheld : held place + 1 < 2 ^ 32) : reuse s place = .ok (s.reuse place) := by
  obtain ⟨own, hown, -⟩ := (h.resident key place).mp hkey
  have hplace := Shard.lt_size_of_key hown
  have hidle : claim s place =
      .ok (if (s.node place).holders = 0 then s.idle.unlink place else s.idle) := by
    unfold claim
    by_cases hzero : (s.node place).holders = 0
    · have hmem : place ∈ s.idle.fromHead :=
        (h.mem_idle place).mpr ⟨h.size_nodes ▸ hplace, hzero, by simp⟩
      rw [if_pos hzero, if_pos hzero]
      exact unlink_eq h.listed hmem
    · rw [if_neg hzero, if_neg hzero]
  rw [← h.holders place] at hheld
  unfold reuse
  rw [bind_of_eq (index_of_lt hplace)]
  simp only
  rw [bind_of_eq hidle, bind_of_eq (word_of_lt hheld)]
  rfl

theorem evict_eq (h : s.Sound size held none) (htail : s.idle.tail = some place) :
    evict s place = .ok (s.evict place) := by
  unfold evict
  rw [bind_of_eq (unlink_eq h.listed (h.mem_of_tail htail)),
    bind_of_eq (index_of_lt (h.lt_size_of_tail htail))]
  rfl

theorem fill_eq (hplace : place < s.nodes.size) (data : Bytes) :
    fill s place key data = .ok (s.fill place key data) := by
  unfold fill
  rw [bind_of_eq (index_of_lt hplace)]
  rfl

theorem abandon_eq {order : List Nat} (h : s.idle.Lists order) (hplace : place < s.nodes.size)
    (hlink : place < s.idle.links.size) : abandon s place = .ok (s.abandon place) := by
  unfold abandon
  rw [bind_of_eq (index_of_lt hplace), bind_of_eq (linkTail_eq h hlink)]
  rfl

variable {load : σ → Except StoreError Bytes × σ}
  {loading : σ → Checked (Except StoreError Bytes × σ)} {world : σ}

/-- **A shard in order** does nothing that a machine does not allow. -/
theorem shardGet_eq (h : s.Sound size held none) (hheld : ∀ place, held place + 1 < 2 ^ 32)
    (hload : loading world = .ok (load world)) :
    shardGet s key loading world = .ok (s.get key load world) := by
  unfold shardGet Shard.get
  cases hkey : s.resident[key]? with
  | some place =>
      simp only
      rw [bind_of_eq (reuse_eq h hkey (hheld place))]
      rfl
  | none =>
      cases htail : s.idle.tail with
      | none => rfl
      | some place =>
          have hplace := h.lt_size_evict htail
          have hlists := h.listed.unlink_of_mem (h.mem_of_tail htail)
          have hlink : place < (s.evict place).idle.links.size := by
            show place < (s.idle.unlink place).links.size
            rw [Recency.size_unlink, h.size_links, ← h.size_nodes]
            exact h.lt_size_of_tail htail
          simp only
          rw [bind_of_eq (evict_eq h htail), bind_of_eq hload]
          rcases load world with ⟨e | data, after⟩
          · simp only
            rw [bind_of_eq (abandon_eq hlists hplace hlink)]
            rfl
          · simp only
            rw [bind_of_eq (fill_eq hplace data)]
            rfl

/-! ## Caches -/

/-- Gets a reference to the bytes of a key, which `load` fetches from
elsewhere if they are not resident. -/
def cacheGet (c : Cache K) (key : K) (load : σ → Checked (Except StoreError Bytes × σ))
    (world : σ) : Checked ((Except StoreError (Option Ref) × Cache K) × σ) := do
  let place ← remainder (c.spread key).toNat c.shards.size
  index place c.shards.size
  let ((answer, hit, shard), world) ← shardGet (c.shard place) key load world
  let c := { c with
    shards := c.shards.setIfInBounds place shard
    hits := if hit then c.hits + 1 else c.hits
    misses := if hit then c.misses else c.misses + 1 }
  match answer with
  | .held node data => return ((.ok (some ⟨⟨place, node⟩, data⟩), c), world)
  | .exhausted => return ((.ok none, c), world)
  | .failed e => return ((.error e, c), world)

/-- **A cache in order** does nothing that a machine does not allow, while fewer
references are out than it can count. -/
theorem cacheGet_eq {u : Lending K} {count : Nat} (h : u.Sound count size) (hpos : 0 < count)
    (hout : u.out.length + 1 < 2 ^ 32) (hload : loading world = .ok (load world)) :
    cacheGet u.cache key loading world = .ok (u.cache.get key load world) := by
  have hplace : u.cache.shardOf key < u.cache.shards.size :=
    Nat.mod_lt _ (h.shards ▸ hpos)
  have hown := h.shard (u.cache.shardOf key) (h.shards ▸ hplace)
  have hheld : ∀ node, u.out.count ⟨u.cache.shardOf key, node⟩ + 1 < 2 ^ 32 :=
    fun node => (Nat.succ_le_succ List.count_le_length).trans_lt hout
  have hhome : remainder (u.cache.spread key).toNat u.cache.shards.size =
      .ok (u.cache.shardOf key) := remainder_of_pos (h.shards ▸ hpos)
  unfold cacheGet Cache.get
  rw [bind_of_eq hhome, bind_of_eq (index_of_lt hplace),
    bind_of_eq (shardGet_eq hown hheld hload)]
  simp only
  rcases (u.cache.shard (u.cache.shardOf key)).get key load world with ⟨⟨answer, hit, shard⟩, after⟩
  cases answer <;> rfl

end

end RecordStore.Checked
